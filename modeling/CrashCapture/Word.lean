namespace CrashCapture.Word

def limit : Nat := Nat.pow 2 64

def fit? (n : Nat) : Option Nat := if n < limit then some n else none

def add? (a b : Nat) : Option Nat := fit? (a + b)

def mul? (a b : Nat) : Option Nat := fit? (a * b)

def nextMultiple? (n m : Nat) : Option Nat :=
  if m = 0 then none else if n % m = 0 then some n else add? n (m - n % m)

end CrashCapture.Word
