import CrashCapture.Json.Lexical

namespace CrashCapture.Json

/-- Goes through the elements of an array after its bracket. `step` reads one element. -/
def foldElements {α : Type} (step : α → Bytes → Decode (α × Bytes)) :
    Nat → Bool → α → Bytes → Decode (α × Bytes)
  | 0, _, _, _ => .error .malformed
  | fuel + 1, first, state, text =>
    match skipBlanks text with
    | [] => .error .truncated
    | 93 :: rest => .ok (state, rest)
    | b :: rest =>
      if first then do
        let (state, rest) ← step state (b :: rest)
        foldElements step fuel false state rest
      else if b = 44 then
        match skipBlanks rest with
        | [] => .error .truncated
        | 93 :: _ => .error .malformed
        | text => do
          let (state, rest) ← step state text
          foldElements step fuel false state rest
      else .error .malformed

/-- Goes through the members of an object after its brace. `step` gets the name of a member and the
text after the name. -/
def foldMembers {α : Type} (step : α → String → Bytes → Decode (α × Bytes)) :
    Nat → Bool → α → Bytes → Decode (α × Bytes)
  | 0, _, _, _ => .error .malformed
  | fuel + 1, first, state, text =>
    let member (text : Bytes) : Decode (α × Bytes) := do
      let (key, rest) ← stringTail text
      let (state, rest) ← step state key rest
      foldMembers step fuel false state rest
    match skipBlanks text with
    | [] => .error .truncated
    | 125 :: rest => .ok (state, rest)
    | b :: rest =>
      if first then
        if b = 34 then member rest else .error .malformed
      else if b = 44 then
        match skipBlanks rest with
        | [] => .error .truncated
        | 34 :: rest => member rest
        | _ => .error .malformed
      else .error .malformed

/-- Reads what is no array or object. -/
def scalar : Bytes → Decode (Json × Bytes)
  | [] => .error .truncated
  | 110 :: rest => do return (.null, ← word [117, 108, 108] rest)
  | 116 :: rest => do return (.bool true, ← word [114, 117, 101] rest)
  | 102 :: rest => do return (.bool false, ← word [97, 108, 115, 101] rest)
  | 34 :: rest => do
    let (s, rest) ← stringTail rest
    return (.str s, rest)
  | b :: rest =>
    if b = 45 || Bytes.isDigit b then do
      let (n, rest) ← number (b :: rest)
      return (.num n, rest)
    else .error .malformed

/-- Reads a value that is nested so deep at most. No array or object in it has more than `size`
elements or members. -/
def value (size : Nat) : Nat → Bytes → Decode (Json × Bytes)
  | 0, text =>
    match skipBlanks text with
    | 91 :: _ => .error .malformed
    | 123 :: _ => .error .malformed
    | text => scalar text
  | depth + 1, text =>
    match skipBlanks text with
    | 91 :: rest => do
      let element (vs : List Json) (text : Bytes) : Decode (List Json × Bytes) := do
        let (v, rest) ← value size depth text
        return (v :: vs, rest)
      let (vs, rest) ← foldElements element (size + 1) true [] rest
      return (.arr vs.reverse, rest)
    | 123 :: rest => do
      let member (ms : Members Json) (key : String) (text : Bytes) : Decode (Members Json × Bytes) := do
        let text ← punctuation 58 text
        let (v, rest) ← value size depth text
        return (ms.insert key v, rest)
      let (ms, rest) ← foldMembers member (size + 1) true [] rest
      return (.obj ms, rest)
    | text => scalar text

def maxDepth : Nat := 127

def finish {α : Type} : α × Bytes → Decode α
  | (a, rest) => if (skipBlanks rest).isEmpty then .ok a else .error .malformed

def parse (text : Bytes) : Decode Json := value text.length maxDepth text >>= finish

/-- Reads values one after the other from a text of so many bytes at most. -/
def valuesFrom : Nat → Bytes → Decode (List Json)
  | 0, _ => .error .malformed
  | fuel + 1, text =>
    if (skipBlanks text).isEmpty then .ok []
    else do
      let (v, rest) ← value fuel maxDepth text
      return v :: (← valuesFrom fuel rest)

/-- A text that is any number of values one after the other. -/
def parseAll (text : Bytes) : Decode (List Json) := valuesFrom (text.length + 1) text

inductive Enclosing
  | array
  | object
deriving DecidableEq

inductive Expecting
  | value
  | firstOrClose
  | commaOrClose
deriving DecidableEq

namespace Enclosing

def close : Enclosing → UInt8
  | array => 93
  | object => 125

/-- Up to the next value inside: the name of a member and its colon. -/
def lead : Enclosing → Bytes → Decode Bytes
  | array, text => .ok text
  | object, text => do
    let text ← punctuation 34 text
    let text ← skipString text
    punctuation 58 text

end Enclosing

/-- Passes over what is no array or object. A number that is cut short is wrong here, and any size of
it is right. -/
def skipScalar : Bytes → Decode Bytes
  | [] => .error .truncated
  | 110 :: rest => word [117, 108, 108] rest
  | 116 :: rest => word [114, 117, 101] rest
  | 102 :: rest => word [97, 108, 115, 101] rest
  | 34 :: rest => skipString rest
  | b :: rest =>
    if b = 45 || Bytes.isDigit b then (numeral .malformed (b :: rest)).map (·.2)
    else .error .malformed

/-- Passes over one value with a stack of the arrays and objects that are open. -/
def skipFrom : Nat → List Enclosing → Expecting → Bytes → Decode Bytes
  | 0, _, _, _ => .error .malformed
  | fuel + 1, stack, .value, text =>
    match skipBlanks text with
    | 91 :: rest => skipFrom fuel (.array :: stack) .firstOrClose rest
    | 123 :: rest => skipFrom fuel (.object :: stack) .firstOrClose rest
    | text => do skipFrom fuel stack .commaOrClose (← skipScalar text)
  | _ + 1, [], _, text => .ok text
  | fuel + 1, top :: stack, expecting, text =>
    match skipBlanks text with
    | [] => .error .truncated
    | b :: rest =>
      if b = top.close then skipFrom fuel stack .commaOrClose rest
      else if expecting = .firstOrClose then do
        skipFrom fuel (top :: stack) .value (← top.lead (b :: rest))
      else if b = 44 then do skipFrom fuel (top :: stack) .value (← top.lead rest)
      else .error .malformed

def skipValue (text : Bytes) : Decode Bytes :=
  skipFrom (2 * text.length + 2) [] .value text

end CrashCapture.Json
