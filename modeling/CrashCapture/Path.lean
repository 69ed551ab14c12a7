import CrashCapture.Text.Split

namespace CrashCapture

open Text

/-- A file path, by a text that stands for it. The operations on it are lexical: none of these looks at a
file system. -/
abbrev Path := String

namespace Path

def isAbsolute (p : Path) : Bool := p.toList.head? = some '/'

/-- Appends a relative path, adding a slash only where one is missing. An absolute one replaces. -/
def join (base rest : Path) : Path :=
  if isAbsolute rest then rest
  else if base.isEmpty || base.toList.getLast? = some '/' then base ++ rest
  else base ++ "/" ++ rest

/-- The names between slashes that count: empty ones do not, and a dot only at the very start of a
relative path. -/
def components (p : Path) : List String :=
  match (splitAll '/' p.toList).map String.ofList with
  | [] => []
  | first :: rest =>
    let rest := rest.filter fun c => c ≠ "" && c ≠ "."
    if first = "" then rest else first :: rest

def parent? (p : Path) : Option Path :=
  match (components p).reverse with
  | [] => none
  | _ :: before =>
    some ((if isAbsolute p then "/" else "") ++ "/".intercalate before.reverse)

/-- Makes a path absolute without looking at any file: dots and repeated slashes go, parent
references and a trailing slash stay, and so do exactly two leading slashes. -/
def absolute? (workingDirectory p : Path) : Option Path :=
  if p.isEmpty then none
  else
    let names := (components p).filter (· ≠ ".")
    let text := "/".intercalate names
    let body :=
      if isAbsolute p then
        let leading := (p.toList.takeWhile (· = '/')).length
        (if leading = 2 then "//" else "/") ++ text
      else if names.isEmpty then workingDirectory
      else join workingDirectory text
    if p.toList.getLast? = some '/' && body.toList.getLast? ≠ some '/' then some (body ++ "/")
    else some body

end Path

end CrashCapture
