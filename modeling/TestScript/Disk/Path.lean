import TestScript.Fault

/-!
Paths as they are written: names between slashes. Empty names and single dots lead nowhere; they
matter only at the end of a path, where they ask for a folder.
-/

namespace TestScript.Path

def slash : Char := '/'

def isAbsolute (path : String) : Bool := path.toList.head? == some slash

/-- What stands between the slashes, the root of an absolute path left out. -/
def parts (path : String) : List String :=
  let all := (path.toList.splitOn slash).map String.ofList
  if isAbsolute path then all.tail else all

def IsIdle (part : String) : Prop := part = "" ∨ part = "."

instance (part : String) : Decidable (IsIdle part) := inferInstanceAs (Decidable (_ ∨ _))

/-- The parts that lead somewhere. -/
def names (path : String) : List String :=
  (parts path).filter fun part => ¬ IsIdle part

def withoutIdleEnd (parts : List String) : List String :=
  (parts.reverse.dropWhile fun part => IsIdle part).reverse

/-- The path without its last name, if it has a name. -/
def parent? (path : String) : Option String :=
  match withoutIdleEnd (parts path) with
  | [] => none
  | parts =>
    let above := "/".intercalate (withoutIdleEnd parts.dropLast)
    some (if isAbsolute path then "/" ++ above else above)

/-- The longest path and the longest name, in bytes. -/
def longest : Nat := 4095

def longestName : Nat := 255

/-- A path that can be handed to the system at all. -/
def check (path : String) : Except FileFault Unit :=
  if path.toList.contains '\x00' then .error .nulInPath
  else if longest < path.utf8ByteSize then .error .nameTooLong
  else .ok ()

end TestScript.Path
