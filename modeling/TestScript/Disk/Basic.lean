import TestScript.Disk.Path

namespace TestScript

inductive Entry where
  | folder
  | file (text : String)
  deriving DecidableEq, Repr

/-- The names that lead to an entry from the root. -/
abbrev Location := List String

structure Disk where
  /-- What is found under the root. -/
  contents : Location → Option Entry

namespace Disk

def empty : Disk := ⟨fun _ => none⟩

/-- The root is always a folder. -/
def find? (d : Disk) (location : Location) : Option Entry :=
  if location = [] then some .folder else d.contents location

def put (d : Disk) (location : Location) (entry : Entry) : Disk :=
  ⟨fun other => if other = location then some entry else d.contents other⟩

/-- The text of the file at a location. -/
def text? (d : Disk) (location : Location) : Option String :=
  match d.find? location with
  | some (.file text) => some text
  | _ => none

/-- What a name leads to from a folder, whether it is there or not. -/
def step (here : Location) (name : String) : Except FileFault Location :=
  if name = ".." then .ok here.dropLast
  else if Path.longestName < name.utf8ByteSize then .error .nameTooLong
  else .ok (here ++ [name])

/-- Enters a folder. -/
def enter (d : Disk) (here : Location) (name : String) : Except FileFault Location := do
  let there ← step here name
  match d.find? there with
  | none => .error .missing
  | some (.file _) => .error .notDirectory
  | some .folder => .ok there

/-- Walks from folder to folder, name by name. -/
def walk (d : Disk) (here : Location) (names : List String) : Except FileFault Location :=
  names.foldlM d.enter here

/-- Where a path starts, seen from a working folder. -/
def start (here : Location) (path : String) : Location :=
  if Path.isAbsolute path then [] else here

/-- The file that a path names, whether it is there or not. A path that ends like that of a folder
names no file. -/
def target (d : Disk) (here : Location) (path : String) : Except FileFault Location := do
  Path.check path
  match (Path.parts path).reverse.dropWhile (· == "") with
  | [] => .error (if Path.isAbsolute path then .isDirectory else .missing)
  | name :: above =>
    let folder ← d.walk (start here path) (above.reverse.filter fun part => ¬ Path.IsIdle part)
    if name = "." ∨ name = ".." ∨ (Path.parts path).getLast? = some "" then .error .isDirectory
    else
      let there ← step folder name
      match d.find? there with
      | some .folder => .error .isDirectory
      | _ => .ok there

/-- The text of the file that a path names, if there is one. -/
def read? (d : Disk) (here : Location) (path : String) : Option String :=
  (d.target here path).toOption.bind d.text?

theorem text?_put (d : Disk) (location other : Location) (text : String) (h : location ≠ []) :
    (d.put location (.file text)).text? other =
      if other = location then some text else d.text? other := by
  by_cases same : other = location
  · simp [text?, find?, put, same, h]
  · simp [text?, find?, put, same]

end Disk

end TestScript
