import TestScript.Disk.Basic

namespace TestScript.Disk

/-- Makes a folder with this name; the path to it must be there and the name must be free. -/
def makeFolder (d : Disk) (origin : Location) (above : List String) (name : String) :
    Except FileFault Disk := do
  let there ← step (← d.walk origin above) name
  match d.find? there with
  | some _ => .error .exists
  | none => .ok (d.put there .folder)

/-- A folder that is already there is as good as one that was made. -/
def settle (d : Disk) (origin : Location) (names : List String) (fault : FileFault) :
    Except FileFault Unit :=
  match d.walk origin names with
  | .ok _ => .ok ()
  | .error _ => .error fault

/-- Makes the folder that the names, last one first, lead to, and all that are missing above it. -/
def makeFolders (d : Disk) (origin : Location) : List String → Except FileFault Unit × Disk
  | [] => (.ok (), d)
  | name :: above =>
    match d.makeFolder origin above.reverse name with
    | .ok made => (.ok (), made)
    | .error .missing =>
      match d.makeFolders origin above with
      | (.error fault, d) => (.error fault, d)
      | (.ok _, d) =>
        match d.makeFolder origin above.reverse name with
        | .ok made => (.ok (), made)
        | .error fault => (d.settle origin (name :: above).reverse fault, d)
    | .error fault => (d.settle origin (name :: above).reverse fault, d)

/-- Makes the folders above the file that a path names. -/
def makeParents (d : Disk) (here : Location) (path : String) : Except FileFault Unit × Disk :=
  match Path.parent? path with
  | none => (.ok (), d)
  | some parent =>
    match Path.check parent with
    | .error fault => (.error fault, d)
    | .ok _ => d.makeFolders (start here parent) (Path.names parent).reverse

/-- Saves a text under a path, seen from a working folder. Missing folders above the file are made
first, and stay when the file itself cannot be written. -/
def save (d : Disk) (here : Location) (path text : String) : Except FileFault Unit × Disk :=
  match d.makeParents here path with
  | (.error fault, d) => (.error fault, d)
  | (.ok _, d) =>
    match d.target here path with
    | .error fault => (.error fault, d)
    | .ok there => (.ok (), d.put there (.file text))

/-- What a file holds that is written from a text: a last line that is not ended is ended there. -/
def fileText (text : String) : String :=
  if text ≠ "" ∧ text.toList.getLast? ≠ some '\n' then text.push '\n' else text

/-- Writes a text to a file. -/
def write (d : Disk) (here : Location) (path text : String) : Except FileFault Unit × Disk :=
  d.save here path (fileText text)

end TestScript.Disk
