import TestScript.Command.Request
import TestScript.Disk.Saving

namespace TestScript

/-- What a run of the program prints and the code it ends with. -/
structure Outcome where
  code : Nat
  output : String := ""
  /-- The last thing told to the user apart from the output. -/
  note : Option String := none

namespace Outcome

def versionText : String := program ++ " 0.1.0\n"

def ofFault (fault : Fault) : Outcome where
  code := 1
  note := some (program ++ ": " ++ fault.message)

/-- What is left on the standard output by a text: the text, and behind it a line feed if its last
line is not ended. -/
def printed (text : String) : String :=
  text ++ if text ≠ "" ∧ text.toList.getLast? ≠ some '\n' then "\n" else ""

/-- The outcome of a report that goes to the standard output. -/
def ofText (text : String) : Outcome where
  code := 0
  output := printed text

/-- The outcome of a report that went to a file. -/
def ofSaved (path : String) : Outcome where
  code := 0
  note := some ("Wrote " ++ path)

/-- The outcome of arguments that make no sense. -/
def misuse : Outcome where
  code := 2

/-- The outcome of a table that cannot be set. -/
def aborted : Outcome where
  code := 101

end Outcome

namespace Report

/-- Hands a report over, seen from a working folder. -/
def deliver (r : Report) (d : Disk) (here : Location) : Outcome × Disk :=
  match r.text?, r.path with
  | none, _ => (.aborted, d)
  | some text, none => (.ofText text, d)
  | some text, some path =>
    match d.write here path text with
    | (.ok _, d) => (.ofSaved path, d)
    | (.error fault, d) => (.ofFault (.file fault), d)

end Report

namespace Request

def perform (preset : Option String) (r : Request) (d : Disk) (here : Location) : Outcome × Disk :=
  match r with
  | .help topic => ({ code := 0, output := topic.text preset }, d)
  | .version => ({ code := 0, output := Outcome.versionText }, d)
  | .run command =>
    match command.report with
    | .ok report => report.deliver d here
    | .error fault => (.ofFault fault, d)

end Request

/-- A run with these arguments. A lesson that they do not name is the preset one. -/
def run (preset : Option String) (arguments : List String) (d : Disk) (here : Location) :
    Outcome × Disk :=
  match Request.ofArguments? preset arguments with
  | some request => request.perform preset d here
  | none => (.misuse, d)

end TestScript
