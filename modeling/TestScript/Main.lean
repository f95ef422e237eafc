import TestScript.Command.Outcome

namespace TestScript

def FileFault.ofError (error : IO.Error) : FileFault :=
  match error with
  | .noFileOrDirectory _ _ _ => .missing
  | .alreadyExists _ 17 _ => .exists
  | .inappropriateType _ 20 _ => .notDirectory
  | .inappropriateType _ 21 _ => .isDirectory
  | .invalidArgument _ 36 _ => .nameTooLong
  | _ => .other (toString error)

/-- Writes a text to a file, and makes the folders above it that are missing. -/
def writeText (path text : String) : IO Unit := do
  if let some parent := Path.parent? path then
    unless parent.isEmpty do IO.FS.createDirAll parent
  IO.FS.writeFile path (Disk.fileText text)

def Report.emit (r : Report) : IO Outcome := do
  for rejection in r.rejections do
    IO.eprintln rejection.message
  match r.text?, r.path with
  | none, _ => return .aborted
  | some text, none => return .ofText text
  | some text, some path =>
    try
      writeText path text
      return .ofSaved path
    catch error => return .ofFault (.file (.ofError error))

def Request.emit (preset : Option String) : Request → IO Outcome
  | .help topic => return { code := 0, output := topic.text preset }
  | .version => return { code := 0, output := Outcome.versionText }
  | .run command =>
    match command.report with
    | .ok report => report.emit
    | .error fault => return .ofFault fault

end TestScript

open TestScript in
def main (arguments : List String) : IO UInt32 := do
  let preset ← IO.getEnv "STEP_SCRIPT_LESSON"
  let outcome ← match Request.ofArguments? preset arguments with
    | some request => request.emit preset
    | none => do
      IO.eprint (Topic.program.text preset)
      pure .misuse
  IO.print outcome.output
  if let some note := outcome.note then IO.eprintln note
  return outcome.code.toUInt32
