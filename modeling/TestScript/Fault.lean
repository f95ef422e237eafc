import TestScript.Vocabulary.Interface

namespace TestScript

/-- Why a file could not be written. The numbers are those the system gives to these causes. -/
inductive FileFault where
  | missing
  | exists
  | notDirectory
  | isDirectory
  | nameTooLong
  /-- A path with a NUL character, which no file name can hold. -/
  | nulInPath
  /-- Any other cause, in the words of the system. -/
  | other (text : String)
  deriving DecidableEq, Repr

def FileFault.message : FileFault → String
  | .missing => "No such file or directory (os error 2)"
  | .exists => "File exists (os error 17)"
  | .notDirectory => "Not a directory (os error 20)"
  | .isDirectory => "Is a directory (os error 21)"
  | .nameTooLong => "File name too long (os error 36)"
  | .nulInPath => "file name contained an unexpected NUL byte"
  | .other text => text

/-- What can go wrong, by cause. -/
inductive Fault where
  | missingFields (fields : List Field)
  | unknownTab (text : String)
  | tabUnavailable (tab : Tab)
  | unknownLesson (query : String)
  | malformedSpec (spec : String)
  | emptyCatalog
  | file (cause : FileFault)
  deriving DecidableEq, Repr

def Fault.message : Fault → String
  | .missingFields fields => "missing required field(s): " ++ Field.labels fields
  | .unknownTab text => "unknown tab: " ++ text ++ " (expected learn, practice or script)"
  | .tabUnavailable tab => "the " ++ tab.label ++ " tab is not available for this command"
  | .unknownLesson query => "no lesson matches '" ++ query ++ "'"
  | .malformedSpec spec =>
    "invalid step spec '" ++ spec ++
      "': expected action|locatorKind|locator[|testData[|expectedResult[|description]]]"
  | .emptyCatalog => "a lesson catalog needs at least one lesson"
  | .file cause => "IO error: " ++ cause.message

/-- Two steps come to a result if the first comes to one and the second goes on from it. -/
theorem Except.bind_eq_ok_iff {ε α β : Type} {x : Except ε α} {f : α → Except ε β} {b : β} :
    x >>= f = .ok b ↔ ∃ a, x = .ok a ∧ f a = .ok b := by
  cases x with
  | error e => simp [bind, Except.bind]
  | ok a => simp [bind, Except.bind]

/-- Two steps fail if the first fails, or the second does with its result. -/
theorem Except.bind_eq_error_iff {ε α β : Type} {x : Except ε α} {f : α → Except ε β} {e : ε} :
    x >>= f = .error e ↔ x = .error e ∨ ∃ a, x = .ok a ∧ f a = .error e := by
  cases x with
  | error e => simp [bind, Except.bind]
  | ok a => simp [bind, Except.bind]

end TestScript
