import TestScript.Form.Basic
import TestScript.Step.Spec

/-!
Many steps at once: a list of specs goes through one form, in order. A spec that can be read is
written over whatever the form still holds, and then committed. A spec that cannot be read, or whose
commit is refused, is set aside with its fault; the draft of a refused commit stays in the form.
-/

namespace TestScript

structure Rejection where
  spec : String
  fault : Fault
  deriving DecidableEq, Repr

def Rejection.message (r : Rejection) : String :=
  "skipping step: " ++ r.fault.message

structure Batch where
  form : Form := {}
  rejections : List Rejection := []
  deriving DecidableEq, Repr

namespace Batch

def reject (b : Batch) (spec : String) (fault : Fault) : Batch :=
  { b with rejections := b.rejections ++ [⟨spec, fault⟩] }

def add (b : Batch) (spec : String) : Batch :=
  match Draft.ofSpec spec with
  | .error fault => b.reject spec fault
  | .ok draft =>
    let form := b.form.fill draft
    match form.submit with
    | .ok (_, next) => { b with form := next }
    | .error fault => { b with form }.reject spec fault

def ofSpecs (specs : List String) : Batch :=
  specs.foldl add {}

def steps (b : Batch) : List Step := b.form.steps

end Batch

end TestScript
