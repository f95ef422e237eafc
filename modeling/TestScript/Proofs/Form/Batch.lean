import TestScript.Form.Batch
import TestScript.Proofs.Form.Numbering
import TestScript.Proofs.Step.Parts

namespace TestScript

namespace Spec

/-- As many texts as a spec can have, and the first three not empty. -/
def Acceptable (spec : String) : Prop :=
  Sized spec ∧ ∀ field ∈ Field.required, text spec field ≠ ""

instance (spec : String) : Decidable (Acceptable spec) :=
  inferInstanceAs (Decidable (_ ∧ ∀ field ∈ Field.required, text spec field ≠ ""))

/-- What is made of an acceptable spec that is the `n`th such one. -/
def step (spec : String) (n : Nat) : Step := (draft spec).toStep (Step.customId n)

/-- What is wrong with any other spec. -/
def fault (spec : String) : Fault :=
  if Sized spec then .missingFields (draft spec).missing else .malformedSpec spec

theorem missing_draft (spec : String) :
    (draft spec).missing = Field.required.filter (text spec · = "") := by
  apply List.filter_congr
  intro field _
  rw [draft, Draft.get_ofTexts]
  rfl

theorem missing_draft_eq_nil_iff {spec : String} :
    (draft spec).missing = [] ↔ ∀ field ∈ Field.required, text spec field ≠ "" := by
  simp [missing_draft]

theorem acceptable_iff {spec : String} :
    Acceptable spec ↔ Sized spec ∧ ∀ part ∈ (parts spec).take 3, part ≠ "" := by
  refine and_congr_right fun sized => ?_
  rw [take_three_parts sized]
  simp [Field.required]

theorem missing_draft_eq (spec : String) :
    (draft spec).missing =
      (if text spec .action = "" then [.action] else []) ++
        (if text spec .kind = "" then [.kind] else []) ++
        if text spec .locator = "" then [.locator] else [] := by
  have one (field : Field) : [field].filter (text spec · = "") =
      if text spec field = "" then [field] else [] := by
    simp [List.filter_cons]
  have each : Field.required = [.action] ++ [.kind] ++ [.locator] := rfl
  rw [missing_draft, each, List.filter_append, List.filter_append, one, one, one]

theorem Acceptable.ready {spec : String} (h : Acceptable spec) : (draft spec).missing = [] :=
  missing_draft_eq_nil_iff.2 h.2

end Spec

namespace Batch

/-- An acceptable spec is committed, whatever draft was in the form. -/
theorem add_of_acceptable (b : Batch) {spec : String} (h : Spec.Acceptable spec) :
    b.add spec = { b with form := ({ b.form with draft := Spec.draft spec } : Form).accept.2 } := by
  have committed : ({ b.form with draft := Spec.draft spec } : Form).submit = .ok (Form.accept _) :=
    Form.submit_of_missing_eq_nil h.ready
  simp only [add, Spec.ofSpec_of_sized h.1, Form.fill_eq, committed]

/-- Any other spec is set aside. It may leave its draft in the form, but no step and no number. -/
theorem add_of_not_acceptable (b : Batch) {spec : String} (h : ¬ Spec.Acceptable spec) :
    ∃ draft, b.add spec =
      { b with form := { b.form with draft } : Batch }.reject spec (Spec.fault spec) := by
  by_cases sized : Spec.Sized spec
  · have missing : (Spec.draft spec).missing ≠ [] :=
      fun none => h ⟨sized, Spec.missing_draft_eq_nil_iff.1 none⟩
    have refused : ({ b.form with draft := Spec.draft spec } : Form).submit =
        .error (.missingFields (Spec.draft spec).missing) :=
      Form.submit_of_missing_ne_nil missing
    refine ⟨Spec.draft spec, ?_⟩
    simp only [add, Spec.ofSpec_of_sized sized, Form.fill_eq, refused, Spec.fault, sized,
      ↓reduceIte]
  · refine ⟨b.form.draft, ?_⟩
    simp only [add, Spec.ofSpec_of_not_sized sized, Spec.fault, sized, ↓reduceIte]

/-- A step for each acceptable spec and a rejection for each other one, both in their order. The
draft is left open. -/
structure Accounts (b : Batch) (specs : List String) : Prop where
  steps : b.form.steps =
    (specs.filter (Spec.Acceptable ·)).mapIdx fun n spec => Spec.step spec (n + 1)
  issued : b.form.issued = (specs.filter (Spec.Acceptable ·)).length
  rejections : b.rejections =
    (specs.filter (¬ Spec.Acceptable ·)).map fun spec => ⟨spec, Spec.fault spec⟩

theorem Accounts.add {b : Batch} {specs : List String} (h : b.Accounts specs) (spec : String) :
    (b.add spec).Accounts (specs ++ [spec]) := by
  by_cases acceptable : Spec.Acceptable spec
  · rw [add_of_acceptable b acceptable]
    refine ⟨?_, ?_, ?_⟩
    · simp [Form.accept, Spec.step, acceptable, h.steps, h.issued]
    · simp [Form.accept, acceptable, h.issued]
    · simp [acceptable, h.rejections]
  · obtain ⟨draft, eq⟩ := add_of_not_acceptable b acceptable
    rw [eq]
    refine ⟨?_, ?_, ?_⟩
    · simp [reject, acceptable, h.steps]
    · simp [reject, acceptable, h.issued]
    · simp [reject, acceptable, h.rejections]

theorem Accounts.foldl_add {b : Batch} {seen : List String} (h : b.Accounts seen)
    (specs : List String) : (specs.foldl Batch.add b).Accounts (seen ++ specs) := by
  induction specs generalizing b seen with
  | nil => simpa using h
  | cons spec specs ih => simpa using ih (h.add spec)

theorem accounts_ofSpecs (specs : List String) : (ofSpecs specs).Accounts specs := by
  have new : ({} : Batch).Accounts [] := ⟨rfl, rfl, rfl⟩
  exact new.foldl_add specs

theorem Accounts.numbered {b : Batch} {specs : List String} (h : b.Accounts specs) :
    b.form.Numbered := by
  refine ⟨?_, ?_, ?_⟩
  · rw [h.issued, h.steps, List.length_mapIdx]
  · rw [h.steps]
    apply List.ext_getElem
    · simp
    · intro n _ _
      simp [Spec.step, Draft.toStep]
  · intro step hs
    rw [h.steps] at hs
    obtain ⟨n, hn, rfl⟩ := List.mem_mapIdx.1 hs
    obtain ⟨_, kept⟩ := List.mem_filter.1 (List.getElem_mem hn)
    have acceptable := of_decide_eq_true kept
    exact Step.written_toStep acceptable.ready _

theorem numbered_ofSpecs (specs : List String) : (ofSpecs specs).form.Numbered :=
  (accounts_ofSpecs specs).numbered

theorem steps_ofSpecs (specs : List String) :
    (ofSpecs specs).steps =
      (specs.filter (Spec.Acceptable ·)).mapIdx fun n spec => Spec.step spec (n + 1) :=
  (accounts_ofSpecs specs).steps

theorem length_steps_ofSpecs (specs : List String) :
    (ofSpecs specs).steps.length = (specs.filter (Spec.Acceptable ·)).length := by
  rw [steps_ofSpecs, List.length_mapIdx]

theorem renumbered_steps_ofSpecs (specs : List String) (start : Nat) :
    ((ofSpecs specs).steps.mapIdx fun n step =>
        { step with id := Step.customId (start + n + 1) }) =
      (specs.filter (Spec.Acceptable ·)).mapIdx fun n spec => Spec.step spec (start + n + 1) := by
  rw [steps_ofSpecs, List.mapIdx_mapIdx]
  rfl

/-- The steps of a second list follow those of the first, with the numbers moved on. -/
theorem steps_ofSpecs_append (first second : List String) :
    (ofSpecs (first ++ second)).steps =
      (ofSpecs first).steps ++ (ofSpecs second).steps.mapIdx fun n step =>
        { step with id := Step.customId ((ofSpecs first).steps.length + n + 1) } := by
  have moved (spec : String) (n : Nat) :
      Spec.step spec (n + (ofSpecs first).steps.length + 1) =
        Spec.step spec ((ofSpecs first).steps.length + n + 1) := by
    rw [Nat.add_comm n]
  rw [renumbered_steps_ofSpecs, steps_ofSpecs (first ++ second), List.filter_append,
    List.mapIdx_append, ← steps_ofSpecs first, ← length_steps_ofSpecs first]
  simp only [moved]

/-- Every spec is dealt with alone, and its parts are the only texts without bars that make it with
bars between them. An acceptable one makes one step of its own parts, and takes from the others only
how many steps came before; any other one makes a rejection and changes no step. -/
theorem ofSpecs_each_alone (specs : List String) :
    ∃ parts : String → List String,
      (∀ spec texts, parts spec = texts ↔
        spec = "|".intercalate texts ∧ texts ≠ [] ∧ ∀ text ∈ texts, '|' ∉ text.toList) ∧
      let part := fun (spec : String) (k : Nat) => (parts spec).getD k ""
      let sized := fun spec : String => 2 ≤ spec.toList.count '|' ∧ spec.toList.count '|' ≤ 5
      let acceptable := fun spec : String =>
        decide (sized spec ∧ ∀ text ∈ (parts spec).take 3, text ≠ "")
      let id := fun n : Nat =>
        "TC-CUSTOM-" ++ String.ofList (List.replicate (3 - n.repr.length) '0') ++ n.repr
      ((ofSpecs specs).steps = (specs.filter acceptable).mapIdx fun n spec =>
        { id := id (n + 1)
          description := if part spec 5 = "" then part spec 0 else part spec 5
          action := .ofLabel (part spec 0)
          kind := .ofLabel (part spec 1)
          locator := part spec 2
          data := part spec 3
          expected := part spec 4 }) ∧
      ((ofSpecs specs).rejections = (specs.filter fun spec => !acceptable spec).map fun spec =>
        { spec
          fault :=
            if sized spec then
              .missingFields ((if part spec 0 = "" then [.action] else []) ++
                (if part spec 1 = "" then [.kind] else []) ++
                if part spec 2 = "" then [.locator] else [])
            else .malformedSpec spec }) ∧
      (∀ others : List String, others.filter acceptable = specs.filter acceptable →
        (ofSpecs others).steps = (ofSpecs specs).steps) ∧
      ∀ more : List String, (ofSpecs (specs ++ more)).steps =
        (ofSpecs specs).steps ++ (ofSpecs more).steps.mapIdx fun n step =>
          { step with id := id ((ofSpecs specs).steps.length + n + 1) } := by
  refine ⟨Spec.parts, fun spec texts => Spec.parts_eq_iff, ?_⟩
  intro part sized acceptable id
  have acceptable_eq : acceptable = fun spec => decide (Spec.Acceptable spec) :=
    funext fun spec => decide_eq_decide.2 Spec.acceptable_iff.symm
  have id_eq : id = Step.customId := funext fun n => (Step.customId_eq n).symm
  rw [acceptable_eq, id_eq]
  refine ⟨steps_ofSpecs specs, ?_, ?_, steps_ofSpecs_append specs⟩
  · rw [(accounts_ofSpecs specs).rejections]
    simp only [Spec.fault, Spec.missing_draft_eq, decide_not]
    rfl
  · intro others same
    rw [steps_ofSpecs, steps_ofSpecs, same]

/-- Among the specs one has no locator, and one has no kind. -/
def mixed : List String :=
  ["Click|CSS|.a", "Click|CSS", "Type||#b|text", "Drag|URL|/c|||to the end"]

theorem mixed_each_alone :
    let steps : List Step :=
      [⟨"TC-CUSTOM-001", "Click", .known .click, .known .css, ".a", "", ""⟩,
       ⟨"TC-CUSTOM-002", "to the end", .custom "Drag", .known .url, "/c", "", ""⟩]
    (ofSpecs mixed).steps = steps ∧
    (ofSpecs mixed).rejections =
      [⟨"Click|CSS", .malformedSpec "Click|CSS"⟩, ⟨"Type||#b|text", .missingFields [.kind]⟩] ∧
    (ofSpecs ["Click|CSS|.a", "Drag|URL|/c|||to the end"]).steps = steps := by
  obtain ⟨parts, cut, steps, rejections, unchanged, _⟩ := ofSpecs_each_alone mixed
  have click : parts "Click|CSS|.a" = ["Click", "CSS", ".a"] := (cut _ _).2 (by decide)
  have short : parts "Click|CSS" = ["Click", "CSS"] := (cut _ _).2 (by decide)
  have unkind : parts "Type||#b|text" = ["Type", "", "#b", "text"] := (cut _ _).2 (by decide)
  have drag : parts "Drag|URL|/c|||to the end" = ["Drag", "URL", "/c", "", "", "to the end"] :=
    (cut _ _).2 (by decide)
  intro built
  -- the parts are known, so simp decides which specs are kept
  have steps_eq : (ofSpecs mixed).steps = built := by
    rw [steps]
    simp [mixed, click, short, unkind, drag, built]
    decide
  refine ⟨steps_eq, ?_, (unchanged _ ?_).trans steps_eq⟩
  · rw [rejections]
    simp [mixed, click, short, unkind, drag]
  · simp [mixed, click, short, unkind, drag]

end Batch

end TestScript
