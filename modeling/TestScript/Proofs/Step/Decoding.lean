import Mathlib.Data.List.Forall2
import TestScript.Proofs.Json.Accepting
import TestScript.Proofs.Step.RoundTrip

namespace TestScript

theorem mapM_eq_some_iff {α β : Type} {f : α → Option β} {xs : List α} {ys : List β} :
    xs.mapM f = some ys ↔ List.Forall₂ (fun x y => f x = some y) xs ys := by
  induction xs generalizing ys with
  | nil => simp [eq_comm]
  | cons x xs ih =>
    simp [List.forall₂_cons_left_iff, Option.bind_eq_some_iff, ih, @eq_comm _ ys]

theorem exists_of_mapM_eq_some {α β : Type} {f : α → Option β} {xs : List α} {ys : List β}
    (h : xs.mapM f = some ys) {x : α} (hx : x ∈ xs) : ∃ y, f x = some y := by
  have all := mapM_eq_some_iff.1 h
  clear h
  induction all with
  | nil => cases hx
  | cons first _ ih =>
    rcases List.mem_cons.1 hx with rfl | hx
    · exact ⟨_, first⟩
    · exact ih hx

namespace Json

/-- A member of an object as it is when its key is a text. -/
def named (member : String × Json) : Option String × Json := (some member.1, member.2)

/-- The members are the known ones, in any order, and others that have none of their keys. -/
def Includes (members known : List (String × Json)) : Prop :=
  ∃ others, members.Perm (known ++ others) ∧ ∀ member ∈ others, member.1 ∉ known.map Prod.fst

theorem includes_nil (members : List (String × Json)) : Includes members [] :=
  ⟨members, .refl _, fun _ _ => List.not_mem_nil⟩

theorem filter_eq_nil_of_not_mem {key : String} {members : List (String × Json)}
    (h : key ∉ members.map Prod.fst) : members.filter (·.1 == key) = [] := by
  rw [List.filter_eq_nil_iff]
  intro member hm same
  exact h (eq_of_beq same ▸ List.mem_map_of_mem hm)

/-- A key is known besides others if it is there once. -/
theorem includes_cons_iff {key : String} {v : Json} {members known : List (String × Json)}
    (fresh : key ∉ known.map Prod.fst) :
    Includes members ((key, v) :: known) ↔
      members.filter (·.1 == key) = [(key, v)] ∧ Includes members known := by
  constructor
  · rintro ⟨others, perm, foreign⟩
    have absent : key ∉ (known ++ others).map Prod.fst := by
      rw [List.map_append, List.mem_append, not_or]
      refine ⟨fresh, fun here => ?_⟩
      obtain ⟨member, hm, rfl⟩ := List.mem_map.1 here
      exact foreign member hm (List.mem_cons_self ..)
    constructor
    · have found := perm.filter (·.1 == key)
      simp only [List.cons_append, List.filter_cons, beq_self_eq_true, ↓reduceIte,
        filter_eq_nil_of_not_mem absent] at found
      exact List.perm_singleton.1 found
    · refine ⟨(key, v) :: others, perm.trans List.perm_middle.symm, ?_⟩
      refine List.forall_mem_cons.2 ⟨fresh, fun member hm here => ?_⟩
      exact foreign member hm (List.mem_cons_of_mem _ here)
  · rintro ⟨found, others, perm, foreign⟩
    have among := perm.filter (·.1 == key)
    rw [List.filter_append, filter_eq_nil_of_not_mem fresh, List.nil_append, found] at among
    have parted := List.filter_append_perm (fun member : String × Json => member.1 == key) others
    have apart : others.Perm ((key, v) :: others.filter fun member => !(member.1 == key)) :=
      parted.symm.trans (.append_right _ among.symm)
    refine ⟨_, (perm.trans (.append_left _ apart)).trans List.perm_middle, ?_⟩
    intro member hm
    obtain ⟨mem, other⟩ := List.mem_filter.1 hm
    rw [List.map_cons, List.mem_cons, not_or]
    exact ⟨by simpa using other, foreign member mem⟩

theorem mapM_text?_eq_some_iff {items : List Json} {texts : List String} :
    items.mapM text? = some texts ↔ items = texts.map ofText := by
  rw [mapM_eq_some_iff, ← List.forall₂_eq_eq_eq, List.forall₂_map_right_iff]
  simp only [text?_eq_some_iff]

theorem textAt?_named_eq_some_iff {members : List (String × Json)} {key text : String} :
    textAt? (members.map named) key = some text ↔
      members.filter (·.1 == key) = [(key, ofText text)] := by
  have inj : Function.Injective named := by
    rintro ⟨key, v⟩ ⟨other, w⟩ same
    simpa [named] using same
  have kept : (members.map named).filter (·.1 == some key) =
      (members.filter (·.1 == key)).map named := List.filter_map ..
  rw [textAt?_eq_some_iff, kept]
  exact (List.map_injective_iff.2 inj).eq_iff (b := [(key, ofText text)])

/-- All keys have their texts just if each has one member, in any order and among others. -/
theorem mapM_textAt?_eq_some_iff {keys : List String} (nodup : keys.Nodup)
    {members : List (String × Json)} {texts : List String} :
    keys.mapM (textAt? (members.map named)) = some texts ↔
      texts.length = keys.length ∧ Includes members (keys.zip (texts.map ofText)) := by
  rw [mapM_eq_some_iff]
  induction keys generalizing texts with
  | nil => simp [includes_nil]
  | cons key keys ih =>
    obtain ⟨fresh, nodup⟩ := List.nodup_cons.1 nodup
    cases texts with
    | nil => simp
    | cons text texts =>
      have fresh : key ∉ (keys.zip (texts.map ofText)).map Prod.fst := by
        intro here
        obtain ⟨member, hm, rfl⟩ := List.mem_map.1 here
        exact fresh (List.of_mem_zip hm).1
      rw [List.forall₂_cons, ih nodup, textAt?_named_eq_some_iff, List.map_cons, List.zip_cons_cons,
        includes_cons_iff fresh, List.length_cons, List.length_cons, Nat.add_right_cancel_iff]
      exact and_left_comm

end Json

namespace Step

theorem ofTexts?_eq_some_iff {texts : List String} {s : Step} :
    ofTexts? texts = some s ↔ s.Canonical ∧ texts = s.texts := by
  constructor
  · intro h
    refine ⟨canonical_of_ofTexts? h, ?_⟩
    unfold ofTexts? at h
    split at h
    · rw [← Option.some.inj h]
      simp [Step.texts]
    · cases h
  · rintro ⟨canonical, rfl⟩
    exact ofTexts?_texts canonical

theorem ofJson?_array_eq_some_iff {items : List Json} {s : Step} :
    ofJson? (.array items) = some s ↔ s.Canonical ∧ items = s.texts.map .ofText := by
  simp only [ofJson?, Option.bind_eq_some_iff, Json.mapM_text?_eq_some_iff, ofTexts?_eq_some_iff]
  constructor
  · rintro ⟨texts, items, canonical, rfl⟩
    exact ⟨canonical, items⟩
  · rintro ⟨canonical, items⟩
    exact ⟨s.texts, items, canonical, rfl⟩

theorem nodup_keys : keys.Nodup := by decide

theorem ofJson?_named_eq_some_iff {members : List (String × Json)} {s : Step} :
    ofJson? (.object (members.map Json.named)) = some s ↔
      s.Canonical ∧ Json.Includes members (keys.zip (s.texts.map .ofText)) := by
  have texts : (members.map Json.named).all (·.1.isSome) = true := by simp [Json.named]
  simp only [ofJson?, texts, ↓reduceIte, Option.bind_eq_some_iff,
    Json.mapM_textAt?_eq_some_iff nodup_keys, ofTexts?_eq_some_iff]
  constructor
  · rintro ⟨texts, ⟨_, included⟩, canonical, rfl⟩
    exact ⟨canonical, included⟩
  · rintro ⟨canonical, included⟩
    exact ⟨s.texts, ⟨rfl, included⟩, canonical, rfl⟩

theorem exists_named_of_ofJson? {members : List (Option String × Json)} {s : Step}
    (h : ofJson? (.object members) = some s) :
    ∃ texts : List (String × Json), members = texts.map Json.named := by
  have isText : ∀ member ∈ members, member.1.isSome := by
    by_contra no
    simp only [ofJson?, List.all_eq_true, no, ↓reduceIte, reduceCtorEq] at h
  refine ⟨members.map fun member => (member.1.getD "", member.2), ?_⟩
  have back : ∀ member ∈ members, Json.named (member.1.getD "", member.2) = member := by
    intro member hm
    obtain ⟨key, hk⟩ := Option.isSome_iff_exists.1 (isText member hm)
    exact Prod.ext (by simp [Json.named, hk]) rfl
  calc
    members = members.map fun member => member := (List.map_id' members).symm
    _ = members.map fun member => Json.named (member.1.getD "", member.2) :=
      List.map_congr_left fun member hm => (back member hm).symm
    _ = _ := by
      rw [List.map_map]
      rfl

theorem filter_key_of_ofJson? {members : List (Option String × Json)} {s : Step}
    (h : ofJson? (.object members) = some s) {key : String} (hk : key ∈ keys) :
    ∃ text, members.filter (·.1 == some key) = [(some key, .ofText text)] := by
  simp only [ofJson?] at h
  split_ifs at h
  obtain ⟨texts, found, _⟩ := Option.bind_eq_some_iff.1 h
  obtain ⟨text, ht⟩ := exists_of_mapM_eq_some found hk
  exact ⟨text, Json.textAt?_eq_some_iff.1 ht⟩

theorem parse?_eq_some_iff {text : String} {s : Step} :
    parse? text = some s ↔ s.Canonical ∧
      (Json.IsTextOf text (.array (s.texts.map .ofText)) ∨
        ∃ members : List (String × Json), Json.Includes members (keys.zip (s.texts.map .ofText)) ∧
          Json.IsTextOf text (.object (members.map Json.named))) := by
  constructor
  · intro h
    obtain ⟨v, read, hs⟩ := Option.bind_eq_some_iff.1 h
    have isText := Json.parse?_eq_some_iff.1 read
    cases v with
    | array items =>
      obtain ⟨canonical, rfl⟩ := ofJson?_array_eq_some_iff.1 hs
      exact ⟨canonical, .inl isText⟩
    | object members =>
      obtain ⟨named, rfl⟩ := exists_named_of_ofJson? hs
      obtain ⟨canonical, included⟩ := ofJson?_named_eq_some_iff.1 hs
      exact ⟨canonical, .inr ⟨named, included, isText⟩⟩
    | null | bool _ | number _ | string _ => cases hs
  · rintro ⟨canonical, isText | ⟨members, included, isText⟩⟩
    · exact (parse?_of_isTextOf isText).trans (ofJson?_array_eq_some_iff.2 ⟨canonical, rfl⟩)
    · exact (parse?_of_isTextOf isText).trans (ofJson?_named_eq_some_iff.2 ⟨canonical, included⟩)

/-- The seven texts are read as one step from every layout of every object that has each of them
once under its key, from every layout of their array, and from no other text. A key that is left
out, one that is there twice, one without a text and an array of another length are refused. -/
theorem parse?_any_layout (id description action kind locator data expected : String) :
    let keys := ["testId", "description", "action", "locatorKind", "locator", "testData",
      "expectedResult"]
    let texts := [id, description, action, kind, locator, data, expected]
    let step : Step := ⟨id, description, .ofLabel action, .ofLabel kind, locator, data, expected⟩
    (∀ text, parse? text = some step ↔
      Json.IsTextOf text (.array (texts.map .ofText)) ∨
      ∃ members : List (String × Json), Json.Includes members (keys.zip (texts.map .ofText)) ∧
        Json.IsTextOf text (.object (members.map Json.named))) ∧
    (∀ text members, Json.IsTextOf text (.object members) →
      (∃ key ∈ keys, members.countP (·.1 == some key) ≠ 1 ∨
        ∃ v, (some key, v) ∈ members ∧ ∀ words, v ≠ .ofText words) →
      parse? text = none) ∧
    ∀ text items, Json.IsTextOf text (.array items) →
      (items.length ≠ keys.length ∨ ∃ v ∈ items, ∀ words, v ≠ .ofText words) →
      parse? text = none := by
  intro keys texts step
  have canonical : step.Canonical := ⟨Action.canonical_ofLabel _, LocatorKind.canonical_ofLabel _⟩
  have same : step.texts = texts := by simp [Step.texts, step, texts]
  refine ⟨?_, ?_, ?_⟩
  · intro text
    rw [parse?_eq_some_iff, same]
    exact and_iff_right canonical
  · rintro text members isText ⟨key, hk, wrong⟩
    rw [parse?_of_isTextOf isText, Option.eq_none_iff_forall_ne_some]
    intro s hs
    obtain ⟨words, found⟩ := filter_key_of_ofJson? hs hk
    rcases wrong with count | ⟨v, hv, noText⟩
    · apply count
      rw [List.countP_eq_length_filter, found]
      rfl
    · have among : (some key, v) ∈ members.filter (·.1 == some key) := by simp [hv]
      rw [found, List.mem_singleton] at among
      exact noText words (Prod.mk.inj among).2
  · rintro text items isText wrong
    rw [parse?_of_isTextOf isText, Option.eq_none_iff_forall_ne_some]
    intro s hs
    obtain ⟨_, rfl⟩ := ofJson?_array_eq_some_iff.1 hs
    rcases wrong with count | ⟨v, hv, noText⟩
    · exact count rfl
    · obtain ⟨words, _, rfl⟩ := List.mem_map.1 hv
      exact noText words rfl

/-- A step that is not in its order, with something else among its texts. -/
def scattered : String :=
  "\t\x7b \"note\": [\x7b\"action\": [-1e9, \"\\ud800\"]\x7d, null],\r
    \"locator\" : \"\\/go\", \"\\u0061ction\":\"Cl\\u0069ck\", \"testId\": \"T\\t1\",
    \"expectedResult\":\"\\uD83d\\ude00\", \"testData\":\"\", \"locatorKind\": \"CSS\" ,
    \"description\":\"Go\"\x7d\n"

def scatteredMembers : List (String × Json) :=
  [("note", .array [.object [(some "action", .array [.number "-1e9", .string none])], .null]),
   ("locator", .ofText "/go"), ("action", .ofText "Click"), ("testId", .ofText "T\t1"),
   ("expectedResult", .ofText "😀"), ("testData", .ofText ""), ("locatorKind", .ofText "CSS"),
   ("description", .ofText "Go")]

def scatteredTexts : List String := ["T\t1", "Go", "Click", "CSS", "/go", "", "😀"]

set_option maxRecDepth 1024 in
/-- What stands under another key is passed over, even an action or half of a pair. -/
theorem parse?_scattered :
    Json.Includes scatteredMembers (keys.zip (scatteredTexts.map .ofText)) ∧
    Json.IsTextOf scattered (.object (scatteredMembers.map Json.named)) ∧
    parse? scattered = some ⟨"T\t1", "Go", .known .click, .known .css, "/go", "", "😀"⟩ := by
  obtain ⟨read, _⟩ := parse?_any_layout "T\t1" "Go" "Click" "CSS" "/go" "" "😀"
  have included : Json.Includes scatteredMembers (keys.zip (scatteredTexts.map .ofText)) :=
    ((Json.mapM_textAt?_eq_some_iff nodup_keys).1 (by decide)).2
  have isText : Json.IsTextOf scattered (.object (scatteredMembers.map Json.named)) := by
    have chars : scattered.toList = _ := String.toList_ofList
    rw [Json.IsTextOf, chars]
    exact Json.layout_of_lex? (by decide +kernel)
  exact ⟨included, isText, (read _).2 (.inr ⟨_, included, isText⟩)⟩

end Step

end TestScript
