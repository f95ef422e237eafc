import TestScript.Json.ReadBack
import TestScript.Proofs.Json.Tracing

/-!
The texts that are read as a value are the texts of that value, and no others. A reader keeps all it
has read: from its open arrays and objects the tokens can be told that have led to it.
-/

namespace TestScript.Json

/-- The tokens of items that each have a comma after them. -/
def itemsRead (items : List Json) : List Token :=
  items.flatMap fun v => v.tokens ++ [.comma]

/-- The tokens of members that each have a comma after them. -/
def membersRead (members : List (Option String × Json)) : List Token :=
  members.flatMap fun (key, v) => .string key :: .colon :: (v.tokens ++ [.comma])

def Frame.read : Frame → List Token
  | .array items => .openArray :: itemsRead items.reverse
  | .object members key =>
    .openObject :: (membersRead members.reverse ++ [.string key, .colon])

def Place.read : Place → List Token
  | .value => []
  | .firstItem => [.openArray]
  | .firstKey => [.openObject]
  | .nextKey members => .openObject :: membersRead members.reverse
  | .colon members key => .openObject :: (membersRead members.reverse ++ [.string key])
  | .after v => v.tokens

/-- The tokens that lead to a reader. -/
def Reader.read (r : Reader) : List Token :=
  r.frames.reverse.flatMap Frame.read ++ r.place.read

theorem itemTokens_concat (items : List Json) (v : Json) :
    itemTokens (items ++ [v]) = .comma :: (itemsRead items ++ v.tokens) := by
  induction items with
  | nil => simp [itemTokens, itemsRead]
  | cons w items ih => simp [itemTokens, itemsRead, ih]

theorem memberTokens_concat (members : List (Option String × Json)) (key : Option String)
    (v : Json) : memberTokens (members ++ [(key, v)]) =
      .comma :: (membersRead members ++ .string key :: .colon :: v.tokens) := by
  induction members with
  | nil => simp [memberTokens, membersRead]
  | cons member members ih =>
    obtain ⟨other, w⟩ := member
    simp [memberTokens, membersRead, ih]

theorem tokens_array_concat (items : List Json) (v : Json) :
    (array (items ++ [v])).tokens =
      .openArray :: (itemsRead items ++ v.tokens ++ [.closeArray]) := by
  cases items with
  | nil => simp [tokens, itemTokens, itemsRead]
  | cons w items => simp [tokens, itemTokens_concat, itemsRead]

theorem tokens_object_concat (members : List (Option String × Json)) (key : Option String)
    (v : Json) : (object (members ++ [(key, v)])).tokens =
      .openObject ::
        (membersRead members ++ .string key :: .colon :: v.tokens ++ [.closeObject]) := by
  cases members with
  | nil => simp [tokens, memberTokens, membersRead]
  | cons member members =>
    obtain ⟨other, w⟩ := member
    simp [tokens, memberTokens_concat, membersRead]

namespace Reader

theorem read_start? {frames : List Frame} {token : Token} {next : Reader}
    (h : start? frames token = some next) :
    next.read = frames.reverse.flatMap Frame.read ++ [token] := by
  cases token <;> cases h <;> simp [read, Place.read, tokens]

theorem read_key? {frames : List Frame} {members : List (Option String × Json)} {token : Token}
    {next : Reader} (h : key? frames members token = some next) :
    next.read = frames.reverse.flatMap Frame.read ++
      .openObject :: (membersRead members.reverse ++ [token]) := by
  cases token <;> cases h
  simp [read, Place.read]

theorem read_close? {value : Json} {frames : List Frame} {token : Token} {next : Reader}
    (h : close? value frames token = some next) :
    next.read = frames.reverse.flatMap Frame.read ++ value.tokens ++ [token] := by
  unfold close? at h
  -- in an array a comma or its end, then the same in an object
  split at h
  · cases h
    simp [read, Place.read, Frame.read, itemsRead]
  · cases h
    simp [read, Place.read, Frame.read, tokens_array_concat]
  · cases h
    simp [read, Place.read, Frame.read, membersRead]
  · cases h
    simp [read, Place.read, Frame.read, tokens_object_concat]
  · cases h

/-- A step adds its token to what has been read, and nothing is forgotten when a frame is closed. -/
theorem read_step? {r next : Reader} {token : Token} (h : r.step? token = some next) :
    next.read = r.read ++ [token] := by
  obtain ⟨frames, place⟩ := r
  cases place with
  | value => simpa [read, Place.read] using read_start? h
  | firstItem =>
    rw [step?_firstItem] at h
    split_ifs at h with close
    · cases h
      simp [read, Place.read, tokens, close]
    · simpa [read, Place.read, Frame.read, itemsRead] using read_start? h
  | firstKey =>
    rw [step?_firstKey] at h
    split_ifs at h with close
    · cases h
      simp [read, Place.read, tokens, close]
    · simpa [read, Place.read, membersRead] using read_key? h
  | nextKey members => simpa [read, Place.read] using read_key? h
  | colon members key =>
    rw [step?_colon] at h
    split_ifs at h with colon
    cases h
    simp [read, Place.read, Frame.read, colon]
  | after value => simpa [read, Place.read] using read_close? h

theorem read_foldlM {r last : Reader} {tokens : List Token}
    (h : tokens.foldlM Reader.step? r = some last) : last.read = r.read ++ tokens := by
  induction tokens generalizing r with
  | nil =>
    cases h
    simp
  | cons token tokens ih =>
    obtain ⟨next, step, rest⟩ := Option.bind_eq_some_iff.1 h
    simp [ih rest, read_step? step]

theorem read_finish? {r : Reader} {v : Json} (h : r.finish? = some v) : r.read = v.tokens := by
  unfold finish? at h
  split at h
  · next frames place =>
    cases h
    simp [read, frames, place, Place.read]
  · cases h

end Reader

theorem ofTokens?_eq_some_iff {tokens : List Token} {v : Json} :
    ofTokens? tokens = some v ↔ tokens = v.tokens := by
  constructor
  · intro h
    obtain ⟨last, run, finished⟩ := Option.bind_eq_some_iff.1 h
    calc
      tokens = ({} : Reader).read ++ tokens := rfl
      _ = last.read := (Reader.read_foldlM run).symm
      _ = v.tokens := Reader.read_finish? finished
  · rintro rfl
    exact ofTokens?_tokens v

/-- A text is read as a value just if it is one of its texts. -/
theorem parse?_eq_some_iff {text : String} {v : Json} :
    parse? text = some v ↔ IsTextOf text v := by
  constructor
  · intro h
    obtain ⟨tokens, lexed, read⟩ := Option.bind_eq_some_iff.1 h
    rw [IsTextOf, ← ofTokens?_eq_some_iff.1 read]
    exact layout_of_lex? lexed
  · exact parse?_of_isTextOf

end TestScript.Json
