import TestScript.Json.Reader

namespace TestScript.Json

/-- A reader that waits for a value, to be put into the first of the frames. -/
def Reader.Awaits (r : Reader) (frames : List Frame) : Prop :=
  r = ⟨frames, .value⟩ ∨ ∃ outer, frames = .array [] :: outer ∧ r = ⟨outer, .firstItem⟩

theorem Reader.Awaits.step? {r : Reader} {frames : List Frame} (h : r.Awaits frames) {token : Token}
    (ht : token ≠ .closeArray) : r.step? token = Reader.start? frames token := by
  rcases h with rfl | ⟨outer, rfl, rfl⟩
  · rfl
  · exact if_neg ht

mutual

theorem Reader.foldlM_tokens (v : Json) {r : Reader} {frames : List Frame} (h : r.Awaits frames) :
    v.tokens.foldlM Reader.step? r = some ⟨frames, .after v⟩ := by
  match v with
  | .null => simp [tokens, h.step?, Reader.start?]
  | .bool _ => simp [tokens, h.step?, Reader.start?]
  | .number _ => simp [tokens, h.step?, Reader.start?]
  | .string _ => simp [tokens, h.step?, Reader.start?]
  | .array [] => simp [tokens, h.step?, Reader.start?]
  | .array (v :: items) =>
    have first := Reader.foldlM_tokens v (.inr ⟨frames, rfl, rfl⟩)
    have rest := Reader.foldlM_itemTokens items frames [] v
    simp [tokens, h.step?, Reader.start?, first] at rest ⊢
    exact rest
  | .object [] => simp [tokens, h.step?, Reader.start?]
  | .object ((k, v) :: members) =>
    have first := Reader.foldlM_tokens v (r := ⟨.object [] k :: frames, .value⟩) (.inl rfl)
    have rest := Reader.foldlM_memberTokens members frames [] k v
    simp [tokens, h.step?, Reader.start?, Reader.key?, first] at rest ⊢
    exact rest

theorem Reader.foldlM_itemTokens (items : List Json) (frames : List Frame) (done : List Json)
    (v : Json) :
    (itemTokens items ++ [Token.closeArray]).foldlM Reader.step? ⟨.array done :: frames, .after v⟩ =
      some ⟨frames, .after (.array (done.reverse ++ v :: items))⟩ := by
  match items with
  | [] => simp [itemTokens, Reader.close?]
  | w :: items =>
    have first := Reader.foldlM_tokens w (r := ⟨.array (v :: done) :: frames, .value⟩) (.inl rfl)
    have rest := Reader.foldlM_itemTokens items frames (v :: done) w
    simp [itemTokens, Reader.close?, first] at rest ⊢
    exact rest

theorem Reader.foldlM_memberTokens (members : List (Option String × Json)) (frames : List Frame)
    (done : List (Option String × Json)) (k : Option String) (v : Json) :
    (memberTokens members ++ [Token.closeObject]).foldlM Reader.step?
        ⟨.object done k :: frames, .after v⟩ =
      some ⟨frames, .after (.object (done.reverse ++ (k, v) :: members))⟩ := by
  match members with
  | [] => simp [memberTokens, Reader.close?]
  | (l, w) :: members =>
    have first := Reader.foldlM_tokens w (r := ⟨.object ((k, v) :: done) l :: frames, .value⟩) (.inl rfl)
    have rest := Reader.foldlM_memberTokens members frames ((k, v) :: done) l w
    simp [memberTokens, Reader.close?, Reader.key?, first] at rest ⊢
    exact rest

end

theorem ofTokens?_tokens (v : Json) : ofTokens? v.tokens = some v := by
  simp [ofTokens?, Reader.foldlM_tokens v (r := {}) (.inl rfl), Reader.finish?]

end TestScript.Json
