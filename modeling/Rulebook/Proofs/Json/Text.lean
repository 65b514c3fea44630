import Rulebook.Json.Token

namespace Rulebook

namespace JsonToken

theorem hexUnit?_hexDigit : ∀ n < 0x20,
    hexUnit? '0' '0' (Json.hexDigit (n / 16)) (Json.hexDigit (n % 16)) = some n := by
  decide

section

variable (text : List Char)

theorem textUnits_letter {letter c : Char} (stands : escaped? letter = some c) :
    textUnits ('\\' :: letter :: text) =
      (textUnits text).map fun (units, after) => (c.toNat :: units, after) := by
  have short : letter ≠ 'u' := by
    rintro rfl
    contradiction
  rw [textUnits]
  · rw [stands]
    cases textUnits text <;> rfl
  · exact fun _ _ _ _ _ numbered _ => short numbered

theorem textUnits_numbered {a b c d : Char} {unit : Nat} (stands : hexUnit? a b c d = some unit) :
    textUnits ('\\' :: 'u' :: a :: b :: c :: d :: text) =
      (textUnits text).map fun (units, after) => (unit :: units, after) := by
  rw [textUnits, stands]
  cases textUnits text <;> rfl

theorem textUnits_plain {c : Char} (quote : c ≠ '"') (backslash : c ≠ '\\')
    (control : ¬ c.toNat < 0x20) :
    textUnits (c :: text) =
      (textUnits text).map fun (units, after) => (c.toNat :: units, after) := by
  rw [textUnits]
  · simp only [backslash, control, decide_false, Bool.or_self, Bool.false_eq_true, if_false]
    cases textUnits text <;> rfl
  all_goals simp_all

theorem textUnits_escape (c : Char) :
    textUnits (Json.escape c ++ text) =
      (textUnits text).map fun (units, after) => (c.toNat :: units, after) := by
  rw [Json.escape]
  split
  · subst c
    exact textUnits_letter text rfl
  rename_i quote
  split
  · subst c
    exact textUnits_letter text rfl
  rename_i backslash
  iterate 5
    split
    · subst c
      exact textUnits_letter text rfl
  split
  · rename_i control
    exact textUnits_numbered text (hexUnit?_hexDigit c.toNat control)
  · rename_i printed
    exact textUnits_plain text quote backslash printed

end

theorem textUnits_content (content : List Char) (rest : List Char) :
    textUnits (content.flatMap Json.escape ++ '"' :: rest) =
      some (content.map Char.toNat, rest) := by
  induction content with
  | nil => rfl
  | cons c others ih =>
      rw [List.flatMap_cons, List.append_assoc, textUnits_escape, ih, Option.map_some,
        List.map_cons]

theorem not_half (c : Char) : isHighHalf c.toNat = false ∧ isLowHalf c.toNat = false := by
  have valid : c.toNat < 0xd800 ∨ 0xdfff < c.toNat ∧ c.toNat < 0x110000 := c.valid
  simp only [isHighHalf, isLowHalf, Bool.and_eq_false_iff, decide_eq_false_iff_not]
  omega

theorem characters?_toNat (content : List Char) :
    characters? (content.map Char.toNat) = some content := by
  induction content with
  | nil => rfl
  | cons c others ih =>
      obtain ⟨high, low⟩ := not_half c
      rw [List.map_cons, characters?.eq_def]
      simp only [high, low, ih, Bool.false_eq_true, if_false, Option.map_some, Char.ofNat_toNat]

theorem scan_nonblank {c : Char} (rest : List Char) (nonblank : isJsonBlank c = false) :
    scan (c :: rest) = (head c rest).1 :: scan (head c rest).2 := by
  rw [scan, nonblank]
  exact if_neg Bool.false_ne_true

inductive Mark : Char → JsonToken → Prop where
  | openObject : Mark '\x7b' .openObject
  | closeObject : Mark '\x7d' .closeObject
  | openArray : Mark '[' .openArray
  | closeArray : Mark ']' .closeArray
  | colon : Mark ':' .colon
  | comma : Mark ',' .comma

variable (rest : List Char)

theorem scan_mark {c : Char} {token : JsonToken} (mark : Mark c token) :
    scan (c :: rest) = token :: scan rest := by
  cases mark <;> exact scan_nonblank rest rfl

theorem scan_renderText (content : String) :
    scan ((Json.renderText content).toList ++ rest) = .text (some content) :: scan rest := by
  have literal : (Json.renderText content).toList ++ rest =
      '"' :: (content.toList.flatMap Json.escape ++ '"' :: rest) := by
    simp [Json.renderText]
  have read : head '"' (content.toList.flatMap Json.escape ++ '"' :: rest) =
      (.text (some content), rest) := by
    simp only [head, textUnits_content, characters?_toNat, Option.map_some, String.ofList_toList]
  rw [literal, scan_nonblank _ rfl, read]

end JsonToken

namespace Json

def furtherItems (items : List Json) : List Char :=
  items.flatMap fun item => ',' :: item.render.toList

def furtherEntries (entries : List (String × Json)) : List Char :=
  entries.flatMap fun (key, value) =>
    ',' :: ((renderText key).toList ++ ':' :: value.render.toList)

theorem renderItems_cons (item : Json) (items : List Json) :
    (renderItems (item :: items)).toList = item.render.toList ++ furtherItems items := by
  induction items generalizing item with
  | nil => simp [renderItems, furtherItems]
  | cons next others ih =>
      rw [renderItems, String.toList_append, ih next]
      · simp [furtherItems]
      · nofun

theorem renderEntries_cons (key : String) (value : Json) (entries : List (String × Json)) :
    (renderEntries ((key, value) :: entries)).toList =
      (renderText key).toList ++ ':' :: (value.render.toList ++ furtherEntries entries) := by
  induction entries generalizing key value with
  | nil => simp [renderEntries, furtherEntries]
  | cons next others ih =>
      rw [renderEntries, String.toList_append, ih next.1 next.2]
      · simp [furtherEntries]
      · nofun

theorem scan_array (items : List Json) (after : List Char) :
    JsonToken.scan ((Json.array items).render.toList ++ after) =
      .openArray :: JsonToken.scan ((renderItems items).toList ++ ']' :: after) := by
  rw [← JsonToken.scan_mark _ .openArray]
  simp [render]

theorem scan_object (entries : List (String × Json)) (after : List Char) :
    JsonToken.scan ((Json.object entries).render.toList ++ after) =
      .openObject :: JsonToken.scan ((renderEntries entries).toList ++ '\x7d' :: after) := by
  rw [← JsonToken.scan_mark _ .openObject]
  simp [render]

end Json
end Rulebook
