import Mathlib.Data.List.Basic
import Mathlib.Data.List.TakeWhile
import Rulebook.Text

namespace Rulebook

theorem takeWhile_append_stop {p : Char → Bool} {text rest : List Char}
    (within : ∀ c ∈ text, p c = true) (stops : ∀ c ∈ rest.head?, p c = false) :
    (text ++ rest).takeWhile p = text := by
  rw [List.takeWhile_append_of_pos within]
  cases rest with
  | nil => rw [List.takeWhile_nil, List.append_nil]
  | cons c rest => rw [List.takeWhile_cons, stops c rfl, if_neg Bool.false_ne_true, List.append_nil]

theorem dropWhile_append_stop {p : Char → Bool} {text rest : List Char}
    (within : ∀ c ∈ text, p c = true) (stops : ∀ c ∈ rest.head?, p c = false) :
    (text ++ rest).dropWhile p = rest := by
  rw [List.dropWhile_append_of_pos within]
  cases rest with
  | nil => rfl
  | cons c rest => rw [List.dropWhile_cons, stops c rfl, if_neg Bool.false_ne_true]

theorem forall_head?_append {p : Char → Prop} {text rest : List Char}
    (first : ∀ c ∈ text.head?, p c) (behind : ∀ c ∈ rest.head?, p c) :
    ∀ c ∈ (text ++ rest).head?, p c := by
  cases text with
  | nil => exact behind
  | cons c text => exact first

theorem isBlank_eq_false {c : Char} (above : 0x20 < c.toNat) (below : c.toNat < 0x7f) :
    isBlank c = false := by
  simp only [isBlank, blankRanges, List.any_cons, List.any_nil, Bool.or_false, Bool.or_eq_false_iff,
    Bool.and_eq_false_iff, decide_eq_false_iff_not]
  omega

theorem toNat_of_isAlpha {c : Char} (letter : c.isAlpha = true) :
    0x41 ≤ c.toNat ∧ c.toNat ≤ 0x7a := by
  rcases Bool.or_eq_true_iff.mp letter with upper | lower
  · have range : 'A'.val ≤ c.val ∧ c.val ≤ 'Z'.val := of_decide_eq_true upper
    exact ⟨range.1, Nat.le_trans range.2 (by decide)⟩
  · have range : (decide ('a'.val ≤ c.val) && decide (c.val ≤ 'z'.val)) = true := lower
    simp only [Bool.and_eq_true, decide_eq_true_eq] at range
    exact ⟨Nat.le_trans (by decide) range.1, range.2⟩

theorem toNat_of_isDigit {c : Char} (digit : c.isDigit = true) :
    0x30 ≤ c.toNat ∧ c.toNat ≤ 0x39 :=
  Char.isDigit_iff_toNat.mp digit

theorem head_ne_equal_of_digits {digits : List Char} (within : ∀ c ∈ digits, c.isDigit = true) :
    ∀ c ∈ digits.head?, c ≠ '=' := by
  intro c first same
  have digit := within c (List.mem_of_mem_head? first)
  rw [same] at digit
  contradiction

theorem digitsValue_toDigits (number : Nat) : digitsValue (Nat.toDigits 10 number) = number := by
  have read : Nat.ofDigitChars 10 (Nat.toDigits 10 number) 0 = number :=
    Nat.ofDigitChars_ten_toDigits
  rw [Nat.ofDigitChars_eq_foldl] at read
  simpa only [digitsValue, Nat.mul_comm] using read

theorem spanSign_digits {digits : List Char} (within : ∀ c ∈ digits, c.isDigit = true) :
    spanSign digits = (false, digits) := by
  cases digits with
  | nil => rfl
  | cons c rest =>
      have digit := within c List.mem_cons_self
      unfold spanSign
      split <;> simp_all

def Digits (text : List Char) : Prop := text ≠ [] ∧ ∀ c ∈ text, c.isDigit = true

theorem digits_toDigits (number : Nat) : Digits (Nat.toDigits 10 number) :=
  ⟨Nat.toDigits_ne_nil, fun _ member => Nat.isDigit_of_mem_toDigits (by decide) (by decide) member⟩

theorem isDigit_replicate {digit : Char} (is_digit : digit.isDigit = true) (count : Nat) :
    ∀ c ∈ List.replicate count digit, c.isDigit = true := by
  intro c member
  rwa [List.eq_of_mem_replicate member]

theorem Digits.append {front back : List Char} (digits : Digits front)
    (more : ∀ c ∈ back, c.isDigit = true) : Digits (front ++ back) := by
  refine ⟨List.append_ne_nil_of_left_ne_nil digits.1 back, ?_⟩
  intro c member
  rcases List.mem_append.mp member with first | second
  · exact digits.2 c first
  · exact more c second

theorem readNat?_eq_some {text : List Char} {number : Nat} :
    readNat? text = some number ↔ Digits text ∧ digitsValue text = number := by
  simp [readNat?, Digits]

inductive Numeral : List Char → Int → Prop where
  | unsigned {digits : List Char} (written : Digits digits) : Numeral digits (digitsValue digits)
  | plus {digits : List Char} (written : Digits digits) :
      Numeral ('+' :: digits) (digitsValue digits)
  | minus {digits : List Char} (written : Digits digits) :
      Numeral ('-' :: digits) (-(digitsValue digits : Int))

theorem readInt?_eq (text : List Char) :
    readInt? text = (readNat? (spanSign text).2).map fun value : Nat =>
      if (spanSign text).1 then -(value : Int) else value := by
  rw [readInt?]
  rcases spanSign text with ⟨negative, digits⟩
  dsimp only
  cases readNat? digits <;> rfl

theorem readInt?_eq_some {text : List Char} {number : Int} :
    readInt? text = some number ↔ Numeral text number := by
  rw [readInt?_eq]
  constructor
  · intro read
    obtain ⟨value, digits, rfl⟩ := Option.map_eq_some_iff.mp read
    obtain ⟨written, rfl⟩ := readNat?_eq_some.mp digits
    unfold spanSign at written ⊢
    split at written
    · exact .minus written
    · exact .plus written
    · exact .unsigned written
  · intro numeral
    cases numeral with
    | unsigned written =>
        rw [spanSign_digits written.2, readNat?_eq_some.mpr ⟨written, rfl⟩]
        rfl
    | plus written | minus written =>
        simp only [spanSign, readNat?_eq_some.mpr ⟨written, rfl⟩]
        rfl

theorem Numeral.visible {text : List Char} {number : Int} (numeral : Numeral text number) :
    ∀ c ∈ text, isBlank c = false := by
  have digit : ∀ c : Char, c.isDigit = true → isBlank c = false := by
    intro c digit
    have bounds := toNat_of_isDigit digit
    exact isBlank_eq_false (by omega) (by omega)
  intro c member
  cases numeral with
  | unsigned written => exact digit c (written.2 c member)
  | plus written | minus written =>
      rcases List.mem_cons.mp member with rfl | member
      · rfl
      · exact digit c (written.2 c member)

theorem exists_trimBlank (text : List Char) : ∃ before after,
    text = before ++ trimBlank text ++ after ∧
      (∀ c ∈ before, isBlank c = true) ∧ ∀ c ∈ after, isBlank c = true := by
  let rest := text.dropWhile isBlank
  refine ⟨text.takeWhile isBlank, (rest.reverse.takeWhile isBlank).reverse, ?_, ?_, ?_⟩
  · calc text
      _ = text.takeWhile isBlank ++ rest.reverse.reverse := by
        rw [List.reverse_reverse, List.takeWhile_append_dropWhile]
      _ = text.takeWhile isBlank ++
          (rest.reverse.takeWhile isBlank ++ rest.reverse.dropWhile isBlank).reverse := by
        rw [List.takeWhile_append_dropWhile]
      _ = text.takeWhile isBlank ++ trimBlank text ++ (rest.reverse.takeWhile isBlank).reverse := by
        rw [List.reverse_append, ← List.append_assoc, trimBlank]
  · exact fun c member => List.mem_takeWhile_imp member
  · exact fun c member => List.mem_takeWhile_imp (List.mem_reverse.mp member)

theorem trimBlank_append {before core after : List Char} (front : ∀ c ∈ before, isBlank c = true)
    (visible : ∀ c ∈ core, isBlank c = false) (back : ∀ c ∈ after, isBlank c = true) :
    trimBlank (before ++ core ++ after) = core := by
  cases core with
  | nil =>
      have blank : ∀ c ∈ before ++ after, isBlank c = true := by
        intro c member
        exact (List.mem_append.mp member).elim (front c) (back c)
      rw [List.append_nil, trimBlank, List.dropWhile_eq_nil_iff.mpr blank]
      rfl
  | cons first rest =>
      have stops : ∀ c ∈ (first :: rest ++ after).head?, isBlank c = false := by
        intro c head
        cases head
        exact visible _ List.mem_cons_self
      have ends : ∀ c ∈ (first :: rest).reverse.head?, isBlank c = false := fun c head =>
        visible c (List.mem_reverse.mp (List.mem_of_mem_head? head))
      have behind : ∀ c ∈ after.reverse, isBlank c = true := fun c member =>
        back c (List.mem_reverse.mp member)
      rw [trimBlank, List.append_assoc, dropWhile_append_stop front stops, List.reverse_append,
        dropWhile_append_stop behind ends, List.reverse_reverse]

/-- A text reads as a number without the blanks around it just if it is a numeral with blanks
around it. -/
theorem readInt?_trimBlank {text : List Char} {number : Int} :
    readInt? (trimBlank text) = some number ↔ ∃ before numeral after,
      text = before ++ numeral ++ after ∧ (∀ c ∈ before, isBlank c = true) ∧
        (∀ c ∈ after, isBlank c = true) ∧ Numeral numeral number := by
  rw [readInt?_eq_some]
  constructor
  · intro numeral
    obtain ⟨before, after, parted, front, back⟩ := exists_trimBlank text
    exact ⟨before, trimBlank text, after, parted, front, back, numeral⟩
  · rintro ⟨before, core, after, rfl, front, back, numeral⟩
    rwa [trimBlank_append front numeral.visible back]

theorem piecesAt_eq_splitOn (mark : Char) (text : List Char) :
    piecesAt mark text = text.splitOn mark := by
  induction text with
  | nil => rfl
  | cons c rest ih =>
      rw [piecesAt, List.splitOn_cons_eq_if_modifyHead, ih]
      cases split : rest.splitOn mark with
      | nil => exact absurd split (List.splitOn_ne_nil mark rest)
      | cons piece pieces => simp only [beq_iff_eq, List.modifyHead_cons]

theorem not_mem_piecesAt {mark : Char} {text piece : List Char}
    (member : piece ∈ piecesAt mark text) : mark ∉ piece := by
  induction text generalizing piece with
  | nil => simp_all [piecesAt]
  | cons c rest ih =>
      rw [piecesAt] at member
      split at member
      · rcases List.mem_cons.mp member with rfl | later
        · exact List.not_mem_nil
        · exact ih later
      · rename_i apart
        split at member
        · rename_i first pieces parted
          rw [parted] at ih
          rcases List.mem_cons.mp member with rfl | later
          · rw [List.mem_cons, not_or]
            exact ⟨Ne.symm apart, ih List.mem_cons_self⟩
          · exact ih (List.mem_cons_of_mem first later)
        · rw [List.mem_singleton.mp member, List.mem_singleton]
          exact Ne.symm apart

/-- The pieces of a text are those without a mark that make the text with marks between them. -/
theorem piecesAt_eq_iff {mark : Char} {text : List Char} {pieces : List (List Char)} :
    piecesAt mark text = pieces ↔
      pieces ≠ [] ∧ (∀ piece ∈ pieces, mark ∉ piece) ∧ text = [mark].intercalate pieces := by
  constructor
  · rintro rfl
    refine ⟨?_, fun piece member => not_mem_piecesAt member, ?_⟩
    · rw [piecesAt_eq_splitOn]
      exact List.splitOn_ne_nil mark text
    · rw [piecesAt_eq_splitOn, List.intercalate_splitOn]
  · rintro ⟨nonempty, unmarked, rfl⟩
    rw [piecesAt_eq_splitOn, List.splitOn_intercalate mark unmarked nonempty]

end Rulebook
