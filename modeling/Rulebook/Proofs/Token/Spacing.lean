import Rulebook.Proofs.Token.Lexer

namespace Rulebook

theorem toNat_of_isBlank {c : Char} (blank : isBlank c = true) :
    c.toNat ≤ 0x20 ∨ 0x7f ≤ c.toNat := by
  by_contra visible
  rw [isBlank_eq_false (by omega) (by omega)] at blank
  contradiction

theorem isDigit_of_isBlank {c : Char} (blank : isBlank c = true) : c.isDigit = false := by
  rw [Bool.eq_false_iff]
  intro digit
  have inside := toNat_of_isDigit digit
  have outside := toNat_of_isBlank blank
  omega

theorem isNamePart_of_isBlank {c : Char} (blank : isBlank c = true) :
    Scan.isNamePart c = false := by
  rw [Bool.eq_false_iff]
  intro part
  rcases Scan.isNamePart_iff.mp part with letter_or_digit | rfl
  · rcases Bool.or_eq_true_iff.mp letter_or_digit with letter | digit
    · have inside := toNat_of_isAlpha letter
      have outside := toNat_of_isBlank blank
      omega
    · rw [isDigit_of_isBlank blank] at digit
      contradiction
  · contradiction

theorem ne_of_isBlank {c mark : Char} (blank : isBlank c = true) (visible : isBlank mark = false) :
    c ≠ mark := by
  rintro rfl
  rw [visible] at blank
  contradiction

theorem forall_head?_gap {p : Char → Prop} {gap further rest : List Char} {word : String}
    (blanks : ∀ c, isBlank c = true → p c) (blank : ∀ c ∈ gap, isBlank c = true)
    (nonempty : word ≠ "") (first : ∀ c ∈ word.toList.head?, p c) :
    ∀ c ∈ (gap ++ (word.toList ++ further) ++ rest).head?, p c := by
  rw [List.append_assoc]
  refine forall_head?_append (fun c head => blanks c (blank c (List.mem_of_mem_head? head))) ?_
  cases written : word.toList with
  | nil => exact absurd (String.toList_eq_nil_iff.mp written) nonempty
  | cons initial later =>
      rw [written] at first
      exact first

namespace Token

/-- A text that consists of words in order, with blanks before, between and behind them, or none. -/
inductive Spaced : List String → List Char → Prop where
  | done {gap : List Char} (blank : ∀ c ∈ gap, isBlank c = true) : Spaced [] gap
  | word {gap further : List Char} {word : String} {words : List String}
      (blank : ∀ c ∈ gap, isBlank c = true) (more : Spaced words further) :
      Spaced (word :: words) (gap ++ (word.toList ++ further))

namespace Spaced

variable {words others : List String} {text rest : List Char}

theorem cons (word : String) (more : Spaced words text) :
    Spaced (word :: words) (word.toList ++ text) :=
  @Spaced.word [] text word words nofun more

theorem indent {c : Char} (spaced : Spaced words text) (blank : isBlank c = true) :
    Spaced words (c :: text) := by
  cases spaced with
  | done gap => exact .done (List.forall_mem_cons.mpr ⟨blank, gap⟩)
  | word gap more => exact .word (List.forall_mem_cons.mpr ⟨blank, gap⟩) more

theorem plain (words : List String) : Spaced words (words.flatMap String.toList) := by
  induction words with
  | nil => exact .done nofun
  | cons word words ih => exact ih.cons word

theorem split (spaced : Spaced (words ++ others) text) :
    ∃ front back, text = front ++ back ∧ Spaced words front ∧ Spaced others back := by
  induction words generalizing text with
  | nil => exact ⟨[], text, rfl, .done nofun, spaced⟩
  | cons word words ih =>
      cases spaced with
      | @word gap further _ _ blank more =>
          obtain ⟨front, back, rfl, first, second⟩ := ih more
          exact ⟨gap ++ (word.toList ++ front), back, by simp, .word blank first, second⟩

theorem forall_head? {p : Char → Prop} (spaced : Spaced words text)
    (blanks : ∀ c, isBlank c = true → p c)
    (first : ∀ word ∈ words.head?, word ≠ "" ∧ ∀ c ∈ word.toList.head?, p c)
    (behind : words = [] → ∀ c ∈ rest.head?, p c) : ∀ c ∈ (text ++ rest).head?, p c := by
  cases spaced with
  | done blank =>
      refine forall_head?_append (fun c head => ?_) (behind rfl)
      exact blanks c (blank c (List.mem_of_mem_head? head))
  | word blank more =>
      obtain ⟨nonempty, head⟩ := first _ rfl
      exact forall_head?_gap blanks blank nonempty head

theorem apart (spaced : Spaced words text)
    (first : ∀ word ∈ words.head?, word ≠ "" ∧ Apart word.toList)
    (behind : words = [] → Apart rest) : Apart (text ++ rest) := by
  refine spaced.forall_head? ?_ first behind
  exact fun c blank => ⟨isNamePart_of_isBlank blank, ne_of_isBlank blank rfl⟩

end Spaced

namespace Cuts

variable {gap word further rest : List Char} {kind : Token.Kind} {lexeme : String}
  {reads : List Token → Prop}

theorem blanks (blank : ∀ c ∈ gap, isBlank c = true) (rest : List Char) :
    Cuts gap rest fun tokens => tokens = [] := by
  induction gap with
  | nil => exact Cuts.nil rfl
  | cons c gap ih =>
      have first := Cuts.blank (blank c List.mem_cons_self) (gap ++ rest)
      have further := ih fun other member => blank other (List.mem_cons_of_mem c member)
      refine first.append (further.mono ?_)
      rintro _ rfl _ rfl
      rfl

theorem mark {mark : String} {c : Char} (written : mark.toList = [c]) (visible : isBlank c = false)
    (known : Scan.simple? c = some kind) (counts : kind ≠ .invalid ∧ kind ≠ .ending)
    (stops : ∀ next ∈ rest.head?, next ≠ '=') : Cuts mark.toList rest (One kind mark) := by
  have lexeme : mark = String.ofList [c] := by rw [← written, String.ofList_toList]
  rw [lexeme, String.toList_ofList]
  exact simple visible known counts stops

theorem spaced (blank : ∀ c ∈ gap, isBlank c = true)
    (single : Cuts word (further ++ rest) (One kind lexeme)) (more : Cuts further rest reads) :
    Cuts (gap ++ (word ++ further)) rest fun tokens => ∃ token later,
      tokens = token :: later ∧ token.kind = kind ∧ token.lexeme = lexeme ∧ reads later := by
  refine (Cuts.blanks blank _).append (single.append (more.mono ?_))
  rintro later read _ ⟨token, rfl, at_kind, at_lexeme⟩ _ rfl
  exact ⟨token, later, rfl, at_kind, at_lexeme, read⟩

end Cuts

end Token
end Rulebook
