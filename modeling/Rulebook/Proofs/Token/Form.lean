import Rulebook.Proofs.Token.Lexer

namespace Rulebook

def IsNumber (text : List Char) : Prop :=
  Digits text ∨ ∃ whole fraction, Digits whole ∧ Digits fraction ∧ text = whole ++ '.' :: fraction

def IsWord (text : List Char) : Prop :=
  ∃ first rest, text = first :: rest ∧ (first.isAlpha = true ∨ first = '_') ∧
    ∀ c ∈ rest, c.isAlphanum = true ∨ c = '_'

structure Longest (kind : List Char → Prop) (found text : List Char) : Prop where
  of_kind : kind found
  begins : found <+: text
  longest : ∀ other, kind other → other <+: text → other.length ≤ found.length

theorem prefix_takeWhile {p : Char → Bool} {other text : List Char}
    (within : ∀ c ∈ other, p c = true) (begins : other <+: text) : other <+: text.takeWhile p := by
  obtain ⟨rest, rfl⟩ := begins
  rw [List.takeWhile_append_of_pos within]
  exact List.prefix_append _ _

namespace Scan

def punctuation : List (Char × Token.Kind) :=
  [('(', .leftParen), (')', .rightParen), ('[', .leftBracket), (']', .rightBracket), ('.', .dot)]

inductive Form where
  | double | single | number | quoted | word | other

def Form.inOrder : List Form := [.double, .single, .number, .quoted, .word, .other]

/-- A text begins with a token in a form. A quoted text runs to the next quote of either kind, which
has to be the opening one; in the last form a token is any single character. -/
inductive Begins : Form → List Char → Scan → Prop where
  | double {sign : OperatorSign} {c next : Char} {rest : List Char}
      (symbol : sign.symbol.toList = [c, next]) :
      Begins .double (c :: next :: rest) (plain (.operator sign) [c, next])
  | sign {sign : OperatorSign} {c : Char} {rest : List Char} (symbol : sign.symbol.toList = [c]) :
      Begins .single (c :: rest) (plain (.operator sign) [c])
  | mark {kind : Token.Kind} {c : Char} {rest : List Char} (known : (c, kind) ∈ punctuation) :
      Begins .single (c :: rest) (plain kind [c])
  | number {text found : List Char} (longest : Longest IsNumber found text) :
      Begins .number text (plain .number found)
  | quoted {quote : Char} {content rest : List Char} (quotes : quote = '"' ∨ quote = '\'')
      (unquoted : ∀ c ∈ content, c ≠ '"' ∧ c ≠ '\'') :
      Begins .quoted (quote :: (content ++ quote :: rest))
        ⟨.text, content, quote :: content ++ [quote]⟩
  | boolean {text found : List Char} (longest : Longest IsWord found text)
      (known : found = ['t', 'r', 'u', 'e'] ∨ found = ['f', 'a', 'l', 's', 'e']) :
      Begins .word text (plain .boolean found)
  | name {text found : List Char} (longest : Longest IsWord found text)
      (not_true : found ≠ ['t', 'r', 'u', 'e']) (not_false : found ≠ ['f', 'a', 'l', 's', 'e']) :
      Begins .word text (plain .identifier found)
  | other {c : Char} {rest : List Char} : Begins .other (c :: rest) (plain .invalid [c])

inductive First : List Form → List Char → Scan → Prop where
  | here {form : Form} {forms : List Form} {text : List Char} {scan : Scan}
      (begins : Begins form text scan) : First (form :: forms) text scan
  | later {form : Form} {forms : List Form} {text : List Char} {scan : Scan}
      (absent : ∀ other, ¬ Begins form text other) (first : First forms text scan) :
      First (form :: forms) text scan

theorem double?_eq_some {c next : Char} {sign : OperatorSign} :
    double? c next = some sign ↔ sign.symbol.toList = [c, next] := by
  constructor
  · intro known
    unfold double? at known
    split at known <;> cases known <;> rfl
  · intro symbol
    cases sign <;> cases symbol <;> rfl

theorem simple?_eq_some {c : Char} {kind : Token.Kind} :
    simple? c = some kind ↔
      (∃ sign : OperatorSign, kind = .operator sign ∧ sign.symbol.toList = [c]) ∨
        (c, kind) ∈ punctuation := by
  constructor
  · intro known
    unfold simple? at known
    split at known <;> cases known <;> simp [punctuation, OperatorSign.symbol]
  · rintro (⟨sign, rfl, symbol⟩ | known)
    · cases sign <;> cases symbol <;> rfl
    · simp only [punctuation, List.mem_cons, Prod.mk.injEq, List.not_mem_nil, or_false] at known
      rcases known with ⟨rfl, rfl⟩ | ⟨rfl, rfl⟩ | ⟨rfl, rfl⟩ | ⟨rfl, rfl⟩ | ⟨rfl, rfl⟩ <;> rfl

theorem no_double {c : Char} {rest : List Char}
    (apart : ∀ next ∈ rest.head?, double? c next = none) (other : Scan) :
    ¬ Begins .double (c :: rest) other := by
  intro begins
  cases begins with
  | double symbol =>
      have known := apart _ rfl
      rw [double?_eq_some.mpr symbol] at known
      contradiction

theorem no_single {c : Char} (unknown : simple? c = none) (rest : List Char) (other : Scan) :
    ¬ Begins .single (c :: rest) other := by
  intro begins
  have known : ∃ kind, simple? c = some kind := by
    cases begins with
    | sign symbol => exact ⟨_, simple?_eq_some.mpr (.inl ⟨_, rfl, symbol⟩)⟩
    | mark punctuation => exact ⟨_, simple?_eq_some.mpr (.inr punctuation)⟩
  obtain ⟨kind, known⟩ := known
  rw [unknown] at known
  contradiction

theorem begins_simple {c : Char} {kind : Token.Kind} (known : simple? c = some kind)
    (rest : List Char) : Begins .single (c :: rest) (plain kind [c]) := by
  rcases simple?_eq_some.mp known with ⟨sign, rfl, symbol⟩ | punctuation
  · exact .sign symbol
  · exact .mark punctuation

theorem isDigit_of_isNumber {c : Char} {text found : List Char} (number : IsNumber found)
    (begins : found <+: c :: text) : c.isDigit = true := by
  have head : ∀ digits : List Char, Digits digits → ∀ rest, digits ++ rest <+: c :: text →
      c.isDigit = true := by
    intro digits written rest within
    cases digits with
    | nil => exact absurd rfl written.1
    | cons first others =>
        obtain rfl := (List.cons_prefix_cons.mp within).1
        exact written.2 first List.mem_cons_self
  rcases number with written | ⟨whole, fraction, written, -, rfl⟩
  · exact head found written [] (by rwa [List.append_nil])
  · exact head whole written _ begins

theorem no_number {c : Char} (no_digit : c.isDigit = false) (rest : List Char) (other : Scan) :
    ¬ Begins .number (c :: rest) other := by
  intro begins
  cases begins with
  | number longest =>
      rw [isDigit_of_isNumber longest.of_kind longest.begins] at no_digit
      contradiction

theorem no_quoted {c : Char} (no_quote : isQuote c = false) (rest : List Char) (other : Scan) :
    ¬ Begins .quoted (c :: rest) other := by
  intro begins
  cases begins with
  | quoted quotes =>
      rw [isQuote_iff.mpr quotes] at no_quote
      contradiction

theorem isNameStart_of_isWord {c : Char} {text found : List Char} (word : IsWord found)
    (begins : found <+: c :: text) : isNameStart c = true := by
  obtain ⟨first, rest, rfl, starts, -⟩ := word
  obtain rfl := (List.cons_prefix_cons.mp begins).1
  exact isNameStart_iff.mpr starts

theorem no_word {c : Char} (no_start : isNameStart c = false) (rest : List Char) (other : Scan) :
    ¬ Begins .word (c :: rest) other := by
  intro begins
  cases begins with
  | boolean longest | name longest =>
      rw [isNameStart_of_isWord longest.of_kind longest.begins] at no_start
      contradiction

theorem isNamePart_of_isWord {text : List Char} (word : IsWord text) :
    ∀ c ∈ text, isNamePart c = true := by
  obtain ⟨first, rest, rfl, starts, parts⟩ := word
  intro c member
  rcases List.mem_cons.mp member with rfl | member
  · exact isNamePart_of_isNameStart (isNameStart_iff.mpr starts)
  · exact isNamePart_iff.mpr (parts c member)

theorem longest_word {c : Char} (starts : isNameStart c = true) (rest : List Char) :
    Longest IsWord ((c :: rest).takeWhile isNamePart) (c :: rest) where
  of_kind := by
    rw [List.takeWhile_cons_of_pos (isNamePart_of_isNameStart starts)]
    refine ⟨c, _, rfl, isNameStart_iff.mp starts, ?_⟩
    exact fun part member => isNamePart_iff.mp (List.mem_takeWhile_imp member)
  begins := List.takeWhile_prefix _
  longest := fun _ word begins =>
    (prefix_takeWhile (isNamePart_of_isWord word) begins).length_le

theorem begins_word {c : Char} (starts : isNameStart c = true) (rest : List Char) :
    Begins .word (c :: rest) (word (c :: rest)) := by
  have longest := longest_word starts rest
  rw [word]
  split
  · rename_i known
    exact .boolean longest (by simpa using known)
  · rename_i unknown
    simp only [Bool.or_eq_true, decide_eq_true_eq, not_or] at unknown
    exact .name longest unknown.1 unknown.2

/-- Behind the digits that a text begins with, a number can only go on with a fraction. -/
theorem number_parts {text other : List Char} (number : IsNumber other) (begins : other <+: text) :
    other <+: text.takeWhile Char.isDigit ∨
      ∃ fraction after, Digits fraction ∧
        text.dropWhile Char.isDigit = '.' :: (fraction ++ after) ∧
        other = text.takeWhile Char.isDigit ++ '.' :: fraction := by
  rcases number with written | ⟨whole, fraction, written, fractional, rfl⟩
  · exact .inl (prefix_takeWhile written.2 begins)
  · obtain ⟨after, rfl⟩ := begins
    have stops : ∀ c ∈ ('.' :: fraction ++ after).head?, c.isDigit = false := by simp
    refine .inr ⟨fraction, after, fractional, ?_, ?_⟩
    · rw [List.append_assoc, dropWhile_append_stop written.2 stops]
      rfl
    · rw [List.append_assoc, takeWhile_append_stop written.2 stops]

theorem digits_takeWhile {c : Char} (digit : c.isDigit = true) (rest : List Char) :
    Digits ((c :: rest).takeWhile Char.isDigit) := by
  refine ⟨?_, fun c member => List.mem_takeWhile_imp member⟩
  rw [List.takeWhile_cons_of_pos digit]
  exact List.cons_ne_nil _ _

theorem longest_whole {text : List Char} (whole : Digits (text.takeWhile Char.isDigit))
    (no_fraction : ∀ fraction after, Digits fraction →
      text.dropWhile Char.isDigit ≠ '.' :: (fraction ++ after)) :
    Longest IsNumber (text.takeWhile Char.isDigit) text where
  of_kind := .inl whole
  begins := List.takeWhile_prefix _
  longest := by
    intro other number begins
    rcases number_parts number begins with within | ⟨fraction, after, written, split, -⟩
    · exact within.length_le
    · exact absurd split (no_fraction fraction after written)

theorem longest_decimal {text fraction : List Char} (whole : Digits (text.takeWhile Char.isDigit))
    (pointed : text.dropWhile Char.isDigit = '.' :: fraction)
    (fractional : Digits (fraction.takeWhile Char.isDigit)) :
    Longest IsNumber (text.takeWhile Char.isDigit ++ '.' :: fraction.takeWhile Char.isDigit)
      text where
  of_kind := .inr ⟨_, _, whole, fractional, rfl⟩
  begins := by
    have parted : text.takeWhile Char.isDigit ++ '.' :: fraction = text := by
      rw [← pointed, List.takeWhile_append_dropWhile]
    conv_rhs => rw [← parted]
    rw [List.prefix_append_right_inj, List.cons_prefix_cons]
    exact ⟨rfl, List.takeWhile_prefix _⟩
  longest := by
    intro other number begins
    rcases number_parts number begins with within | ⟨longer, after, written, split, rfl⟩
    · rw [List.length_append]
      exact Nat.le_add_right_of_le within.length_le
    · rw [split, List.cons.injEq] at pointed
      have within : longer <+: fraction.takeWhile Char.isDigit :=
        prefix_takeWhile written.2 (pointed.2 ▸ List.prefix_append _ _)
      simp only [List.length_append, List.length_cons]
      exact Nat.add_le_add_left (Nat.succ_le_succ within.length_le) _

theorem begins_number {c : Char} (digit : c.isDigit = true) (rest : List Char) :
    Begins .number (c :: rest) (number (c :: rest)) := by
  have whole := digits_takeWhile digit rest
  simp only [number, spanDigits]
  split
  · rename_i fraction pointed
    split
    · rename_i empty
      refine .number (longest_whole whole ?_)
      intro digits after written split
      rw [split, List.cons.injEq] at pointed
      rw [← pointed.2, List.takeWhile_append_of_pos written.2] at empty
      exact written.1 (List.append_eq_nil_iff.mp (List.isEmpty_iff.mp empty)).1
    · rename_i fractional
      refine .number (longest_decimal whole pointed ⟨?_, ?_⟩)
      · exact fun empty => fractional (List.isEmpty_iff.mpr empty)
      · exact fun c member => List.mem_takeWhile_imp member
  · rename_i no_point
    exact .number (longest_whole whole fun fraction after _ split => no_point _ split)

theorem quoted?_spec {quote : Char} (quotes : isQuote quote = true) (rest : List Char) :
    match quoted? quote rest with
    | some scan => Begins .quoted (quote :: rest) scan
    | none => ∀ other, ¬ Begins .quoted (quote :: rest) other := by
  have no_quote : ∀ c : Char, isQuote c = false ↔ c ≠ '"' ∧ c ≠ '\'' := by simp [isQuote]
  have parted : rest.takeWhile (fun c => !isQuote c) ++ rest.dropWhile (fun c => !isQuote c) =
      rest :=
    List.takeWhile_append_dropWhile
  cases scanned : quoted? quote rest with
  | some scan =>
      simp only [quoted?] at scanned
      split at scanned
      · rename_i close after found
        split at scanned
        · rename_i same
          subst same
          cases scanned
          have begins := @Begins.quoted close (rest.takeWhile fun c => !isQuote c) after
            (isQuote_iff.mp quotes) ?_
          · rwa [← found, parted] at begins
          · intro c member
            have unquoted := List.mem_takeWhile_imp member
            exact (no_quote c).mp (by simpa using unquoted)
        · cases scanned
      · cases scanned
  | none =>
      intro other begins
      cases begins with
      | @quoted _ content after _ unquoted =>
          have within : ∀ c ∈ content, (!isQuote c) = true := by
            intro c member
            rw [(no_quote c).mpr (unquoted c member)]
            rfl
          have stops : ∀ c ∈ (quote :: after).head?, (!isQuote c) = false := by simpa using quotes
          simp [quoted?, takeWhile_append_stop within stops, dropWhile_append_stop within stops]
            at scanned

theorem first_word_or_other (c : Char) (rest : List Char) :
    First [.word, .other] (c :: rest)
      (if isNameStart c then word (c :: rest) else plain .invalid [c]) := by
  cases starts : isNameStart c with
  | false => exact .later (no_word starts rest) (.here .other)
  | true => exact .here (begins_word starts rest)

/-- The token at the head of a text is the one in the first form that the text begins with. -/
theorem first_head (c : Char) (rest : List Char) :
    First Form.inOrder (c :: rest) (head c rest) := by
  by_cases double : ∃ next further sign, rest = next :: further ∧ double? c next = some sign
  · obtain ⟨next, further, sign, rfl, known⟩ := double
    rw [head_double known]
    exact .here (.double (double?_eq_some.mp known))
  have apart : ∀ next ∈ rest.head?, double? c next = none := by
    intro next first
    cases rest with
    | nil => contradiction
    | cons second further =>
        cases first
        exact Option.eq_none_iff_forall_ne_some.mpr fun sign known =>
          double ⟨next, further, sign, rfl, known⟩
  rw [head_eq_single apart, single]
  refine .later (no_double apart) ?_
  cases known : simple? c with
  | some kind => exact .here (begins_simple known rest)
  | none =>
      refine .later (no_single known rest) ?_
      dsimp only
      cases digit : c.isDigit with
      | true => exact .here (begins_number digit rest)
      | false =>
          refine .later (no_number digit rest) ?_
          cases quotes : isQuote c with
          | false => exact .later (no_quoted quotes rest) (first_word_or_other c rest)
          | true =>
              have spec := quoted?_spec quotes rest
              cases scanned : quoted? c rest with
              | some scan =>
                  rw [scanned] at spec
                  exact .here spec
              | none =>
                  rw [scanned] at spec
                  have starts : isNameStart c = false := by
                    rw [Bool.eq_false_iff]
                    intro starts
                    rw [isQuote_of_isNameStart starts] at quotes
                    contradiction
                  exact .later spec (.later (no_word starts rest) (.here .other))

end Scan
end Rulebook
