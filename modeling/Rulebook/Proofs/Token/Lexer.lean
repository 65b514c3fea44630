import Rulebook.Proofs.Text
import Rulebook.Token.Lexer

/-!
How a text is cut that is put together from pieces.

A piece is cut by itself where nothing that follows it makes its last token longer, and pieces that
are put together have their tokens put together. `Cuts` leaves open at which byte a piece stands, so
that what is read from its tokens does not depend on it.
-/

namespace Rulebook

theorem foldl_utf8Size (text : List Char) (bytes : Nat) :
    text.foldl (fun bytes c => bytes + c.utf8Size) bytes = bytes + byteLength text := by
  rw [byteLength]
  induction text generalizing bytes with
  | nil => rfl
  | cons c text ih =>
      rw [List.foldl_cons, List.foldl_cons, ih, ih (0 + c.utf8Size)]
      omega

theorem byteLength_append (text rest : List Char) :
    byteLength (text ++ rest) = byteLength text + byteLength rest := by
  rw [byteLength, List.foldl_append, foldl_utf8Size]
  rfl

namespace Scan

def marks : List Char :=
  ['+', '-', '*', '/', '%', '<', '>', '=', '!', '&', '|', '(', ')', '[', ']', '.']

theorem not_mem_marks {p : Char → Bool} {c : Char} (unmarked : ∀ mark ∈ marks, p mark = false)
    (held : p c = true) : c ∉ marks := by
  intro member
  rw [unmarked c member] at held
  contradiction

theorem simple?_eq_none {c : Char} (unmarked : c ∉ marks) : simple? c = none := by
  unfold simple?
  split <;> simp_all [marks]

theorem double?_eq_none {c next : Char} (unmarked : c ∉ marks) : double? c next = none := by
  unfold double?
  split <;> simp_all [marks]

theorem head_eq_single {c : Char} {rest : List Char}
    (apart : ∀ next ∈ rest.head?, double? c next = none) : head c rest = single c rest := by
  cases rest with
  | nil => rfl
  | cons next rest => rw [head, apart next rfl]

theorem head_unmarked {c : Char} (unmarked : c ∉ marks) (rest : List Char) :
    head c rest =
      if c.isDigit then number (c :: rest)
      else if isQuote c then (quoted? c rest).getD (plain .invalid [c])
      else if isNameStart c then word (c :: rest)
      else plain .invalid [c] := by
  rw [head_eq_single fun next _ => double?_eq_none unmarked, single, simple?_eq_none unmarked]

theorem isQuote_iff {c : Char} : isQuote c = true ↔ c = '"' ∨ c = '\'' := by
  simp [isQuote]

theorem isNameStart_iff {c : Char} : isNameStart c = true ↔ c.isAlpha = true ∨ c = '_' := by
  rw [isNameStart, Bool.or_eq_true, decide_eq_true_eq]

theorem isNamePart_iff {c : Char} : isNamePart c = true ↔ c.isAlphanum = true ∨ c = '_' := by
  rw [isNamePart, Bool.or_eq_true, decide_eq_true_eq]

theorem isNamePart_of_isNameStart {c : Char} (starts : isNameStart c = true) :
    isNamePart c = true := by
  rw [isNamePart_iff]
  rcases isNameStart_iff.mp starts with letter | underscore
  · exact .inl (by rw [Char.isAlphanum, letter, Bool.true_or])
  · exact .inr underscore

theorem toNat_of_isNameStart {c : Char} (starts : isNameStart c = true) :
    0x41 ≤ c.toNat ∧ c.toNat ≤ 0x7a := by
  rcases isNameStart_iff.mp starts with letter | rfl
  · exact toNat_of_isAlpha letter
  · decide

theorem isDigit_of_isNameStart {c : Char} (starts : isNameStart c = true) : c.isDigit = false := by
  rw [Bool.eq_false_iff]
  intro digit
  have low := (toNat_of_isDigit digit).2
  have high := (toNat_of_isNameStart starts).1
  omega

theorem isQuote_of_isNameStart {c : Char} (starts : isNameStart c = true) : isQuote c = false := by
  rw [Bool.eq_false_iff]
  intro quotes
  rcases isQuote_iff.mp quotes with rfl | rfl <;> contradiction

theorem word_append {text rest : List Char} (parts : ∀ c ∈ text, isNamePart c = true)
    (stops : ∀ c ∈ rest.head?, isNamePart c = false) :
    word (text ++ rest) =
      if text = ['t', 'r', 'u', 'e'] || text = ['f', 'a', 'l', 's', 'e'] then plain .boolean text
      else plain .identifier text := by
  rw [word, takeWhile_append_stop parts stops]

theorem head_word {c : Char} {text rest : List Char} (starts : isNameStart c = true)
    (parts : ∀ part ∈ c :: text, isNamePart part = true)
    (stops : ∀ next ∈ rest.head?, isNamePart next = false) :
    head c (text ++ rest) =
      if c :: text = ['t', 'r', 'u', 'e'] || c :: text = ['f', 'a', 'l', 's', 'e'] then
        plain .boolean (c :: text)
      else plain .identifier (c :: text) := by
  have unmarked : c ∉ marks := not_mem_marks (by simp [marks, isNameStart]) starts
  rw [head_unmarked unmarked, isDigit_of_isNameStart starts, isQuote_of_isNameStart starts, starts,
    ← List.cons_append, word_append parts stops]
  rfl

theorem number_append {digits rest : List Char} (within : ∀ c ∈ digits, c.isDigit = true)
    (stops : ∀ c ∈ rest.head?, c.isDigit = false ∧ c ≠ '.') :
    number (digits ++ rest) = plain .number digits := by
  have ends : ∀ c ∈ rest.head?, c.isDigit = false := fun c next => (stops c next).1
  rw [number, spanDigits, takeWhile_append_stop within ends, dropWhile_append_stop within ends]
  cases rest with
  | nil => rfl
  | cons c rest =>
      have no_point := (stops c rfl).2
      simp only
      split
      · rename_i same
        simp at same
        exact absurd same.1 no_point
      · rfl

theorem head_number {c : Char} {digits rest : List Char}
    (within : ∀ digit ∈ c :: digits, digit.isDigit = true)
    (stops : ∀ next ∈ rest.head?, next.isDigit = false ∧ next ≠ '.') :
    head c (digits ++ rest) = plain .number (c :: digits) := by
  have digit : c.isDigit = true := within c List.mem_cons_self
  have unmarked : c ∉ marks := not_mem_marks (by simp [marks]) digit
  rw [head_unmarked unmarked, if_pos digit, ← List.cons_append, number_append within stops]

theorem head_quoted {quote : Char} {content rest : List Char} (quotes : isQuote quote = true)
    (unquoted : ∀ c ∈ content, isQuote c = false) :
    head quote (content ++ quote :: rest) =
      ⟨.text, content, quote :: content ++ [quote]⟩ := by
  have unmarked : quote ∉ marks := not_mem_marks (by simp [marks, isQuote]) quotes
  have within : ∀ c ∈ content, (!isQuote c) = true := by simpa using unquoted
  have stops : ∀ c ∈ (quote :: rest).head?, (!isQuote c) = false := by simpa using quotes
  have no_digit : quote.isDigit = false := by
    rcases isQuote_iff.mp quotes with rfl | rfl <;> rfl
  rw [head_unmarked unmarked, no_digit, quotes, quoted?, takeWhile_append_stop within stops,
    dropWhile_append_stop within stops]
  simp

/-- Only `=` could make one of two characters of an operator of one. -/
theorem double?_of_simple? {c next : Char} {kind : Token.Kind} (simple : simple? c = some kind)
    (apart : next ≠ '=') : double? c next = none := by
  unfold double?
  split <;> simp_all [simple?]

theorem head_simple {c : Char} {kind : Token.Kind} {rest : List Char}
    (simple : simple? c = some kind) (stops : ∀ next ∈ rest.head?, next ≠ '=') :
    head c rest = plain kind [c] := by
  rw [head_eq_single fun next first => double?_of_simple? simple (stops next first), single, simple]

theorem head_double {c next : Char} {sign : OperatorSign} (double : double? c next = some sign)
    (rest : List Char) : head c (next :: rest) = plain (.operator sign) [c, next] := by
  rw [head, double]

theorem sign_cases (sign : OperatorSign) :
    (∃ c next, sign.symbol.toList = [c, next] ∧ isBlank c = false ∧ double? c next = some sign) ∨
      ∃ c, sign.symbol.toList = [c] ∧ isBlank c = false ∧
        simple? c = some (.operator sign) := by
  cases sign with
  | lessEqual | greaterEqual | equal | notEqual | and | or => exact .inl ⟨_, _, rfl, rfl, rfl⟩
  | _ => exact .inr ⟨_, rfl, rfl, rfl⟩

end Scan

/-- A name as expressions write it: letters, digits and underscores, of which the first is no digit.
The two boolean words are none. -/
structure IsName (id : String) : Prop where
  written : ∃ first rest, id.toList = first :: rest ∧ (first.isAlpha = true ∨ first = '_') ∧
    ∀ c ∈ rest, c.isAlphanum = true ∨ c = '_'
  not_true : id ≠ "true"
  not_false : id ≠ "false"

theorem isName_iff {id : String} :
    IsName id ↔ (id.toList.head?.any Scan.isNameStart && id.toList.tail.all Scan.isNamePart &&
      id ≠ "true" && id ≠ "false") = true := by
  simp only [Bool.and_eq_true, decide_eq_true_eq]
  constructor
  · intro named
    rcases named with ⟨⟨first, rest, written, starts, parts⟩, not_true, not_false⟩
    rw [written]
    refine ⟨⟨⟨Scan.isNameStart_iff.mpr starts, ?_⟩, not_true⟩, not_false⟩
    exact List.all_eq_true.mpr fun c member => Scan.isNamePart_iff.mpr (parts c member)
  · intro checked
    rcases checked with ⟨⟨⟨starts, parts⟩, not_true⟩, not_false⟩
    cases written : id.toList with
    | nil =>
        rw [written] at starts
        contradiction
    | cons first rest =>
        rw [written] at starts parts
        refine ⟨⟨first, rest, written, Scan.isNameStart_iff.mp starts, ?_⟩, not_true, not_false⟩
        exact fun c member => Scan.isNamePart_iff.mp (List.all_eq_true.mp parts c member)

instance (id : String) : Decidable (IsName id) := decidable_of_iff _ isName_iff.symm

theorem IsName.ne_empty {id : String} (named : IsName id) : id ≠ "" := by
  rintro rfl
  rcases named.written with ⟨first, rest, written, -⟩
  contradiction

theorem IsName.head_ne_equal {id : String} (named : IsName id) :
    ∀ c ∈ id.toList.head?, c ≠ '=' := by
  rcases named.written with ⟨first, others, written, starts, -⟩
  rw [written]
  intro c at_head same
  cases at_head
  subst same
  revert starts
  decide

namespace Token

def Counts (token : Token) : Prop := token.kind ≠ .invalid ∧ token.kind ≠ .ending

/-- Wherever a text stands with `rest` behind it, it is cut by itself, into tokens that count and of
which `reads` holds. -/
def Cuts (text rest : List Char) (reads : List Token → Prop) : Prop :=
  ∀ position, ∃ tokens, (∀ token ∈ tokens, token.Counts) ∧ reads tokens ∧
    scanFrom position (text ++ rest) = tokens ++ scanFrom (position + byteLength text) rest

def One (kind : Token.Kind) (lexeme : String) (tokens : List Token) : Prop :=
  ∃ token, tokens = [token] ∧ token.kind = kind ∧ token.lexeme = lexeme

def Apart (rest : List Char) : Prop :=
  ∀ next ∈ rest.head?, Scan.isNamePart next = false ∧ next ≠ '='

theorem apart_nil : Apart [] := by simp [Apart]

theorem Apart.no_part {rest : List Char} (apart : Apart rest) :
    ∀ next ∈ rest.head?, Scan.isNamePart next = false :=
  fun next first => (apart next first).1

theorem Apart.no_equal {rest : List Char} (apart : Apart rest) : ∀ next ∈ rest.head?, next ≠ '=' :=
  fun next first => (apart next first).2

namespace Cuts

variable {text further rest : List Char} {reads whole : List Token → Prop}

theorem mono (cuts : Cuts text rest reads) (weaker : ∀ tokens, reads tokens → whole tokens) :
    Cuts text rest whole := by
  intro position
  rcases cuts position with ⟨tokens, count, read, cut⟩
  exact ⟨tokens, count, weaker tokens read, cut⟩

theorem nil {rest : List Char} (read : reads []) : Cuts [] rest reads :=
  fun _ => ⟨[], by simp, read, rfl⟩

theorem append (first : Cuts text (further ++ rest) reads)
    (second : Cuts further rest fun others => ∀ tokens, reads tokens → whole (tokens ++ others)) :
    Cuts (text ++ further) rest whole := by
  intro position
  rcases first position with ⟨tokens, count, read, cut⟩
  rcases second (position + byteLength text) with ⟨others, countOthers, readOthers, cutOthers⟩
  refine ⟨tokens ++ others, ?_, readOthers tokens read, ?_⟩
  · intro token member
    rcases List.mem_append.mp member with earlier | later
    · exact count token earlier
    · exact countOthers token later
  · rw [List.append_assoc, cut, cutOthers, List.append_assoc, byteLength_append, Nat.add_assoc]

theorem blank {c : Char} (blank : isBlank c = true) (rest : List Char) :
    Cuts [c] rest fun tokens => tokens = [] := by
  intro position
  refine ⟨[], by simp, rfl, ?_⟩
  rw [List.singleton_append, scanFrom, if_pos blank, List.nil_append, byteLength,
    List.foldl_cons, List.foldl_nil, Nat.zero_add]

theorem token {c : Char} {lexeme : List Char} {kind : Token.Kind} (visible : isBlank c = false)
    (counts : kind ≠ .invalid ∧ kind ≠ .ending)
    (found : Scan.head c (text ++ rest) = ⟨kind, lexeme, c :: text⟩) :
    Cuts (c :: text) rest (One kind (String.ofList lexeme)) := by
  intro position
  refine ⟨[⟨kind, String.ofList lexeme, position⟩], ?_, ⟨_, rfl, rfl, rfl⟩, ?_⟩
  · intro token single
    rw [List.mem_singleton] at single
    subst single
    exact counts
  · rw [List.cons_append, scanFrom, visible, if_neg Bool.false_ne_true]
    simp only [found, List.length_cons, Nat.add_sub_cancel, List.drop_left, List.singleton_append]

theorem simple {c : Char} {kind : Token.Kind} (visible : isBlank c = false)
    (known : Scan.simple? c = some kind) (counts : kind ≠ .invalid ∧ kind ≠ .ending)
    (stops : ∀ next ∈ rest.head?, next ≠ '=') :
    Cuts [c] rest (One kind (String.ofList [c])) :=
  token visible counts (Scan.head_simple known stops)

theorem sign (sign : OperatorSign) (stops : ∀ next ∈ rest.head?, next ≠ '=') :
    Cuts sign.symbol.toList rest (One (.operator sign) sign.symbol) := by
  have lexeme : sign.symbol = String.ofList sign.symbol.toList := String.ofList_toList.symm
  rcases Scan.sign_cases sign with
    ⟨c, next, written, visible, double⟩ | ⟨c, written, visible, known⟩
  · rw [lexeme, written, String.toList_ofList]
    exact token visible (by simp) (Scan.head_double double rest)
  · rw [lexeme, written, String.toList_ofList]
    exact simple visible known (by simp) stops

theorem name {id : String} (named : IsName id) (apart : Apart rest) :
    Cuts id.toList rest (One .identifier id) := by
  rcases named.written with ⟨first, others, written, starts, parts⟩
  have lexeme : id = String.ofList (first :: others) := by
    rw [← written, String.ofList_toList]
  have within : ∀ c ∈ first :: others, Scan.isNamePart c = true := by
    intro c member
    rcases List.mem_cons.mp member with rfl | member
    · exact Scan.isNamePart_of_isNameStart (Scan.isNameStart_iff.mpr starts)
    · exact Scan.isNamePart_iff.mpr (parts c member)
  have no_true : first :: others ≠ ['t', 'r', 'u', 'e'] := by
    intro same
    exact named.not_true (lexeme.trans (congrArg String.ofList same))
  have no_false : first :: others ≠ ['f', 'a', 'l', 's', 'e'] := by
    intro same
    exact named.not_false (lexeme.trans (congrArg String.ofList same))
  have starts := Scan.isNameStart_iff.mpr starts
  have visible : isBlank first = false := by
    have bounds := Scan.toNat_of_isNameStart starts
    exact isBlank_eq_false (by omega) (by omega)
  rw [lexeme, String.toList_ofList]
  apply token visible (by simp)
  rw [Scan.head_word starts within apart.no_part, if_neg (by simp [no_true, no_false])]
  rfl

theorem boolean {word : String} (known : word = "true" ∨ word = "false") (apart : Apart rest) :
    Cuts word.toList rest (One .boolean word) := by
  rcases known with rfl | rfl
  · change Cuts ('t' :: ['r', 'u', 'e']) rest _
    exact token rfl (by simp) (Scan.head_word rfl (by simp [Scan.isNamePart]) apart.no_part)
  · change Cuts ('f' :: ['a', 'l', 's', 'e']) rest _
    exact token rfl (by simp) (Scan.head_word rfl (by simp [Scan.isNamePart]) apart.no_part)

theorem number {digits : String} (nonempty : digits ≠ "")
    (within : ∀ digit ∈ digits.toList, digit.isDigit = true)
    (stops : ∀ next ∈ rest.head?, next.isDigit = false ∧ next ≠ '.') :
    Cuts digits.toList rest (One .number digits) := by
  have lexeme : digits = String.ofList digits.toList := String.ofList_toList.symm
  cases written : digits.toList with
  | nil => exact absurd (String.toList_eq_nil_iff.mp written) nonempty
  | cons first others =>
      rw [written] at within lexeme
      have visible : isBlank first = false := by
        have bounds := toNat_of_isDigit (within first List.mem_cons_self)
        exact isBlank_eq_false (by omega) (by omega)
      rw [lexeme]
      exact token visible (by simp) (Scan.head_number within stops)

theorem quoted {quote : Char} {content : String} (quotes : Scan.isQuote quote = true)
    (unquoted : ∀ c ∈ content.toList, Scan.isQuote c = false) (rest : List Char) :
    Cuts (quote :: (content.toList ++ [quote])) rest (One .text content) := by
  have visible : isBlank quote = false := by
    rcases Scan.isQuote_iff.mp quotes with rfl | rfl <;> rfl
  have found : Scan.head quote (content.toList ++ [quote] ++ rest) =
      ⟨.text, content.toList, quote :: (content.toList ++ [quote])⟩ := by
    rw [List.append_assoc]
    exact Scan.head_quoted quotes unquoted
  have cuts := token visible (by simp) found
  rw [String.ofList_toList] at cuts
  exact cuts

theorem scan {text : String} (cuts : Cuts text.toList [] reads) :
    ∃ tokens, (∀ token ∈ tokens, token.Counts) ∧ reads tokens ∧
      Token.scan text = tokens ++ [.endingAt (byteLength text.toList)] := by
  rcases cuts 0 with ⟨tokens, count, read, cut⟩
  refine ⟨tokens, count, read, ?_⟩
  rw [List.append_nil, Nat.zero_add] at cut
  rw [Token.scan, cut, scanFrom]

end Cuts

end Token
end Rulebook
