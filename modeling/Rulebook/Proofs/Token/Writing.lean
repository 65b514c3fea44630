import Rulebook.Proofs.Token.Spacing
import Rulebook.Proofs.Token.Tiling

/-! How tokens are written, and cut again.

Written apart from each other, tokens are cut as they were: no token reaches over a blank, not in
search of a closing quote, of a fraction or of the second character of an operator. And every token
that is cut from a text and is not invalid can be written so. -/

namespace Rulebook

theorem Scan.number_decimal {whole fraction rest : List Char} (digits : Digits whole)
    (fractional : Digits fraction) (stops : ∀ c ∈ rest.head?, c.isDigit = false) :
    number (whole ++ '.' :: fraction ++ rest) = plain .number (whole ++ '.' :: fraction) := by
  have point : ∀ c ∈ ('.' :: (fraction ++ rest)).head?, c.isDigit = false := by simp
  rw [List.append_assoc, List.cons_append, number, spanDigits, takeWhile_append_stop digits.2 point,
    dropWhile_append_stop digits.2 point]
  simp only
  rw [takeWhile_append_stop fractional.2 stops, if_neg]
  simpa using fractional.1

namespace Token

variable {rest : List Char}

theorem Cuts.numeral {lexeme : String} (number : IsNumber lexeme.toList)
    (stops : ∀ next ∈ rest.head?, next.isDigit = false ∧ next ≠ '.') :
    Cuts lexeme.toList rest (One .number lexeme) := by
  rcases number with digits | ⟨whole, fraction, digits, fractional, written⟩
  · exact Cuts.number (fun empty => digits.1 (String.toList_eq_nil_iff.mpr empty)) digits.2 stops
  · have same : lexeme = String.ofList (whole ++ '.' :: fraction) := by
      rw [← written, String.ofList_toList]
    cases whole with
    | nil => exact absurd rfl digits.1
    | cons first others =>
        have digit : first.isDigit = true := digits.2 first List.mem_cons_self
        have visible : isBlank first = false := by
          have bounds := toNat_of_isDigit digit
          exact isBlank_eq_false (by omega) (by omega)
        rw [same, String.toList_ofList]
        apply Cuts.token visible (by simp)
        rw [Scan.head_unmarked (Scan.not_mem_marks (by simp [Scan.marks]) digit), if_pos digit]
        exact Scan.number_decimal digits fractional fun next first => (stops next first).1

inductive Written : Token.Kind → String → List Char → Prop where
  | sign (sign : OperatorSign) : Written (.operator sign) sign.symbol sign.symbol.toList
  | mark {kind : Token.Kind} {c : Char} (known : (c, kind) ∈ Scan.punctuation) :
      Written kind (String.ofList [c]) [c]
  | number {lexeme : String} (number : IsNumber lexeme.toList) :
      Written .number lexeme lexeme.toList
  | boolean {word : String} (known : word = "true" ∨ word = "false") :
      Written .boolean word word.toList
  | name {id : String} (named : IsName id) : Written .identifier id id.toList
  | text {quote : Char} {content : String} (quotes : quote = '"' ∨ quote = '\'')
      (unquoted : ∀ c ∈ content.toList, c ≠ '"' ∧ c ≠ '\'') :
      Written .text content (quote :: (content.toList ++ [quote]))

theorem isQuote_eq_false {content : List Char} (unquoted : ∀ c ∈ content, c ≠ '"' ∧ c ≠ '\'') :
    ∀ c ∈ content, Scan.isQuote c = false := by
  intro c member
  have apart := unquoted c member
  simp [Scan.isQuote, apart]

theorem Written.cuts {kind : Token.Kind} {lexeme : String} {source : List Char}
    (written : Written kind lexeme source) (apart : ∀ c ∈ rest.head?, isBlank c = true) :
    Cuts source rest (One kind lexeme) := by
  have no_equal : ∀ next ∈ rest.head?, next ≠ '=' :=
    fun next first => ne_of_isBlank (apart next first) rfl
  have no_part : Apart rest :=
    fun next first => ⟨isNamePart_of_isBlank (apart next first), no_equal next first⟩
  cases written with
  | sign sign => exact Cuts.sign sign no_equal
  | mark known =>
      exact Cuts.simple (Scan.visible_of_punctuation known)
        (Scan.simple?_eq_some.mpr (.inr known)) (Scan.kind_of_punctuation known).2 no_equal
  | number number =>
      apply Cuts.numeral number
      exact fun next first =>
        ⟨isDigit_of_isBlank (apart next first), ne_of_isBlank (apart next first) rfl⟩
  | boolean known => exact Cuts.boolean known no_part
  | name named => exact Cuts.name named no_part
  | text quotes unquoted =>
      exact Cuts.quoted (Scan.isQuote_iff.mpr quotes) (isQuote_eq_false unquoted) rest

/-- A text in which tokens, given by kind and lexeme, are written one after the other with blanks
between them. Before the first and behind the last one there can be blanks as well. -/
inductive Spread : List (Token.Kind × String) → List Char → Prop where
  | done {gap : List Char} (blank : ∀ c ∈ gap, isBlank c = true) : Spread [] gap
  | token {gap source rest : List Char} {kind : Token.Kind} {lexeme : String}
      {contents : List (Token.Kind × String)} (blank : ∀ c ∈ gap, isBlank c = true)
      (written : Written kind lexeme source) (apart : ∀ c ∈ rest.head?, isBlank c = true)
      (more : Spread contents rest) :
      Spread ((kind, lexeme) :: contents) (gap ++ (source ++ rest))

def content (token : Token) : Token.Kind × String := (token.kind, token.lexeme)

theorem Spread.cuts {contents : List (Token.Kind × String)} {text : List Char}
    (spread : Spread contents text) :
    Cuts text [] fun tokens => tokens.map content = contents := by
  induction spread with
  | done blank =>
      apply (Cuts.blanks blank []).mono
      intro tokens none
      rw [none, List.map_nil]
  | @token gap source rest kind lexeme contents blank written apart more ih =>
      have single : Cuts source (rest ++ []) (One kind lexeme) := by
        rw [List.append_nil]
        exact written.cuts apart
      apply (Cuts.spaced blank single ih).mono
      intro tokens read
      rcases read with ⟨token, later, rfl, at_kind, at_lexeme, same⟩
      rw [List.map_cons, same, content, at_kind, at_lexeme]

theorem Spread.indent {contents : List (Token.Kind × String)} {c : Char} {text : List Char}
    (spread : Spread contents text) (blank : isBlank c = true) : Spread contents (c :: text) := by
  cases spread with
  | done gap => exact .done (List.forall_mem_cons.mpr ⟨blank, gap⟩)
  | token gap written apart more =>
      exact .token (List.forall_mem_cons.mpr ⟨blank, gap⟩) written apart more

theorem exists_spread {contents : List (Token.Kind × String)}
    (written : ∀ content ∈ contents, ∃ source, Written content.1 content.2 source) :
    ∃ text, Spread contents text := by
  induction contents with
  | nil => exact ⟨[], .done nofun⟩
  | cons content contents ih =>
      rcases List.forall_mem_cons.mp written with ⟨⟨source, first⟩, others⟩
      rcases ih others with ⟨text, spread⟩
      have apart : ∀ c ∈ (' ' :: text).head?, isBlank c = true := by
        intro c first
        cases first
        rfl
      exact ⟨[] ++ (source ++ ' ' :: text), .token nofun first apart (spread.indent rfl)⟩

theorem Written.of_symbol {sign : OperatorSign} {lexeme : List Char}
    (symbol : sign.symbol.toList = lexeme) :
    Written (.operator sign) (String.ofList lexeme) lexeme := by
  rw [← symbol, String.ofList_toList]
  exact .sign sign

theorem Written.of_text {kind : Token.Kind} {lexeme : List Char}
    (written : Written kind (String.ofList lexeme) (String.ofList lexeme).toList) :
    Written kind (String.ofList lexeme) lexeme := by
  rwa [String.toList_ofList] at written

theorem written_of_begins {form : Scan.Form} {text : List Char} {scan : Scan}
    (begins : Scan.Begins form text scan) (valid : scan.kind ≠ .invalid) :
    Written scan.kind (String.ofList scan.lexeme) scan.source := by
  cases begins with
  | double symbol | sign symbol => exact .of_symbol symbol
  | mark known => exact .mark known
  | number longest =>
      apply Written.of_text
      apply Written.number
      rw [String.toList_ofList]
      exact longest.of_kind
  | @quoted quote content rest quotes unquoted =>
      have written := @Written.text quote (String.ofList content) quotes
        (by rwa [String.toList_ofList])
      rwa [String.toList_ofList] at written
  | boolean longest known =>
      apply Written.of_text
      apply Written.boolean
      rcases known with rfl | rfl
      · exact .inl rfl
      · exact .inr rfl
  | name longest not_true not_false =>
      apply Written.of_text
      apply Written.name
      refine ⟨?_, ?_, ?_⟩
      · rw [String.toList_ofList]
        exact longest.of_kind
      · intro same
        exact not_true (String.ofList_inj.mp same)
      · intro same
        exact not_false (String.ofList_inj.mp same)
  | other => exact absurd rfl valid

/-- Without the invalid ones, the tokens of a text can all be written, up to the ending. -/
theorem valid_scan (text : String) :
    ∃ body, ((scan text).filter fun token => token.kind ≠ .invalid) =
        body ++ [.endingAt text.utf8ByteSize] ∧
      ∀ token ∈ body, token.Counts ∧ ∃ source, Written token.kind token.lexeme source := by
  have tiles : Tiles [] text.toList (scan text) := Tiles.scanFrom [] text.toList
  rcases tiles.body with ⟨body, scanned, placed⟩
  refine ⟨body.filter fun token => token.kind ≠ .invalid, ?_, ?_⟩
  · rw [scanned, List.filter_append, List.nil_append, byteLength_toList]
    rfl
  · intro token member
    rw [List.mem_filter, decide_eq_true_eq] at member
    rcases member with ⟨member, valid⟩
    rcases placed token member with ⟨no_ending, before, source, after, -, stands⟩
    rcases stands.first.begins with ⟨form, begins⟩
    have written := written_of_begins begins valid
    rw [String.ofList_toList] at written
    exact ⟨⟨valid, no_ending⟩, source, written⟩

end Token
end Rulebook
