import Rulebook.Proofs.Expr.Printing
import Rulebook.Proofs.Token.Writing

namespace Rulebook.Grammar

open Token (content)

theorem cons_of_alike {token : Token} {tokens others : List Token}
    (alike : others.map content = (token :: tokens).map content) :
    ∃ other later, others = other :: later ∧ other.kind = token.kind ∧
      other.lexeme = token.lexeme ∧ later.map content = tokens.map content := by
  rw [List.map_cons, List.map_eq_cons_iff] at alike
  rcases alike with ⟨other, later, rfl, same, rest⟩
  rcases Prod.mk.inj same with ⟨kind, lexeme⟩
  exact ⟨other, later, rfl, kind, lexeme, rest⟩

theorem head_of_alike {tokens others : List Token}
    (alike : others.map content = tokens.map content) :
    others.head?.map Token.kind = tokens.head?.map Token.kind := by
  calc others.head?.map Token.kind
    _ = (others.map content).head?.map Prod.fst := by
      rw [List.head?_map, Option.map_map]
      rfl
    _ = (tokens.map content).head?.map Prod.fst := by rw [alike]
    _ = tokens.head?.map Token.kind := by
      rw [List.head?_map, Option.map_map]
      rfl

theorem lexemes_of_alike {tokens others : List Token}
    (alike : others.map content = tokens.map content) : lexemes others = lexemes tokens := by
  have same : others.map Token.lexeme = tokens.map Token.lexeme := by
    calc others.map Token.lexeme
      _ = (others.map content).map Prod.snd := by
        rw [List.map_map]
        rfl
      _ = (tokens.map content).map Prod.snd := by rw [alike]
      _ = tokens.map Token.lexeme := by
        rw [List.map_map]
        rfl
  rw [lexemes, lexemes, same]

theorem Subscripts.alike {tokens rest : List Token} {text : String}
    (subscripts : Subscripts tokens rest text) {others : List Token}
    (alike : others.map content = tokens.map content) :
    ∃ behind, behind.map content = rest.map content ∧ Subscripts others behind text := by
  induction subscripts generalizing others with
  | none => exact ⟨others, alike, .none⟩
  | @more opening closing inner tokens rest text opens inside closes further ih =>
      rcases cons_of_alike alike with ⟨first, later, rfl, kind, -, split⟩
      rw [List.map_append, List.map_eq_append_iff] at split
      rcases split with ⟨within, after, rfl, same, ends⟩
      rcases cons_of_alike ends with ⟨last, following, rfl, closing_kind, -, rest_alike⟩
      rcases ih rest_alike with ⟨behind, same_rest, derived⟩
      have no_closing : ∀ token ∈ within, token.kind ≠ .rightBracket := by
        intro token member
        have listed : content token ∈ inner.map content := by
          rw [← same]
          exact List.mem_map_of_mem member
        rcases List.mem_map.mp listed with ⟨other, present, equal⟩
        have same_kind : other.kind = token.kind := congrArg Prod.fst equal
        rw [← same_kind]
        exact inside other present
      refine ⟨behind, same_rest, ?_⟩
      rw [← lexemes_of_alike same]
      exact .more (kind.trans opens) no_closing (closing_kind.trans closes) derived

theorem Segments.alike {tokens rest : List Token} {text : String}
    (segments : Segments tokens rest text) {others : List Token}
    (alike : others.map content = tokens.map content) :
    ∃ behind, behind.map content = rest.map content ∧ Segments others behind text := by
  induction segments generalizing others with
  | last at_point at_name subscripts =>
      rcases cons_of_alike alike with ⟨point, later, rfl, point_kind, -, named⟩
      rcases cons_of_alike named with ⟨name, after, rfl, name_kind, lexeme, following⟩
      rcases subscripts.alike following with ⟨behind, same, derived⟩
      refine ⟨behind, same, ?_⟩
      rw [← lexeme]
      exact .last (point_kind.trans at_point) (name_kind.trans at_name) derived
  | more at_point at_name subscripts segments ih =>
      rcases cons_of_alike alike with ⟨point, later, rfl, point_kind, -, named⟩
      rcases cons_of_alike named with ⟨name, after, rfl, name_kind, lexeme, following⟩
      rcases subscripts.alike following with ⟨middle, same_middle, derived⟩
      rcases ih same_middle with ⟨behind, same, further⟩
      refine ⟨behind, same, ?_⟩
      rw [← lexeme]
      exact .more (point_kind.trans at_point) (name_kind.trans at_name) derived further

theorem Derives.alike {tiers : List Tier} {tokens rest : List Token} {tree : Expr} {nesting : Nat}
    (derives : Derives tiers tokens rest tree nesting) {others : List Token}
    (alike : others.map content = tokens.map content) :
    ∃ behind, behind.map content = rest.map content ∧
      Derives tiers others behind tree nesting := by
  induction derives generalizing others with
  | tighter inner ih =>
      rcases ih alike with ⟨behind, same, derived⟩
      exact ⟨behind, same, .tighter derived⟩
  | binary first at_operator of_tier second ihFirst ihSecond =>
      rcases ihFirst alike with ⟨middle, same_middle, derivedFirst⟩
      rcases cons_of_alike same_middle with ⟨operator, after, rfl, kind, -, following⟩
      rcases ihSecond following with ⟨behind, same, derivedSecond⟩
      exact ⟨behind, same, .binary derivedFirst (kind.trans at_operator) of_tier derivedSecond⟩
  | sign at_operator unary inner ih =>
      rcases cons_of_alike alike with ⟨operator, after, rfl, kind, -, following⟩
      rcases ih following with ⟨behind, same, derived⟩
      exact ⟨behind, same, .sign (kind.trans at_operator) unary derived⟩
  | group opens inner closes ih =>
      rcases cons_of_alike alike with ⟨opening, after, rfl, kind, -, following⟩
      rcases ih following with ⟨middle, same_middle, derived⟩
      rcases cons_of_alike same_middle with ⟨closing, behind, rfl, closing_kind, -, same⟩
      exact ⟨behind, same, .group (kind.trans opens) derived (closing_kind.trans closes)⟩
  | number at_number readable =>
      rcases cons_of_alike alike with ⟨token, behind, rfl, kind, lexeme, same⟩
      rw [← lexeme] at readable
      exact ⟨behind, same, .number (kind.trans at_number) readable⟩
  | text at_text =>
      rcases cons_of_alike alike with ⟨token, behind, rfl, kind, lexeme, same⟩
      rw [← lexeme]
      exact ⟨behind, same, .text (kind.trans at_text)⟩
  | boolean at_boolean =>
      rcases cons_of_alike alike with ⟨token, behind, rfl, kind, lexeme, same⟩
      rw [← lexeme]
      exact ⟨behind, same, .boolean (kind.trans at_boolean)⟩
  | name at_name no_path =>
      rcases cons_of_alike alike with ⟨token, behind, rfl, kind, lexeme, same⟩
      rw [← lexeme, ← head_of_alike same] at no_path
      rw [← lexeme]
      exact ⟨behind, same, .name (kind.trans at_name) no_path⟩
  | path at_name at_root segments =>
      rcases cons_of_alike alike with ⟨root, after, rfl, kind, lexeme, following⟩
      rcases segments.alike following with ⟨behind, same, derived⟩
      exact ⟨behind, same, .path (kind.trans at_name) (lexeme.trans at_root) derived⟩

end Rulebook.Grammar

namespace Rulebook.Expr

open Token (content Spread Written)
open Grammar

theorem run_alike (parser other : Parser) (positive : 0 < parser.limit)
    (same_limit : other.limit = parser.limit) {tokens others : List Token}
    (alike : others.map content = tokens.map content) {tree : Expr}
    (read : parser.run tokens = .ok tree) : other.run others = .ok tree := by
  rcases (parser.run_eq_ok positive).mp read with ⟨nesting, derives, fits, low⟩
  rcases derives.alike alike with ⟨behind, nothing, derived⟩
  rw [List.map_nil, List.map_eq_nil_iff] at nothing
  rw [nothing] at derived
  rw [← same_limit] at positive fits low
  exact (other.run_eq_ok positive).mpr ⟨nesting, derived, fits, low⟩

def ReadAlike (depth : Nat) (tokens others : List Token) : Prop :=
  (∃ tree, ofTokens depth tokens = .ok tree ∧ ofTokens depth others = .ok tree) ∨
    ∃ error other, ofTokens depth tokens = .error error ∧ ofTokens depth others = .error other

theorem readAlike_of_alike {tokens others : List Token}
    (alike : (Tokens.ofList others).body.map content = (Tokens.ofList tokens).body.map content)
    (depth : Nat) : ReadAlike depth tokens others := by
  have positive : 0 < max 1 depth := Nat.lt_of_lt_of_le Nat.zero_lt_one (Nat.le_max_left 1 depth)
  let parser : Parser := ⟨max 1 depth, (Tokens.ofList tokens).ending⟩
  let other : Parser := ⟨max 1 depth, (Tokens.ofList others).ending⟩
  change (∃ tree, parser.run _ = .ok tree ∧ other.run _ = .ok tree) ∨
    ∃ error otherError, parser.run _ = .error error ∧ other.run _ = .error otherError
  cases read : parser.run (Tokens.ofList tokens).body with
  | ok tree => exact .inl ⟨tree, rfl, run_alike parser other positive rfl alike read⟩
  | error error =>
      cases readOther : other.run (Tokens.ofList others).body with
      | ok tree =>
          have same := run_alike other parser positive rfl alike.symm readOther
          rw [read] at same
          cases same
      | error otherError => exact .inr ⟨error, otherError, rfl, rfl⟩

theorem ofList_scan (text : String) :
    ∃ body, ((Token.scan text).filter fun token => token.kind ≠ .invalid) =
        body ++ [.endingAt text.utf8ByteSize] ∧
      Tokens.ofList (Token.scan text) = ⟨body, text.utf8ByteSize⟩ ∧
      ∀ token ∈ body, token.Counts ∧ ∃ source, Written token.kind token.lexeme source := by
  rcases Token.valid_scan text with ⟨body, valid, written⟩
  refine ⟨body, valid, ?_, written⟩
  rw [← ofList_filter, valid]
  exact ofList_counting (fun token member => (written token member).1) _

/-- Tokens that are written apart from each other are cut as they were. The valid tokens of a text
can be written so, and every text in which they are reads as the first one does. -/
theorem scan_spread :
    (∀ (contents : List (Token.Kind × String)) (text : String), Spread contents text.toList →
      (Token.scan text).map content = contents ++ [(.ending, "")]) ∧
    ∀ text : String,
      let body := ((Token.scan text).filter fun token => token.kind ≠ .invalid).takeWhile
        fun token => token.kind ≠ .ending
      (∀ token ∈ body, ∃ source, Written token.kind token.lexeme source) ∧
      (∃ written : String, Spread (body.map content) written.toList) ∧
      ∀ written : String, Spread (body.map content) written.toList →
        ∀ depth, ReadAlike depth (Token.scan text) (Token.scan written) := by
  constructor
  · intro contents text spread
    rcases spread.cuts.scan with ⟨tokens, -, same, scanned⟩
    rw [scanned, List.map_append, same]
    rfl
  · intro text body
    have written : ∀ token ∈ body, ∃ source, Written token.kind token.lexeme source := by
      rcases ofList_scan text with ⟨counted, -, same, written⟩
      have same_body : body = counted := congrArg Tokens.body same
      intro token member
      rw [same_body] at member
      exact (written token member).2
    refine ⟨written, ?_, ?_⟩
    · have each : ∀ wanted ∈ body.map content, ∃ source, Written wanted.1 wanted.2 source := by
        intro wanted member
        rcases List.mem_map.mp member with ⟨token, present, rfl⟩
        exact written token present
      rcases Token.exists_spread each with ⟨text, spread⟩
      refine ⟨String.ofList text, ?_⟩
      rwa [String.toList_ofList]
    · intro anew spread depth
      rcases spread.cuts.scan with ⟨tokens, count, same, scanned⟩
      apply readAlike_of_alike
      rw [scanned, ofList_counting count]
      exact same

end Rulebook.Expr
