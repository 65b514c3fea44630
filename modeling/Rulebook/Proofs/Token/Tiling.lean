import Rulebook.Proofs.Token.Form

/-! The tokens of a text tile it.

Every token stands where its position says, in the first form that the text goes on with there; no
two of them overlap, and what no token covers is blank. -/

namespace Rulebook

theorem byteLength_cons (c : Char) (text : List Char) :
    byteLength (c :: text) = c.utf8Size + byteLength text := by
  rw [byteLength, List.foldl_cons, foldl_utf8Size, Nat.zero_add]

theorem byteLength_pos {text : List Char} (nonempty : text ≠ []) : 0 < byteLength text := by
  cases text with
  | nil => contradiction
  | cons c text =>
      rw [byteLength_cons]
      exact Nat.add_pos_left c.utf8Size_pos _

theorem byteLength_toList (text : String) : byteLength text.toList = text.utf8ByteSize := by
  have sized (chars : List Char) : byteLength chars = (String.ofList chars).utf8ByteSize := by
    induction chars with
    | nil => rfl
    | cons c chars ih =>
        rw [byteLength_cons, ih, String.ofList_cons, String.utf8ByteSize_append,
          String.utf8ByteSize_singleton]
  rw [sized, String.ofList_toList]

theorem split_at {first second front back : List Char} {c : Char}
    (split : first ++ second = front ++ c :: back) :
    (∃ further, first = front ++ c :: further) ∨
      ∃ inner, front = first ++ inner ∧ second = inner ++ c :: back := by
  rcases List.append_eq_append_iff.mp split with ⟨inner, behind, rest⟩ | ⟨inner, before, rest⟩
  · exact .inr ⟨inner, behind, rest⟩
  · cases inner with
    | nil => exact .inr ⟨[], by simpa using before.symm, by simpa using rest.symm⟩
    | cons other further =>
        rcases List.cons.inj rest with ⟨rfl, -⟩
        exact .inl ⟨further, before⟩

namespace Token

def WrittenAs (token : Token) (source : List Char) : Prop :=
  if token.kind = .text then ∃ quote, (quote = '"' ∨ quote = '\'') ∧
    source = quote :: token.lexeme.toList ++ [quote]
  else source = token.lexeme.toList

def width (token : Token) : Nat :=
  byteLength token.lexeme.toList + if token.kind = .text then 2 else 0

/-- The token stands behind `before`, as `source`, and is the one in the first form that `source`
and the text after it begin with. It does not begin with a blank. -/
structure Stands (token : Token) (before source after : List Char) : Prop where
  position : token.position = byteLength before
  written : token.WrittenAs source
  visible : ∀ c ∈ source.head?, isBlank c = false
  first : Scan.First Scan.Form.inOrder (source ++ after)
    ⟨token.kind, token.lexeme.toList, source⟩

theorem WrittenAs.width_eq {token : Token} {source : List Char}
    (written : token.WrittenAs source) : token.width = byteLength source := by
  rw [WrittenAs] at written
  rw [width]
  split at written
  · rename_i quoted
    rcases written with ⟨quote, quotes, rfl⟩
    have narrow : quote.utf8Size = 1 := by rcases quotes with rfl | rfl <;> rfl
    rw [if_pos quoted, byteLength_append, byteLength_cons, byteLength_cons, narrow]
    simp only [byteLength, List.foldl_nil]
    omega
  · rename_i unquoted
    rw [if_neg unquoted, written, Nat.add_zero]

end Token

namespace Scan

variable {form : Form} {text : List Char} {scan : Scan}

theorem IsNumber.ne_nil {found : List Char} (number : IsNumber found) : found ≠ [] := by
  rcases number with digits | ⟨whole, fraction, digits, -, rfl⟩
  · exact digits.1
  · exact List.append_ne_nil_of_left_ne_nil digits.1 _

theorem Begins.source (begins : Begins form text scan) :
    scan.source <+: text ∧ scan.source ≠ [] := by
  cases begins with
  | double | sign | mark | other => simp [plain]
  | number longest => exact ⟨longest.begins, IsNumber.ne_nil longest.of_kind⟩
  | @quoted quote content rest =>
      refine ⟨⟨rest, ?_⟩, List.cons_ne_nil _ _⟩
      simp
  | boolean longest | name longest =>
      rcases longest.of_kind with ⟨first, rest, rfl, -⟩
      exact ⟨longest.begins, List.cons_ne_nil _ _⟩

theorem visible_of_punctuation {c : Char} {kind : Token.Kind} (known : (c, kind) ∈ punctuation) :
    isBlank c = false := by
  simp only [punctuation, List.mem_cons, Prod.mk.injEq, List.not_mem_nil, or_false] at known
  rcases known with ⟨rfl, -⟩ | ⟨rfl, -⟩ | ⟨rfl, -⟩ | ⟨rfl, -⟩ | ⟨rfl, -⟩ <;> rfl

theorem kind_of_punctuation {c : Char} {kind : Token.Kind} (known : (c, kind) ∈ punctuation) :
    kind ≠ .text ∧ kind ≠ .invalid ∧ kind ≠ .ending := by
  simp only [punctuation, List.mem_cons, Prod.mk.injEq, List.not_mem_nil, or_false] at known
  rcases known with ⟨-, rfl⟩ | ⟨-, rfl⟩ | ⟨-, rfl⟩ | ⟨-, rfl⟩ | ⟨-, rfl⟩ <;> decide

theorem Begins.writtenAs (begins : Begins form text scan) (position : Nat) :
    Token.WrittenAs ⟨scan.kind, String.ofList scan.lexeme, position⟩ scan.source := by
  rw [Token.WrittenAs, String.toList_ofList]
  cases begins with
  | quoted quotes => exact ⟨_, quotes, rfl⟩
  | mark known => exact (if_neg (kind_of_punctuation known).1).mpr rfl
  | _ => rfl

theorem Begins.kind_ne_ending (begins : Begins form text scan) : scan.kind ≠ .ending := by
  cases begins with
  | mark known => exact (kind_of_punctuation known).2.2
  | _ => exact nofun

theorem First.begins {forms : List Form} (first : First forms text scan) :
    ∃ form, Begins form text scan := by
  induction first with
  | here begins => exact ⟨_, begins⟩
  | later _ _ ih => exact ih

end Scan

namespace Token

variable {token : Token} {tokens : List Token} {before text : List Char}

theorem Stands.source_ne_nil {source after : List Char}
    (stands : token.Stands before source after) : source ≠ [] := by
  rcases stands.first.begins with ⟨form, begins⟩
  exact begins.source.2

theorem Stands.width_eq {source after : List Char} (stands : token.Stands before source after) :
    token.width = byteLength source :=
  stands.written.width_eq

theorem stands_head {c : Char} (visible : isBlank c = false) (before rest : List Char) :
    (Scan.head c rest).source ++ rest.drop ((Scan.head c rest).source.length - 1) = c :: rest ∧
      Stands ⟨(Scan.head c rest).kind, String.ofList (Scan.head c rest).lexeme, byteLength before⟩
        before (Scan.head c rest).source
        (rest.drop ((Scan.head c rest).source.length - 1)) := by
  have first := Scan.first_head c rest
  rcases first.begins with ⟨form, begins⟩
  rcases begins.source with ⟨⟨after, split⟩, nonempty⟩
  have positive : 0 < (Scan.head c rest).source.length := List.length_pos_iff.mpr nonempty
  have further : rest.drop ((Scan.head c rest).source.length - 1) = after := by
    calc rest.drop ((Scan.head c rest).source.length - 1)
      _ = (c :: rest).drop ((Scan.head c rest).source.length - 1 + 1) := List.drop_succ_cons.symm
      _ = (c :: rest).drop (Scan.head c rest).source.length := by rw [Nat.sub_add_cancel positive]
      _ = after := by rw [← split, List.drop_left]
  rw [further]
  refine ⟨split, rfl, begins.writtenAs _, ?_, ?_⟩
  · intro initial head
    have same : (c :: rest).head? = some initial := by
      rw [← split, List.head?_append, Option.mem_def.mp head]
      rfl
    rw [List.head?_cons, Option.some.injEq] at same
    rw [← same, visible]
  · rw [split, String.toList_ofList]
    exact first

/-- The tokens of the text that stands behind `before`, with blanks between them and at the ends. -/
inductive Tiles : (before text : List Char) → List Token → Prop where
  | ending {before gap : List Char} (blank : ∀ c ∈ gap, isBlank c = true) :
      Tiles before gap [.endingAt (byteLength (before ++ gap))]
  | token {before gap source rest : List Char} {token : Token} {tokens : List Token}
      (blank : ∀ c ∈ gap, isBlank c = true) (stands : token.Stands (before ++ gap) source rest)
      (further : Tiles (before ++ gap ++ source) rest tokens) :
      Tiles before (gap ++ (source ++ rest)) (token :: tokens)

namespace Tiles

theorem indent {c : Char} (blank : isBlank c = true) (tiles : Tiles (before ++ [c]) text tokens) :
    Tiles before (c :: text) tokens := by
  cases tiles with
  | ending gap =>
      rw [List.append_assoc]
      exact .ending (List.forall_mem_cons.mpr ⟨blank, gap⟩)
  | @token _ gap source rest token tokens blanks stands further =>
      rw [List.append_assoc before] at stands further
      exact .token (List.forall_mem_cons.mpr ⟨blank, blanks⟩) stands further

theorem scanFrom (before text : List Char) :
    Tiles before text (Token.scanFrom (byteLength before) text) := by
  induction size : text.length using Nat.strongRecOn generalizing before text with
  | ind size ih =>
      subst size
      cases text with
      | nil =>
          have ends := @Tiles.ending before [] nofun
          rw [List.append_nil] at ends
          rwa [Token.scanFrom]
      | cons c rest =>
          rw [Token.scanFrom]
          split
          · rename_i blank
            have further := ih rest.length (Nat.lt_succ_self _) (before ++ [c]) rest rfl
            rw [byteLength_append, byteLength_cons] at further
            exact further.indent blank
          · rename_i visible
            rcases stands_head (Bool.eq_false_iff.mpr visible) before rest with ⟨split, stands⟩
            have shorter : (rest.drop ((Scan.head c rest).source.length - 1)).length <
                (c :: rest).length := by
              rw [List.length_drop, List.length_cons]
              omega
            have further := ih _ shorter (before ++ (Scan.head c rest).source) _ rfl
            rw [byteLength_append] at further
            have tiles := @Tiles.token before [] _ _ _ _ nofun
              (by rwa [List.append_nil]) (by rwa [List.append_nil])
            rwa [List.nil_append, split] at tiles

theorem body (tiles : Tiles before text tokens) :
    ∃ body, tokens = body ++ [.endingAt (byteLength (before ++ text))] ∧
      ∀ token ∈ body, token.kind ≠ .ending ∧ ∃ front source after,
        before ++ text = front ++ (source ++ after) ∧ token.Stands front source after := by
  induction tiles with
  | ending blank => exact ⟨[], rfl, nofun⟩
  | @token before gap source rest token tokens blank stands further ih =>
      rcases ih with ⟨body, rfl, placed⟩
      have whole : before ++ gap ++ source ++ rest = before ++ (gap ++ (source ++ rest)) := by
        simp only [List.append_assoc]
      rw [whole] at placed ⊢
      refine ⟨token :: body, rfl, List.forall_mem_cons.mpr ⟨⟨?_, ?_⟩, placed⟩⟩
      · rcases stands.first.begins with ⟨form, begins⟩
        exact begins.kind_ne_ending
      · exact ⟨before ++ gap, source, rest, by simp only [List.append_assoc], stands⟩

theorem position_ge (tiles : Tiles before text tokens) :
    ∀ token ∈ tokens, byteLength before ≤ token.position := by
  induction tiles with
  | ending blank =>
      rw [List.forall_mem_singleton, byteLength_append]
      exact Nat.le_add_right _ _
  | token blank stands further ih =>
      refine List.forall_mem_cons.mpr ⟨?_, ?_⟩
      · rw [stands.position, byteLength_append]
        exact Nat.le_add_right _ _
      · intro token member
        have later := ih token member
        rw [byteLength_append, byteLength_append] at later
        omega

theorem ordered (tiles : Tiles before text tokens) :
    tokens.Pairwise fun token next =>
      token.position < next.position ∧ token.position + token.width ≤ next.position := by
  induction tiles with
  | ending blank => exact List.pairwise_singleton _ _
  | token blank stands further ih =>
      refine List.pairwise_cons.mpr ⟨?_, ih⟩
      intro next member
      have later := further.position_ge next member
      have positive := byteLength_pos stands.source_ne_nil
      rw [byteLength_append, ← stands.position] at later
      rw [stands.width_eq]
      omega

theorem blank_or_covered (tiles : Tiles before text tokens) {front back : List Char} {c : Char}
    (split : text = front ++ c :: back) :
    isBlank c = true ∨ ∃ token ∈ tokens, token.position ≤ byteLength (before ++ front) ∧
      byteLength (before ++ front) < token.position + token.width := by
  induction tiles generalizing front with
  | ending blank =>
      subst split
      exact .inl (blank c (by simp))
  | @token before gap source rest token tokens blank stands further ih =>
      rcases split_at split with ⟨later, rfl⟩ | ⟨inner, rfl, behind⟩
      · exact .inl (blank c (by simp))
      · rcases split_at behind with ⟨later, rfl⟩ | ⟨beyond, rfl, after⟩
        · refine .inr ⟨token, List.mem_cons_self, ?_⟩
          have positive := c.utf8Size_pos
          rw [stands.width_eq, stands.position]
          simp only [byteLength_append, byteLength_cons]
          omega
        · rcases ih after with blank | ⟨covering, member, covers⟩
          · exact .inl blank
          · refine .inr ⟨covering, List.mem_cons_of_mem token member, ?_⟩
            simpa only [List.append_assoc] using covers

end Tiles

/-- The tokens of a text stand at increasing bytes, each in the first form that the text goes on
with there, and do not overlap. The only ending is the last one and stands behind the last byte. What
no token covers is blank. -/
theorem scan_tiles_text (text : String) :
    (∃ body, scan text = body ++ [.endingAt text.utf8ByteSize] ∧
      ∀ token ∈ body, token.kind ≠ .ending ∧ ∃ before source after,
        text.toList = before ++ (source ++ after) ∧ token.Stands before source after) ∧
    ((scan text).Pairwise fun token next =>
      token.position < next.position ∧ token.position + token.width ≤ next.position) ∧
    ∀ before c after, text.toList = before ++ c :: after → isBlank c = true ∨
      ∃ token ∈ scan text, token.position ≤ byteLength before ∧
        byteLength before < token.position + token.width := by
  have tiles : Tiles [] text.toList (scan text) := Tiles.scanFrom [] text.toList
  refine ⟨?_, tiles.ordered, ?_⟩
  · rw [← byteLength_toList]
    exact tiles.body
  · intro before c after split
    exact tiles.blank_or_covered split

end Token
end Rulebook
