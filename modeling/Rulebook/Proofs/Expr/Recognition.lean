import Rulebook.Proofs.Expr.Path

/-! Reading an expression and deriving it from the grammar are the same, up to the two limits.

The reader of a tier is greedy: after an operand it takes in every further operator of its tier. A
derivation of the tier may stop earlier, and then reading goes on from where it stops. This is what
`resume` says, and what carries the induction over derivations past the left operands. -/

namespace Rulebook.Parser

open Rulebook.Expr (Measured Reader parts parts_ok)
open Rulebook.Grammar

variable (parser : Parser)

def reader (room : Nat) (tiers : List Tier) : Reader Measured :=
  tiers.foldr parser.level (parser.operand room)

/-- Reads on after an expression of `tiers`, with the operators of the loosest of them. -/
def resume (room : Nat) : List Tier → Measured → Nat → List Token →
    Except SyntaxError (Measured × Nat × List Token)
  | [], item, last, tokens => .ok (item, last, tokens)
  | tier :: tiers, item, last, tokens =>
    parts (parser.chain tier (parser.reader room tiers) item last tokens)

theorem reader_nil (room : Nat) : parser.reader room [] = parser.operand room := rfl

theorem expression_eq (room : Nat) :
    parser.expression (parser.operand room) = parser.reader room Tier.all := rfl

theorem reader_cons (room : Nat) (tier : Tier) (tiers : List Tier) (tokens : List Token) :
    parts (parser.reader room (tier :: tiers) tokens) =
      parts (parser.reader room tiers tokens) >>= fun (first, last, rest) =>
        parser.resume room (tier :: tiers) first last rest :=
  parser.parts_level tier (parser.reader room tiers) tokens

theorem resume_stop {tiers : List Tier} {rest : List Token} (stops : Stops tiers rest) (room : Nat)
    (item : Measured) (last : Nat) :
    parser.resume room tiers item last rest = .ok (item, last, rest) := by
  cases tiers with
  | nil => rfl
  | cons tier tiers =>
      cases rest with
      | nil => exact parser.parts_chain_nil tier _ item last
      | cons token rest =>
          apply parser.parts_chain_stop
          intro sign at_operator of_tier
          exact (stops token rfl).2.2 sign tier at_operator of_tier List.mem_cons_self

theorem limitHeight_eq_ok {item joined : Measured} {position : Nat} :
    parser.limitHeight item position = .ok joined ↔
      item.height ≤ parser.limit ∧ joined = item := by
  rw [limitHeight]
  split
  · rename_i higher
    simp only [tooDeep, reduceCtorEq, false_iff, not_and]
    intro low
    omega
  · rename_i low
    constructor
    · intro same
      exact ⟨by omega, (Except.ok.inj same).symm⟩
    · intro same
      rw [same.2]

def within : (room : Nat) → Option (Reader Measured)
  | 0 => none
  | room + 1 => some (parser.operand room)

theorem parts_operand (room : Nat) (token : Token) (rest : List Token) :
    parts (parser.operand room (token :: rest)) =
      parts (parser.operandWith (parser.within room) (token :: rest)) := by
  cases room <;> rfl

/-- A derivation that nests no deeper than there is room is read, and reading resumes behind it. -/
theorem reader_of_derives {tiers : List Tier} {tokens rest : List Token} {tree : Expr}
    {nesting : Nat} (derives : Derives tiers tokens rest tree nesting) (distinct : tiers.Nodup)
    (low : tree.height ≤ parser.limit) (stops : Stops tiers.tail rest) {room : Nat}
    (fits : nesting ≤ room) :
    ∃ last, parts (parser.reader room tiers tokens) =
      parser.resume room tiers (.ofTree tree) last rest := by
  induction derives generalizing room with
  | @tighter tier tiers tokens rest tree nesting inner ih =>
      replace stops : Stops tiers rest := stops
      rcases ih distinct.tail low stops.tail fits with ⟨last, read⟩
      refine ⟨last, ?_⟩
      rw [reader_cons, read, parser.resume_stop stops]
      rfl
  | @binary tier tiers operator sign tokens middle rest left right leftNesting rightNesting
      first at_operator of_tier second ihFirst ihSecond =>
      replace stops : Stops tiers rest := stops
      have looser : tier ∉ tiers := (List.nodup_cons.mp distinct).1
      have heights : left.height ≤ parser.limit ∧ right.height ≤ parser.limit := by
        simp only [Expr.height] at low
        omega
      rcases Nat.max_le.mp fits with ⟨leftFits, rightFits⟩
      obtain ⟨last, read⟩ := ihFirst distinct heights.1
        (stops_operator at_operator of_tier looser middle) leftFits
      rcases ihSecond distinct.tail heights.2 stops.tail rightFits with ⟨position, readRight⟩
      refine ⟨position, ?_⟩
      rw [read, resume, parser.parts_chain_operator at_operator of_tier, readRight,
        parser.resume_stop stops]
      simp only [ok_bind]
      rw [parser.limitHeight_eq_ok.mpr ⟨low, rfl⟩]
      rfl
  | @sign operator sign tokens rest operand nesting at_operator unary inner ih =>
      obtain ⟨room, rfl⟩ : ∃ smaller, room = smaller + 1 := ⟨room - 1, by omega⟩
      have height : operand.height ≤ parser.limit := by
        simp only [Expr.height] at low
        omega
      rcases ih distinct height stops (Nat.le_of_succ_le_succ fits) with ⟨last, read⟩
      replace read : parts (parser.operand room tokens) = .ok (.ofTree operand, last, rest) := read
      refine ⟨last, ?_⟩
      rw [reader_nil, parts_operand, parts_operandWith, at_operator]
      simp only [unary, if_true, within, read, ok_bind]
      rw [parser.limitHeight_eq_ok.mpr ⟨low, rfl⟩]
      rfl
  | @group opening closing tokens rest tree nesting opens inner closes ih =>
      obtain ⟨room, rfl⟩ : ∃ smaller, room = smaller + 1 := ⟨room - 1, by omega⟩
      obtain ⟨last, read⟩ := ih (by decide) low (stops_closing _ closes rest)
        (Nat.le_of_succ_le_succ fits)
      rw [parser.resume_stop (stops_closing _ closes rest)] at read
      refine ⟨closing.position, ?_⟩
      rw [reader_nil, parts_operand, parts_operandWith, opens]
      simp only [within, expression_eq, read, ok_bind, closeGroup, closes, if_true]
      rfl
  | @number token rest value at_number readable =>
      refine ⟨token.position, ?_⟩
      rw [reader_nil, parts_operand, parts_operandWith, at_number, readable]
      rfl
  | @text token rest at_text =>
      refine ⟨token.position, ?_⟩
      rw [reader_nil, parts_operand, parts_operandWith, at_text]
      rfl
  | @boolean token rest at_boolean =>
      refine ⟨token.position, ?_⟩
      rw [reader_nil, parts_operand, parts_operandWith, at_boolean]
      rfl
  | @name token rest at_name no_path =>
      refine ⟨token.position, ?_⟩
      rw [reader_nil, parts_operand, parts_operandWith, at_name]
      simp only [parts_named, if_neg no_path]
      rfl
  | @path root tokens rest text at_name at_root segments =>
      obtain ⟨last, read⟩ := parser.featurePath_of_segments segments stops root.lexeme root.position
      refine ⟨last, ?_⟩
      rw [reader_nil, parts_operand, parts_operandWith, at_name]
      simp only [parts_named, if_pos (And.intro at_root segments.head_dot), read, ok_bind]
      rw [at_root]
      rfl

/-- A derivation that nests deeper than there is room is refused. -/
theorem reader_too_deep {tiers : List Tier} {tokens rest : List Token} {tree : Expr}
    {nesting : Nat} (derives : Derives tiers tokens rest tree nesting) (distinct : tiers.Nodup)
    (low : tree.height ≤ parser.limit) (stops : Stops tiers.tail rest) {room : Nat}
    (exceeds : room < nesting) :
    ∃ position, parts (parser.reader room tiers tokens) =
      .error ⟨.tooDeep parser.limit, position⟩ := by
  induction derives generalizing room with
  | @tighter tier tiers tokens rest tree nesting inner ih =>
      replace stops : Stops tiers rest := stops
      rcases ih distinct.tail low stops.tail exceeds with ⟨position, refused⟩
      exact ⟨position, by rw [reader_cons, refused, error_bind]⟩
  | @binary tier tiers operator sign tokens middle rest left right leftNesting rightNesting
      first at_operator of_tier second ihFirst ihSecond =>
      replace stops : Stops tiers rest := stops
      have looser : tier ∉ tiers := (List.nodup_cons.mp distinct).1
      have stopsFirst : Stops tiers (operator :: middle) :=
        stops_operator at_operator of_tier looser middle
      have heights : left.height ≤ parser.limit ∧ right.height ≤ parser.limit := by
        simp only [Expr.height] at low
        omega
      by_cases leftFits : leftNesting ≤ room
      · obtain ⟨last, read⟩ := parser.reader_of_derives first distinct heights.1 stopsFirst leftFits
        have rightExceeds : room < rightNesting := by omega
        rcases ihSecond distinct.tail heights.2 stops.tail rightExceeds with ⟨position, refused⟩
        refine ⟨position, ?_⟩
        rw [read, resume, parser.parts_chain_operator at_operator of_tier, refused, error_bind]
      · exact ihFirst distinct heights.1 stopsFirst (by omega)
  | @sign operator sign tokens rest operand nesting at_operator unary inner ih =>
      rw [reader_nil, parts_operand, parts_operandWith, at_operator]
      simp only [unary, if_true]
      cases room with
      | zero => exact ⟨operator.position, rfl⟩
      | succ room =>
          have height : operand.height ≤ parser.limit := by
            simp only [Expr.height] at low
            omega
          rcases ih distinct height stops (Nat.lt_of_succ_lt_succ exceeds) with ⟨position, refused⟩
          replace refused : parts (parser.operand room tokens) = .error _ := refused
          exact ⟨position, by simp only [within, refused, error_bind]⟩
  | @group opening closing tokens rest tree nesting opens inner closes ih =>
      rw [reader_nil, parts_operand, parts_operandWith, opens]
      cases room with
      | zero => exact ⟨opening.position, rfl⟩
      | succ room =>
          obtain ⟨position, refused⟩ := ih (by decide) low (stops_closing _ closes rest)
            (Nat.lt_of_succ_lt_succ exceeds)
          exact ⟨position, by simp only [within, expression_eq, refused, error_bind]⟩
  | _ => exact absurd exceeds (Nat.not_lt_zero room)

def Faithful (room : Nat) (tiers : List Tier) (read : Reader Measured) : Prop :=
  ∀ tokens item last rest, parts (read tokens) = .ok (item, last, rest) →
    item.height ≤ parser.limit ∧
      ∃ nesting, nesting ≤ room ∧ Derives tiers tokens rest item.tree nesting

theorem chain_faithful {room : Nat} {tier : Tier} {tiers : List Tier} {read : Reader Measured}
    (faithful : parser.Faithful room tiers read) {start tokens rest : List Token}
    {left item : Measured} {last position nesting : Nat} (low : left.height ≤ parser.limit)
    (fits : nesting ≤ room) (derives : Derives (tier :: tiers) start tokens left.tree nesting)
    (chained : parts (parser.chain tier read left last tokens) = .ok (item, position, rest)) :
    item.height ≤ parser.limit ∧
      ∃ nesting, nesting ≤ room ∧ Derives (tier :: tiers) start rest item.tree nesting := by
  induction size : tokens.length using Nat.strongRecOn generalizing left last tokens nesting with
  | ind size ih =>
      subst size
      by_cases goes : ∃ token after sign, tokens = token :: after ∧ token.kind = .operator sign ∧
          sign.tier? = some tier
      · rcases goes with ⟨token, after, sign, rfl, at_operator, of_tier⟩
        rw [parser.parts_chain_operator at_operator of_tier] at chained
        rcases bind_eq_ok.mp chained with ⟨⟨right, middle, further⟩, readRight, joins⟩
        rcases bind_eq_ok.mp joins with ⟨joined, limited, continued⟩
        rcases parser.limitHeight_eq_ok.mp limited with ⟨joinedLow, rfl⟩
        rcases faithful _ _ _ _ readRight with ⟨-, inner, innerFits, derivesRight⟩
        have fewer : further.length < (token :: after).length :=
          Nat.lt_succ_of_lt (Expr.shorter_of_parts readRight)
        exact ih _ fewer joinedLow (Nat.max_le.mpr ⟨fits, innerFits⟩)
          (.binary derives at_operator of_tier derivesRight) continued rfl
      · have stopped :
            parts (parser.chain tier read left last tokens) = .ok (left, last, tokens) := by
          cases tokens with
          | nil => exact parser.parts_chain_nil tier read left last
          | cons token after =>
              apply parser.parts_chain_stop
              intro sign at_operator of_tier
              exact goes ⟨token, after, sign, rfl, at_operator, of_tier⟩
        rw [stopped] at chained
        simp only [Except.ok.injEq, Prod.mk.injEq] at chained
        rcases chained with ⟨rfl, -, rfl⟩
        exact ⟨low, nesting, fits, derives⟩

theorem foldr_faithful {room : Nat} {read : Reader Measured}
    (faithful : parser.Faithful room [] read) (tiers : List Tier) :
    parser.Faithful room tiers (tiers.foldr parser.level read) := by
  induction tiers with
  | nil => exact faithful
  | cons tier tiers ih =>
      intro tokens item last rest leveled
      rw [List.foldr_cons, parts_level] at leveled
      rcases bind_eq_ok.mp leveled with ⟨⟨first, middle, after⟩, readFirst, chained⟩
      rcases ih _ _ _ _ readFirst with ⟨low, nesting, fits, derives⟩
      exact parser.chain_faithful ih low fits (.tighter derives) chained

theorem named_faithful {token : Token} (at_name : token.kind = .identifier) {room : Nat}
    (positive : 0 < parser.limit) {rest after : List Token} {item : Measured} {last : Nat}
    (read : parts (parser.named token rest) = .ok (item, last, after)) :
    item.height ≤ parser.limit ∧
      ∃ nesting, nesting ≤ room ∧ Derives [] (token :: rest) after item.tree nesting := by
  rw [parts_named] at read
  split at read
  · rename_i begins
    rcases begins with ⟨at_root, at_point⟩
    rcases bind_eq_ok.mp read with ⟨⟨path, position, further⟩, readPath, same⟩
    simp only [Except.ok.injEq, Prod.mk.injEq] at same
    rcases same with ⟨rfl, -, rfl⟩
    cases rest with
    | nil => cases at_point
    | cons point tokens =>
        obtain ⟨text, segments, rfl⟩ :=
          parser.segments_of_featurePath (by simpa using at_point) readPath
        rw [at_root]
        exact ⟨positive, 0, Nat.zero_le room, .path at_name at_root segments⟩
  · rename_i no_path
    simp only [Except.ok.injEq, Prod.mk.injEq] at read
    rcases read with ⟨rfl, -, rfl⟩
    exact ⟨positive, 0, Nat.zero_le room, .name at_name no_path⟩

theorem group_faithful {room : Nat} {operand : Reader Measured}
    (faithful : parser.Faithful room [] operand) {opening : Token}
    (opens : opening.kind = .leftParen) {tokens rest : List Token} {item : Measured} {last : Nat}
    (read : parts (parser.expression operand tokens) >>= parser.closeGroup =
      .ok (item, last, rest)) :
    item.height ≤ parser.limit ∧
      ∃ nesting, nesting ≤ room + 1 ∧ Derives [] (opening :: tokens) rest item.tree nesting := by
  rcases bind_eq_ok.mp read with ⟨⟨tree, position, after⟩, readInner, closed⟩
  obtain ⟨low, nesting, fits, derives⟩ :=
    parser.foldr_faithful faithful Tier.all _ _ _ _ readInner
  cases after with
  | nil => cases closed
  | cons closing after =>
      rw [closeGroup] at closed
      split at closed
      · rename_i closes
        simp only [Except.ok.injEq, Prod.mk.injEq] at closed
        rcases closed with ⟨rfl, -, rfl⟩
        exact ⟨low, nesting + 1, Nat.succ_le_succ fits, .group opens derives closes⟩
      · cases closed

theorem sign_faithful {room : Nat} {operand : Reader Measured}
    (faithful : parser.Faithful room [] operand) {operator : Token} {sign : OperatorSign}
    (at_operator : operator.kind = .operator sign) (unary : sign.isUnary = true)
    {tokens rest : List Token} {item : Measured} {last : Nat}
    (read : (parts (operand tokens) >>= fun (inner, last, after) =>
      parser.limitHeight (inner.unary sign) operator.position >>= fun tree =>
        .ok (tree, last, after)) = .ok (item, last, rest)) :
    item.height ≤ parser.limit ∧
      ∃ nesting, nesting ≤ room + 1 ∧ Derives [] (operator :: tokens) rest item.tree nesting := by
  rcases bind_eq_ok.mp read with ⟨⟨inner, position, after⟩, readInner, limits⟩
  rcases bind_eq_ok.mp limits with ⟨tree, limited, same⟩
  rcases parser.limitHeight_eq_ok.mp limited with ⟨low, rfl⟩
  simp only [Except.ok.injEq, Prod.mk.injEq] at same
  rcases same with ⟨rfl, -, rfl⟩
  rcases faithful _ _ _ _ readInner with ⟨-, nesting, fits, derives⟩
  exact ⟨low, nesting + 1, Nat.succ_le_succ fits, .sign at_operator unary derives⟩

theorem operandWith_faithful (positive : 0 < parser.limit) {room : Nat}
    {nested : Option (Reader Measured)}
    (faithful : ∀ operand, nested = some operand →
      ∃ smaller, room = smaller + 1 ∧ parser.Faithful smaller [] operand) :
    parser.Faithful room [] (parser.operandWith nested) := by
  intro tokens item last rest read
  cases tokens with
  | nil =>
      rw [parts_operandWith_nil] at read
      cases read
  | cons token tokens =>
      rw [parts_operandWith] at read
      cases at_kind : token.kind with
      | number =>
          simp only [at_kind] at read
          cases readable : numberValue? token.lexeme with
          | none =>
              rw [readable] at read
              cases read
          | some value =>
              rw [readable] at read
              cases read
              exact ⟨positive, 0, Nat.zero_le room, .number at_kind readable⟩
      | text =>
          simp only [at_kind] at read
          cases read
          exact ⟨positive, 0, Nat.zero_le room, .text at_kind⟩
      | boolean =>
          simp only [at_kind] at read
          cases read
          exact ⟨positive, 0, Nat.zero_le room, .boolean at_kind⟩
      | identifier =>
          simp only [at_kind] at read
          exact parser.named_faithful at_kind positive read
      | leftParen =>
          simp only [at_kind] at read
          cases nested with
          | none => cases read
          | some operand =>
              rcases faithful operand rfl with ⟨smaller, rfl, inner⟩
              exact parser.group_faithful inner at_kind read
      | operator sign =>
          simp only [at_kind] at read
          split at read
          · rename_i unary
            cases nested with
            | none => cases read
            | some operand =>
                rcases faithful operand rfl with ⟨smaller, rfl, inner⟩
                exact parser.sign_faithful inner at_kind unary read
          · cases read
      | _ =>
          simp only [at_kind] at read
          cases read

/-- What is read as an operand derives as one. Only groups and signs go on to operands within, which
have one level less. -/
theorem operand_faithful (positive : 0 < parser.limit) (room : Nat) :
    parser.Faithful room [] (parser.operand room) := by
  induction room with
  | zero =>
      apply parser.operandWith_faithful positive
      intro operand absent
      cases absent
  | succ room ih =>
      apply parser.operandWith_faithful positive
      intro operand present
      cases present
      exact ⟨room, rfl, ih⟩

theorem read_whole {tokens : List Token} {tree : Expr} {nesting room : Nat}
    (derives : Derives Tier.all tokens [] tree nesting) (low : tree.height ≤ parser.limit)
    (fits : nesting ≤ room) :
    ∃ last, parts (parser.reader room Tier.all tokens) = .ok (.ofTree tree, last, []) := by
  rcases parser.reader_of_derives derives (by decide) low (stops_nil _) fits with ⟨last, read⟩
  exact ⟨last, read.trans (parser.resume_stop (stops_nil _) room _ last)⟩

theorem run_eq_ok {tokens : List Token} {tree : Expr} (positive : 0 < parser.limit) :
    parser.run tokens = .ok tree ↔
      ∃ nesting, Derives Tier.all tokens [] tree nesting ∧ nesting ≤ parser.limit ∧
        tree.height ≤ parser.limit := by
  rw [run_eq]
  constructor
  · intro read
    split at read
    · cases read
    · rcases bind_eq_ok.mp read with ⟨⟨item, last, rest⟩, readWhole, ends⟩
      obtain ⟨low, nesting, fits, derives⟩ :=
        parser.foldr_faithful (parser.operand_faithful positive parser.limit) Tier.all _ _ _ _
          readWhole
      cases rest with
      | nil =>
          cases ends
          exact ⟨nesting, derives, fits, by rw [← item.height_eq]; exact low⟩
      | cons token rest => cases ends
  · intro derivation
    rcases derivation with ⟨nesting, derives, fits, low⟩
    rcases parser.read_whole derives low fits with ⟨last, read⟩
    rw [if_neg (by simp [derives.ne_nil]), expression_eq, read]
    rfl

end Rulebook.Parser

namespace Rulebook.Grammar

open Rulebook.Expr (Measured)

theorem Derives.nesting_le {tokens : List Token} {tree other : Expr} {nesting otherNesting : Nat}
    (derives : Derives Tier.all tokens [] tree nesting)
    (derivesOther : Derives Tier.all tokens [] other otherNesting) : nesting ≤ otherNesting := by
  apply Nat.le_of_not_lt
  intro exceeds
  let parser : Parser := ⟨max tree.height other.height, 0⟩
  rcases parser.read_whole derivesOther (Nat.le_max_right _ _) (Nat.le_refl _) with ⟨last, read⟩
  obtain ⟨position, refused⟩ := parser.reader_too_deep derives (by decide) (Nat.le_max_left _ _)
    (stops_nil _) exceeds
  rw [read] at refused
  cases refused

/-- A token list is an expression in one way only. -/
theorem Derives.unique {tokens : List Token} {tree other : Expr} {nesting otherNesting : Nat}
    (derives : Derives Tier.all tokens [] tree nesting)
    (derivesOther : Derives Tier.all tokens [] other otherNesting) :
    tree = other ∧ nesting = otherNesting := by
  let parser : Parser := ⟨max tree.height other.height, 0⟩
  obtain ⟨last, read⟩ := parser.read_whole derives (Nat.le_max_left _ _)
    (Nat.le_max_left nesting otherNesting)
  obtain ⟨position, readOther⟩ := parser.read_whole derivesOther (Nat.le_max_right _ _)
    (Nat.le_max_right nesting otherNesting)
  rw [read] at readOther
  have same : Measured.ofTree tree = Measured.ofTree other :=
    congrArg Prod.fst (Except.ok.inj readOther)
  exact ⟨congrArg Measured.tree same,
    Nat.le_antisymm (derives.nesting_le derivesOther) (derivesOther.nesting_le derives)⟩

end Rulebook.Grammar

namespace Rulebook.Expr

open Rulebook.Grammar

end Rulebook.Expr
