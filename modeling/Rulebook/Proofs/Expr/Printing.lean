import Rulebook.Proofs.Evaluator
import Rulebook.Proofs.Expr.Numeral
import Rulebook.Proofs.Expr.Recognition
import Rulebook.Proofs.Token.Spacing

/-!
The text of an expression reads back as the expression.

Every binary operation stands in parentheses, so that its text derives without any tier of operators
and can be an operand of any other. A pair of parentheses stands for one node of the tree and a sign
for one as well: the text nests less deep than the tree is high, and what the height allows the
nesting allows too.
-/

namespace Rulebook

structure PathStep where
  name : String
  subscripts : List String
  named : IsName name
  numbered : ∀ digits ∈ subscripts, digits ≠ "" ∧ ∀ c ∈ digits.toList, c.isDigit = true

namespace PathStep

def renderSubscripts (subscripts : List String) : String :=
  String.join (subscripts.map fun digits => "[" ++ digits ++ "]")

def render (step : PathStep) : String := "." ++ step.name ++ renderSubscripts step.subscripts

def renderAll (steps : List PathStep) : String := String.join (steps.map render)

end PathStep

namespace Expr

/-- The expressions that texts without decimal fractions are read as: integers that are not
negative, in the narrowest kind, booleans, text without quotes, names, feature paths, and what
operators make of them. -/
inductive Printable : Expr → Prop where
  | int {number : Int32} (natural : 0 ≤ number.toInt) : Printable (.literal (.int number) .number)
  | long {number : Int64} (wide : 0x7fffffff < number.toInt) :
      Printable (.literal (.long number) .number)
  | boolean (flag : Bool) : Printable (.literal (.boolean flag) .boolean)
  | text {content : String} (unquoted : ∀ c ∈ content.toList, c ≠ '"' ∧ c ≠ '\'') :
      Printable (.literal (.text content) .text)
  | name {id : String} (named : IsName id) : Printable (.name id)
  | feature {steps : List PathStep} (nonempty : steps ≠ []) :
      Printable (.feature (featureRoot ++ PathStep.renderAll steps))
  | unary {sign : OperatorSign} {operand : Expr} (prefixed : sign = .not ∨ sign = .minus)
      (inner : Printable operand) : Printable (.unary sign.symbol operand)
  | binary {sign : OperatorSign} {left right : Expr} (infixed : sign ≠ .not)
      (first : Printable left) (second : Printable right) :
      Printable (.binary left sign.symbol right)

end Expr

namespace Grammar

theorem Derives.loosen {tiers : List Tier} {tokens rest : List Token} {tree : Expr} {nesting : Nat}
    (derives : Derives tiers tokens rest tree nesting) (looser : List Tier) :
    Derives (looser ++ tiers) tokens rest tree nesting := by
  induction looser with
  | nil => exact derives
  | cons tier looser ih => exact .tighter ih

theorem exists_tier {sign : OperatorSign} (infixed : sign ≠ .not) :
    ∃ looser tier tighter, sign.tier? = some tier ∧ Tier.all = looser ++ tier :: tighter := by
  have tiered : ∃ tier, sign.tier? = some tier := by
    cases sign with
    | not => contradiction
    | _ => exact ⟨_, rfl⟩
  rcases tiered with ⟨tier, of_tier⟩
  have member : tier ∈ Tier.all := by cases tier <;> decide
  rcases List.mem_iff_append.mp member with ⟨looser, tighter, all⟩
  exact ⟨looser, tier, tighter, of_tier, all⟩

theorem Derives.operation {operator : Token} {sign : OperatorSign} {tokens middle rest : List Token}
    {left right : Expr} {leftNesting rightNesting : Nat} (infixed : sign ≠ .not)
    (first : Derives [] tokens (operator :: middle) left leftNesting)
    (at_operator : operator.kind = .operator sign)
    (second : Derives [] middle rest right rightNesting) :
    Derives Tier.all tokens rest (.binary left sign.symbol right)
      (max leftNesting rightNesting) := by
  rcases exists_tier infixed with ⟨looser, tier, tighter, of_tier, all⟩
  have first := first.loosen (tier :: tighter)
  have second := second.loosen tighter
  rw [List.append_nil] at first second
  rw [all]
  exact (Derives.binary first at_operator of_tier second).loosen looser

end Grammar

namespace PathStep

open Token (Cuts One Apart Spaced)
open Grammar

variable {rest : List Char}

def subscriptWords (subscripts : List String) : List String :=
  subscripts.flatMap fun digits => ["[", digits, "]"]

def words (step : PathStep) : List String := "." :: step.name :: subscriptWords step.subscripts

theorem renderSubscripts_cons (digits : String) (subscripts : List String) :
    renderSubscripts (digits :: subscripts) =
      "[" ++ digits ++ "]" ++ renderSubscripts subscripts := by
  simp [renderSubscripts, String.join_cons]

theorem apart_subscripts {subscripts : List String} {text : List Char}
    (spaced : Spaced (subscriptWords subscripts) text) (apart : Apart rest) :
    Apart (text ++ rest) := by
  refine spaced.apart ?_ fun _ => apart
  cases subscripts with
  | nil => simp [subscriptWords]
  | cons digits subscripts =>
      rintro word head
      obtain rfl : "[" = word := by simpa [subscriptWords] using head
      simp [Apart, Scan.isNamePart]

theorem apart_steps {steps : List PathStep} {text : List Char}
    (spaced : Spaced (steps.flatMap words) text) (apart : Apart rest) : Apart (text ++ rest) := by
  refine spaced.apart ?_ fun _ => apart
  cases steps with
  | nil => simp
  | cons step steps =>
      rintro word head
      obtain rfl : "." = word := by simpa [words] using head
      simp [Apart, Scan.isNamePart]

theorem cuts_subscripts {subscripts : List String} {text : List Char}
    (numbered : ∀ digits ∈ subscripts, digits ≠ "" ∧ ∀ c ∈ digits.toList, c.isDigit = true)
    (spaced : Spaced (subscriptWords subscripts) text) (apart : Apart rest) :
    Cuts text rest fun tokens =>
      ∀ after, Subscripts (tokens ++ after) after (renderSubscripts subscripts) := by
  induction subscripts generalizing text with
  | nil =>
      cases spaced with
      | done blank =>
          apply (Cuts.blanks blank rest).mono
          rintro _ rfl after
          exact .none
  | cons digits subscripts ih =>
      rcases numbered digits List.mem_cons_self with ⟨nonempty, within⟩
      have numbered_rest := fun other member => numbered other (List.mem_cons_of_mem digits member)
      -- The three words of the first subscript are taken off one by one.
      cases spaced with
      | @word gap _ _ _ blank spaced =>
      cases spaced with
      | @word gapInner _ _ _ blankInner spaced =>
      cases spaced with
      | @word gapClosing further _ _ blankClosing spaced =>
          have behind : Apart (further ++ rest) := apart_subscripts spaced apart
          have closing : Cuts "]".toList (further ++ rest) (One .rightBracket "]") :=
            Cuts.mark rfl rfl rfl (by simp) behind.no_equal
          have inner : Cuts digits.toList (gapClosing ++ ("]".toList ++ further) ++ rest)
              (One .number digits) := by
            apply Cuts.number nonempty within
            refine forall_head?_gap ?_ blankClosing (by decide) (by simp)
            exact fun c blank => ⟨isDigit_of_isBlank blank, ne_of_isBlank blank rfl⟩
          have opening : Cuts "[".toList
              (gapInner ++ (digits.toList ++ (gapClosing ++ ("]".toList ++ further))) ++ rest)
              (One .leftBracket "[") := by
            apply Cuts.mark rfl rfl rfl (by simp)
            refine forall_head?_gap ?_ blankInner nonempty (head_ne_equal_of_digits within)
            exact fun c blank => ne_of_isBlank blank rfl
          have whole := Cuts.spaced blank opening (Cuts.spaced blankInner inner
            (Cuts.spaced blankClosing closing (ih numbered_rest spaced)))
          apply whole.mono
          rintro _ ⟨opening, _, rfl, opens, -, inner, _, rfl, number, lexeme, closing, tokens, rfl,
            closes, -, read⟩ after
          have inside : ∀ token ∈ [inner], token.kind ≠ .rightBracket := by simp [number]
          have single : lexemes [inner] = digits := by simp [lexemes, lexeme]
          have derived := Subscripts.more opens inside closes (read after)
          rwa [single, ← renderSubscripts_cons] at derived

theorem cuts_step {step : PathStep} {text : List Char} (spaced : Spaced step.words text)
    (apart : Apart rest) :
    Cuts text rest fun tokens => ∃ point name subscripts,
      tokens = point :: name :: subscripts ∧ point.kind = .dot ∧ name.kind = .identifier ∧
        name.lexeme = step.name ∧
        ∀ after, Subscripts (subscripts ++ after) after (renderSubscripts step.subscripts) := by
  cases spaced with
  | @word gap _ _ _ blank spaced =>
  cases spaced with
  | @word gapName further _ _ blankName spaced =>
      have behind : Apart (further ++ rest) := apart_subscripts spaced apart
      have name : Cuts step.name.toList (further ++ rest) (One .identifier step.name) :=
        Cuts.name step.named behind
      have point : Cuts ".".toList (gapName ++ (step.name.toList ++ further) ++ rest)
          (One .dot ".") := by
        apply Cuts.mark rfl rfl rfl (by simp)
        refine forall_head?_gap ?_ blankName step.named.ne_empty step.named.head_ne_equal
        exact fun c blank => ne_of_isBlank blank rfl
      have whole := Cuts.spaced blank point
        (Cuts.spaced blankName name (cuts_subscripts step.numbered spaced apart))
      apply whole.mono
      rintro _ ⟨point, _, rfl, dot, -, name, tokens, rfl, identifier, lexeme, read⟩
      exact ⟨point, name, tokens, rfl, dot, identifier, lexeme, read⟩

theorem renderAll_cons (step : PathStep) (steps : List PathStep) :
    renderAll (step :: steps) = "." ++ step.name ++ renderSubscripts step.subscripts ++
      renderAll steps := by
  simp [renderAll, String.join_cons, render]

theorem cuts_steps {steps : List PathStep} {text : List Char} (nonempty : steps ≠ [])
    (spaced : Spaced (steps.flatMap words) text) (apart : Apart rest) :
    Cuts text rest fun tokens => ∀ after, Segments (tokens ++ after) after (renderAll steps) := by
  induction steps generalizing text with
  | nil => contradiction
  | cons step steps ih =>
      rw [List.flatMap_cons] at spaced
      obtain ⟨front, back, rfl, first, further⟩ := spaced.split
      refine (cuts_step first (apart_steps further apart)).append ?_
      cases steps with
      | nil =>
          cases further with
          | done blank =>
              apply (Cuts.blanks blank rest).mono
              rintro _ rfl _ ⟨point, name, subscripts, rfl, dot, identifier, lexeme, derives⟩ after
              have derived := Segments.last dot identifier (derives after)
              rw [lexeme] at derived
              simpa [renderAll, render] using derived
      | cons second more =>
          apply (ih (List.cons_ne_nil second more) further).mono
          rintro others further _ ⟨point, name, subscripts, rfl, dot, identifier, lexeme, derives⟩
            after
          have derived := Segments.more dot identifier (derives (others ++ after)) (further after)
          rw [lexeme, ← renderAll_cons] at derived
          simpa using derived

theorem spaced_renderAll (steps : List PathStep) :
    Spaced (steps.flatMap words) (renderAll steps).toList := by
  have text : (renderAll steps).toList = (steps.flatMap words).flatMap String.toList := by
    simp only [renderAll, String.toList_join, List.flatMap_map, List.flatMap_assoc, render, words,
      renderSubscripts, subscriptWords, String.toList_append, List.flatMap_cons, List.flatMap_nil,
      List.append_nil, List.append_assoc]
  rw [text]
  exact Spaced.plain _

end PathStep

namespace Expr

open Token (Cuts One Apart Spaced)
open Grammar

variable {rest : List Char} {tree : Expr}

def Ends (rest : List Char) : Prop := ∀ next ∈ rest.head?, next = ' ' ∨ next = ')'

theorem Ends.apart (ends : Ends rest) : Apart rest := by
  intro next first
  rcases ends next first with rfl | rfl <;> decide

theorem Ends.no_number (ends : Ends rest) :
    ∀ next ∈ rest.head?, next.isDigit = false ∧ next ≠ '.' := by
  intro next first
  rcases ends next first with rfl | rfl <;> decide

theorem ends_cons (c : Char) (rest : List Char) (stop : c = ' ' ∨ c = ')') : Ends (c :: rest) := by
  intro next first
  cases first
  exact stop

/-- From the tokens the tree derives as an operand, with less nesting than the tree is high,
whatever comes after them if it is no point. -/
def Reads (tree : Expr) (tokens : List Token) : Prop :=
  ∃ nesting < tree.height, ∀ after, after.head?.map Token.kind ≠ some .dot →
    Derives [] (tokens ++ after) after tree nesting

theorem Reads.sign {sign : OperatorSign} {operand : Expr} {operator : Token} {tokens : List Token}
    (at_operator : operator.kind = .operator sign) (unary : sign.isUnary = true)
    (reads : operand.Reads tokens) :
    (Expr.unary sign.symbol operand).Reads (operator :: tokens) := by
  rcases reads with ⟨nesting, low, derives⟩
  refine ⟨nesting + 1, Nat.succ_lt_succ low, ?_⟩
  intro after no_dot
  exact .sign at_operator unary (derives after no_dot)

theorem Reads.group {sign : OperatorSign} {left right : Expr} {opening operator closing : Token}
    {leftTokens rightTokens : List Token} (infixed : sign ≠ .not)
    (opens : opening.kind = .leftParen) (readsLeft : left.Reads leftTokens)
    (at_operator : operator.kind = .operator sign) (readsRight : right.Reads rightTokens)
    (closes : closing.kind = .rightParen) :
    (Expr.binary left sign.symbol right).Reads
      (opening :: (leftTokens ++ operator :: (rightTokens ++ [closing]))) := by
  rcases readsLeft with ⟨leftNesting, leftLow, derivesLeft⟩
  rcases readsRight with ⟨rightNesting, rightLow, derivesRight⟩
  refine ⟨max leftNesting rightNesting + 1, ?_, ?_⟩
  · rw [height]
    omega
  · intro after _
    -- Neither an operator nor a closing parenthesis lets a name before it begin a path.
    have first := derivesLeft (operator :: (rightTokens ++ closing :: after))
      (by simp [at_operator])
    have second := derivesRight (closing :: after) (by simp [closes])
    have derived := Derives.group opens (first.operation infixed at_operator second) closes
    simpa using derived

theorem isName_featureRoot : IsName featureRoot := by decide

theorem cuts_natural {value : Value} (natural : value.Natural) (ends : Ends rest) :
    Cuts value.render.toList rest (literal value .number).Reads := by
  apply (Cuts.number natural.render_ne_empty natural.isDigit ends.no_number).mono
  intro tokens single
  rcases single with ⟨token, rfl, at_number, lexeme⟩
  have readable : Parser.numberValue? token.lexeme = some value := by
    rw [lexeme, natural.read]
  exact ⟨0, Nat.zero_lt_one, fun after _ => .number at_number readable⟩

theorem Printable.head_ne_equal (printable : tree.Printable) :
    ∀ c ∈ tree.render.toList.head?, c ≠ '=' := by
  cases printable with
  | int natural => exact head_ne_equal_of_digits (Value.natural_int natural).isDigit
  | long wide => exact head_ne_equal_of_digits (Value.natural_long wide).isDigit
  | boolean flag => cases flag <;> simp [render, Value.render]
  | text unquoted => simp [render]
  | name named => exact named.head_ne_equal
  | feature nonempty => simp [render, featureRoot]
  | unary prefixed inner => rcases prefixed with rfl | rfl <;> simp [render, OperatorSign.symbol]
  | binary infixed first second => simp [render]

theorem cuts_boolean (flag : Bool) (ends : Ends rest) :
    Cuts (Value.boolean flag).render.toList rest (literal (.boolean flag) .boolean).Reads := by
  have known : (Value.boolean flag).render = "true" ∨ (Value.boolean flag).render = "false" := by
    cases flag <;> simp [Value.render]
  apply (Cuts.boolean known ends.apart).mono
  intro tokens single
  rcases single with ⟨token, rfl, at_boolean, lexeme⟩
  have read : decide (token.lexeme = "true") = flag := by
    rw [lexeme]
    cases flag <;> rfl
  refine ⟨0, Nat.zero_lt_one, ?_⟩
  intro after _
  have derived : Derives [] (token :: after) after _ 0 := .boolean at_boolean
  rw [read] at derived
  exact derived

theorem cuts_text {content : String} (unquoted : ∀ c ∈ content.toList, c ≠ '"' ∧ c ≠ '\'') :
    Cuts (literal (.text content) .text).render.toList rest
      (literal (.text content) .text).Reads := by
  have no_quote : ∀ c ∈ content.toList, Scan.isQuote c = false := by
    intro c member
    have apart := unquoted c member
    simp [Scan.isQuote, apart]
  have text : (literal (.text content) .text).render.toList = '"' :: (content.toList ++ ['"']) := by
    simp [render, Value.render]
  rw [text]
  apply (Cuts.quoted rfl no_quote rest).mono
  intro tokens single
  rcases single with ⟨token, rfl, at_text, rfl⟩
  exact ⟨0, Nat.zero_lt_one, fun after _ => .text at_text⟩

theorem cuts_name {id : String} {text : List Char} (named : IsName id) (spaced : Spaced [id] text)
    (apart : Apart rest) : Cuts text rest (name id).Reads := by
  cases spaced with
  | @word gap further _ _ blank behind =>
      have single : Cuts id.toList (further ++ rest) (One .identifier id) :=
        Cuts.name named (behind.apart nofun fun _ => apart)
      cases behind with
      | done last =>
          apply (Cuts.spaced blank single (Cuts.blanks last rest)).mono
          rintro _ ⟨token, _, rfl, at_name, rfl, rfl⟩
          refine ⟨0, Nat.zero_lt_one, ?_⟩
          intro after no_dot
          exact .name at_name fun path => no_dot path.2

theorem cuts_feature {steps : List PathStep} {text : List Char} (nonempty : steps ≠ [])
    (spaced : Spaced (featureRoot :: steps.flatMap PathStep.words) text) (apart : Apart rest) :
    Cuts text rest (feature (featureRoot ++ PathStep.renderAll steps)).Reads := by
  cases spaced with
  | @word gap further _ _ blank spaced =>
      have root : Cuts featureRoot.toList (further ++ rest) (One .identifier featureRoot) :=
        Cuts.name isName_featureRoot (PathStep.apart_steps spaced apart)
      apply (Cuts.spaced blank root (PathStep.cuts_steps nonempty spaced apart)).mono
      rintro _ ⟨token, tokens, rfl, at_name, at_root, read⟩
      exact ⟨0, Nat.zero_lt_one, fun after _ => .path at_name at_root (read after)⟩

/-- Wherever its text stands, a tree is read from the tokens of it. -/
theorem Printable.cuts (printable : tree.Printable) (ends : Ends rest) :
    Cuts tree.render.toList rest tree.Reads := by
  induction printable generalizing rest with
  | int natural => exact cuts_natural (Value.natural_int natural) ends
  | long wide => exact cuts_natural (Value.natural_long wide) ends
  | boolean flag => exact cuts_boolean flag ends
  | text unquoted => exact cuts_text unquoted
  | @name id named =>
      have spaced : Spaced [id] id.toList := by simpa using Spaced.plain [id]
      exact cuts_name named spaced ends.apart
  | @feature steps nonempty =>
      refine cuts_feature nonempty ?_ ends.apart
      rw [render, String.toList_append]
      exact (PathStep.spaced_renderAll steps).cons featureRoot
  | @unary sign operand prefixed inner ih =>
      have unary : sign.isUnary = true := by
        rcases prefixed with rfl | rfl <;> rfl
      rw [render, String.toList_append]
      refine (Cuts.sign sign ?_).append ?_
      · exact forall_head?_append inner.head_ne_equal ends.apart.no_equal
      apply (ih ends).mono
      intro tokens reads operator single
      rcases single with ⟨operator, rfl, at_operator, -⟩
      exact .sign at_operator unary reads
  | @binary sign left right infixed first second ihFirst ihSecond =>
      have text : (Expr.binary left sign.symbol right).render.toList =
          ['('] ++ (left.render.toList ++ ([' '] ++ (sign.symbol.toList ++ ([' '] ++
            (right.render.toList ++ [')']))))) := by
        simp [render]
      rw [text]
      -- The pieces are cut one by one; what is read of each waits until the last one is cut.
      refine (Cuts.simple rfl rfl (by simp) ?_).append ?_
      · rw [List.append_assoc]
        exact forall_head?_append first.head_ne_equal (by simp)
      refine (ihFirst (ends_cons ' ' _ (.inl rfl))).append ?_
      refine (Cuts.blank rfl _).append ?_
      refine (Cuts.sign sign (by simp)).append ?_
      refine (Cuts.blank rfl _).append ?_
      refine (ihSecond (ends_cons ')' _ (.inr rfl))).append ?_
      apply (Cuts.simple rfl rfl (by simp) ends.apart.no_equal).mono
      intro _ at_closing rightTokens readsRight _ blank _ at_sign _ space leftTokens readsLeft
        _ at_opening
      rcases at_opening with ⟨opening, rfl, opens, -⟩
      rcases at_sign with ⟨operator, rfl, at_operator, -⟩
      rcases at_closing with ⟨closing, rfl, closes, -⟩
      subst blank space
      exact .group infixed opens readsLeft at_operator readsRight closes

theorem ofList_counting {tokens : List Token} (count : ∀ token ∈ tokens, token.Counts)
    (position : Nat) : Tokens.ofList (tokens ++ [.endingAt position]) = ⟨tokens, position⟩ := by
  have valid : (tokens ++ [Token.endingAt position]).filter (fun token => token.kind ≠ .invalid) =
      tokens ++ [Token.endingAt position] := by
    rw [List.filter_eq_self]
    intro token member
    rcases List.mem_append.mp member with earlier | last
    · simpa using (count token earlier).1
    · rw [List.mem_singleton] at last
      simp [last, Token.endingAt]
  have proper : ∀ token ∈ tokens, decide (token.kind ≠ .ending) = true := by
    intro token member
    simpa using (count token member).2
  have no_other : tokens.find? (fun token => token.kind = .ending) = none := by
    rw [List.find?_eq_none]
    intro token member
    simpa using (count token member).2
  simp only [Tokens.ofList]
  rw [valid, List.takeWhile_append_of_pos proper, List.find?_append, no_other]
  simp [Token.endingAt]

theorem ofList_filter (tokens : List Token) :
    Tokens.ofList (tokens.filter fun token => token.kind ≠ .invalid) = Tokens.ofList tokens := by
  rw [Tokens.ofList, Tokens.ofList, List.filter_filter]
  simp only [Bool.and_self]

theorem compile_of_cuts {tree : Expr} {text : String} (cuts : Cuts text.toList [] tree.Reads)
    {depth : Nat} (fits : tree.height ≤ max 1 depth) :
    Expr.ofTokens depth (Token.scan text) = .ok tree ∧
      CompiledExpr.compile depth text = .ok (.ofTree text tree) := by
  rcases cuts.scan with ⟨tokens, count, ⟨nesting, low, derives⟩, scanned⟩
  have derived : Derives [] tokens [] tree nesting := by
    simpa using derives [] (by simp)
  have read : Expr.ofTokens depth (Token.scan text) = .ok tree := by
    rw [scanned, ofTokens, ofList_counting count]
    have positive : 0 < max 1 depth := Nat.lt_of_lt_of_le Nat.zero_lt_one (Nat.le_max_left 1 depth)
    refine (Parser.run_eq_ok ⟨max 1 depth, _⟩ positive).mpr ⟨nesting, ?_, ?_, fits⟩
    · simpa using derived.loosen Tier.all
    · exact Nat.le_trans (Nat.le_of_lt low) fits
  exact ⟨read, CompiledExpr.compile_eq_ok.mpr ⟨tree, read, rfl⟩⟩

/-- The text of a tree compiles to the tree, even with a limit as low as the tree is high. -/
theorem compile_render {tree : Expr} (printable : tree.Printable) {depth : Nat}
    (fits : tree.height ≤ depth) :
    Expr.ofTokens depth (Token.scan tree.render) = .ok tree ∧
      CompiledExpr.compile depth tree.render = .ok (.ofTree tree.render tree) := by
  have nothing : Ends [] := by simp [Ends]
  have limit : depth ≤ max 1 depth := Nat.le_max_right 1 depth
  exact compile_of_cuts (printable.cuts nothing) (Nat.le_trans fits limit)

def scorePath : List PathStep :=
  [⟨"user", [], by decide, by simp⟩, ⟨"scores", ["0", "12"], by decide, by simp⟩]

def scoreCheck : Expr :=
  .binary (.unary OperatorSign.not.symbol (.unary OperatorSign.not.symbol (.name featureRoot)))
    OperatorSign.and.symbol
    (.binary (.feature (featureRoot ++ PathStep.renderAll scorePath))
      OperatorSign.greaterEqual.symbol
      (.unary OperatorSign.minus.symbol (.literal (.long 3000000000) .number)))

theorem scoreCheck_reads_back :
    scoreCheck.render = "(!!featureMap && (featureMap.user.scores[0][12] >= -3000000000))" ∧
      scoreCheck.height = 4 ∧
      Expr.ofTokens 4 (Token.scan scoreCheck.render) = .ok scoreCheck ∧
      CompiledExpr.compile 4 scoreCheck.render = .ok (.ofTree scoreCheck.render scoreCheck) := by
  have printable : scoreCheck.Printable :=
    .binary (by decide) (.unary (.inl rfl) (.unary (.inl rfl) (.name isName_featureRoot)))
      (.binary (by decide) (.feature (by decide)) (.unary (.inr rfl) (.long (by decide))))
  exact ⟨by decide +kernel, rfl, compile_render printable (Nat.le_refl 4)⟩

end Expr
end Rulebook
