import Rulebook.Proofs.Expr.Printing
import Rulebook.Proofs.Token.Writing
import Rulebook.Proofs.Value.Written

/-! Decimal literals, printed and read again.

A literal with a point is a floating-point number, and whether its text is one again depends on the
point being printed. It is for every number below the bound for writing whole numbers out. A number
from the bound on is printed as a row of digits, which is an integer or none that can be held, and
an infinite one as a word, which is a name. -/

namespace Rulebook

namespace Token

theorem scan_number {text : String} (number : IsNumber text.toList) :
    Token.scan text = [⟨.number, text, 0⟩, .endingAt (byteLength text.toList)] := by
  obtain ⟨tokens, -, ⟨token, rfl, at_number, lexeme⟩, scanned⟩ :=
    (Cuts.numeral number (by simp)).scan
  suffices first : token.position = 0 by
    rw [scanned, ← at_number, ← lexeme, ← first]
    rfl
  cases written : text.toList with
  | nil => exact absurd written (Scan.IsNumber.ne_nil number)
  | cons c rest =>
      have digit : c.isDigit = true := by
        rw [written] at number
        exact Scan.isDigit_of_isNumber number (List.prefix_refl _)
      have visible : isBlank c = false := by
        have bounds := toNat_of_isDigit digit
        exact isBlank_eq_false (by omega) (by omega)
      rw [scan, written, scanFrom, visible, if_neg Bool.false_ne_true] at scanned
      exact congrArg Token.position (List.cons.inj scanned).1.symm

end Token

namespace Parser

open Rulebook.Expr (parts)

variable (parser : Parser)

theorem parts_reader_single (room : Nat) (tiers : List Tier) (token : Token) :
    parts (parser.reader room tiers [token]) = parts (parser.operand room [token]) := by
  induction tiers with
  | nil => rfl
  | cons tier tiers ih =>
      rw [reader_cons, ih]
      cases read : parts (parser.operand room [token]) with
      | error error => rfl
      | ok reading =>
          rcases reading with ⟨item, last, rest⟩
          have shorter : rest.length < 1 := Expr.shorter_of_parts read
          obtain rfl : rest = [] := List.length_eq_zero_iff.mp (Nat.lt_one_iff.mp shorter)
          rw [ok_bind]
          exact parser.resume_stop (Grammar.stops_nil _) room item last

theorem run_number (lexeme : String) (position : Nat) :
    parser.run [⟨.number, lexeme, position⟩] =
      match numberValue? lexeme with
      | some value => .ok (.literal value .number)
      | none => .error ⟨.badNumber lexeme, position⟩ := by
  rw [run_eq, expression_eq, parts_reader_single, parts_operand, parts_operandWith]
  cases numberValue? lexeme <;> rfl

theorem numberValue?_pointed {text : List Char} (point : '.' ∈ text) :
    numberValue? (String.ofList text) = (Floating.ofText? .double text).map .double := by
  rw [numberValue?, String.toList_ofList, List.contains_iff_mem.mpr point, if_pos rfl]

end Parser

namespace CompiledExpr

def CompilesTo (depth : Nat) (text : String) (tree : Expr) : Prop :=
  compile depth text = .ok (.ofTree text tree)

instance (depth : Nat) (text : String) (tree : Expr) : Decidable (CompilesTo depth text tree) :=
  inferInstanceAs (Decidable (_ = _))

theorem CompilesTo.unique {depth : Nat} {text : String} {tree other : Expr}
    (compiles : CompilesTo depth text tree) (compilesOther : CompilesTo depth text other) :
    tree = other :=
  congrArg CompiledExpr.tree (Except.ok.inj (compiles.symm.trans compilesOther))

theorem compile_number {text : String} (number : IsNumber text.toList) (depth : Nat) :
    compile depth text =
      match Parser.numberValue? text with
      | some value => .ok (.ofTree text (.literal value .number))
      | none => .error (.malformed ⟨.badNumber text, 0⟩) := by
  have body : Tokens.ofList (Token.scan text) =
      ⟨[⟨.number, text, 0⟩], byteLength text.toList⟩ := by
    have count : ∀ token ∈ [(⟨.number, text, 0⟩ : Token)], token.Counts := by
      simp [Token.Counts]
    rw [Token.scan_number number]
    exact Expr.ofList_counting count _
  rw [compile, Expr.ofTokens, body, Parser.run_number]
  cases Parser.numberValue? text <;> rfl

theorem compilesTo_name {id : String} (named : IsName id) (depth : Nat) :
    CompilesTo depth id (.name id) := by
  have spaced : Token.Spaced [id] id.toList := by simpa using Token.Spaced.plain [id]
  exact (Expr.compile_of_cuts (Expr.cuts_name named spaced Token.apart_nil)
    (Nat.le_max_left 1 depth)).2

end CompiledExpr

namespace Expr

open CompiledExpr (CompilesTo)

def floating (number : Double) : Expr := .literal (.double number) .number

variable {whole fraction : List Char} {size : Magnitude .double} {depth : Nat}

theorem floating_injective {number other : Double} (same : floating number = floating other) :
    number = other := by
  cases same
  rfl

theorem compilesTo_floating (digits : Digits whole) (fractional : Digits fraction)
    {number : Double} (read : Floating.ofText? .double (whole ++ '.' :: fraction) = some number)
    (depth : Nat) :
    CompilesTo depth (String.ofList (whole ++ '.' :: fraction)) (floating number) := by
  have form : IsNumber (String.ofList (whole ++ '.' :: fraction)).toList := by
    rw [String.toList_ofList]
    exact .inr ⟨whole, fraction, digits, fractional, rfl⟩
  rw [CompilesTo, CompiledExpr.compile_number form, Parser.numberValue?_pointed (by simp), read]
  rfl

/-- Below the bound for writing whole numbers out a literal reads back. -/
theorem floating_reads_back (small : size.steps < 10 ^ 16 * Format.double.one) (depth : Nat) :
    CompilesTo depth (floating (.finite false size)).render (floating (.finite false size)) := by
  obtain ⟨text, coefficient, places, written, decimal, -, -, none_behind⟩ :=
    Value.floatingText_written false size
  rw [Double.large_whole_iff] at none_behind
  have read := Value.ofText?_floatingText (by decide) (by decide) (.finite false size : Double)
  cases decimal with
  | whole digits => exact absurd (none_behind.mp rfl) (Nat.not_le_of_lt small)
  | pointed digits fractional =>
      rw [written] at read
      have same : (floating (.finite false size)).render = String.ofList _ :=
        String.toList_injective (written.trans String.toList_ofList.symm)
      rw [same]
      exact compilesTo_floating digits fractional read depth

/-- From the bound on a literal is printed in digits only. -/
theorem digits_of_large (large : 10 ^ 16 * Format.double.one ≤ size.steps) :
    Digits (floating (.finite false size)).render.toList := by
  obtain ⟨text, coefficient, places, written, decimal, -, -, none_behind⟩ :=
    Value.floatingText_written false size
  rw [Double.large_whole_iff] at none_behind
  have same : (floating (.finite false size)).render.toList = text := written
  rw [same]
  cases decimal with
  | whole digits => exact digits
  | pointed digits fractional =>
      exact absurd (List.length_eq_zero_iff.mp (none_behind.mpr large)) fractional.1

theorem compile_large (large : 10 ^ 16 * Format.double.one ≤ size.steps) (depth : Nat) :
    CompiledExpr.compile depth (floating (.finite false size)).render =
      match Value.ofInteger? (digitsValue (floating (.finite false size)).render.toList) with
      | some value => .ok (.ofTree (floating (.finite false size)).render (.literal value .number))
      | none => .error (.malformed ⟨.badNumber (floating (.finite false size)).render, 0⟩) := by
  have digits := digits_of_large large
  have value := Parser.numberValue?_digits digits
  rw [String.ofList_toList] at value
  rw [CompiledExpr.compile_number (.inl digits), value]

theorem large_not_floating (large : 10 ^ 16 * Format.double.one ≤ size.steps) (depth : Nat) :
    ¬ CompilesTo depth (floating (.finite false size)).render (floating (.finite false size)) := by
  intro compiles
  rw [CompilesTo, compile_large large] at compiles
  split at compiles
  · rename_i value narrow
    have tree : Expr.literal value .number = floating (.finite false size) :=
      congrArg CompiledExpr.tree (Except.ok.inj compiles)
    obtain ⟨rfl, -⟩ := Expr.literal.inj tree
    exact Value.ofInteger?_ne_double narrow
  · nomatch compiles

/-- A decimal literal is a floating-point number, and its text compiles to the literal again just if
the number is below the bound for writing whole numbers out. The text of an infinite number is a
name instead, and that of a finite one from the bound on an integer, if one holds it. -/
theorem decimal_literal_reprinted (digits : Digits whole) (fractional : Digits fraction)
    (depth : Nat) :
    ∃ number : Double,
      CompilesTo depth (String.ofList (whole ++ '.' :: fraction)) (floating number) ∧
      (CompilesTo depth (floating number).render (floating number) ↔
        number.compare (.ofInt Value.writtenOutBound) = some .lt) ∧
      (number.isInfinite = true →
        CompilesTo depth (floating number).render (.name (floating number).render)) ∧
      (number.isFinite = true → number.compare (.ofInt Value.writtenOutBound) ≠ some .lt →
        Digits (floating number).render.toList ∧
        CompiledExpr.compile depth (floating number).render =
          match Value.ofInteger? (digitsValue (floating number).render.toList) with
          | some value => .ok (.ofTree (floating number).render (.literal value .number))
          | none => .error (.malformed ⟨.badNumber (floating number).render, 0⟩)) := by
  obtain ⟨number, read, sign⟩ := Floating.ofText?_pointed .double digits fractional
  refine ⟨number, compilesTo_floating digits fractional read depth, ?_⟩
  rcases sign with rfl | ⟨size, rfl⟩
  · have word : CompilesTo depth (floating (.infinite false)).render (.name "inf") :=
      CompiledExpr.compilesTo_name (by decide) depth
    refine ⟨?_, fun _ => word, nofun⟩
    constructor
    · intro back
      have same := word.unique back
      contradiction
    · intro below
      exact absurd below Double.infinite_not_below
  · rw [Double.below_bound_iff]
    rcases Nat.lt_or_ge size.steps (10 ^ 16 * Format.double.one) with small | large
    · refine ⟨?_, nofun, fun _ other => absurd ((Double.below_bound_iff size).mpr small) other⟩
      exact iff_of_true (floating_reads_back small depth) small
    · refine ⟨?_, nofun, fun _ _ => ⟨digits_of_large large, compile_large large depth⟩⟩
      exact iff_of_false (large_not_floating large depth) (Nat.not_lt_of_le large)

def tenth : Double := .ofSteps false Format.double.one 10

theorem tenth_reprinted :
    Digits ['0'] ∧ Digits ['1'] ∧ CompilesTo 256 "0.1" (floating tenth) ∧
      (floating tenth).render = "0.1" ∧
      CompilesTo 256 (floating tenth).render (floating tenth) := by
  have zero : Digits ['0'] := by simp [Digits]
  have one : Digits ['1'] := by simp [Digits]
  have literal : CompilesTo 256 "0.1" (floating tenth) := by decide +kernel
  obtain ⟨number, compiles, reads_back, -⟩ := decimal_literal_reprinted zero one 256
  have same : number = tenth := floating_injective (compiles.unique literal)
  rw [same] at reads_back
  exact ⟨zero, one, literal, by decide +kernel, reads_back.mpr (by decide +kernel)⟩

theorem large_literals_reprinted :
    (CompilesTo 256 "10000000000000000.0" (floating (.ofInt 10000000000000000)) ∧
      (floating (.ofInt 10000000000000000)).render = "10000000000000000" ∧
      CompilesTo 256 "10000000000000000" (.literal (.long 10000000000000000) .number)) ∧
    (CompilesTo 256 "10000000000000000000.0" (floating (.ofInt 10000000000000000000)) ∧
      (floating (.ofInt 10000000000000000000)).render = "10000000000000000000" ∧
      CompiledExpr.compile 256 "10000000000000000000" =
        .error (.malformed ⟨.badNumber "10000000000000000000", 0⟩)) ∧
    CompilesTo 256 (String.ofList (List.replicate 310 '9' ++ '.' :: ['0']))
      (floating (.infinite false)) ∧
      (floating (.infinite false)).render = "inf" ∧ CompilesTo 256 "inf" (.name "inf") := by
  refine ⟨by decide +kernel, by decide +kernel, ?_, rfl, by decide +kernel⟩
  have nines : Digits (List.replicate 310 '9') := by
    refine ⟨List.ne_nil_of_length_pos ?_, isDigit_replicate rfl 310⟩
    rw [List.length_replicate]
    decide
  have zero : Digits ['0'] := by simp [Digits]
  exact compilesTo_floating nines zero (by decide +kernel) 256

end Expr
end Rulebook
