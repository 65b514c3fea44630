import Rulebook.Proofs.Steps
import Rulebook.Value.Operations

namespace Rulebook

namespace Value

variable {operator : String} {left right : Value} {result : Result Value}

/-- A result of arithmetic: operands that are no numbers are refused, integers give an integer or
overflow, and other numbers a floating-point one or a fault. -/
inductive Computes (operator : String) (left right : Value) : Result Value → Prop where
  | refused {failure : Failure} (failed : doubles operator left right = .error failure) :
      Computes operator left right (.error failure)
  | integer (number : Int) :
      Computes operator left right (integerResult operator left right number)
  | floating (number : Double) : Computes operator left right (.ok (.double number))
  | fault (fault : ArithmeticFault) :
      Computes operator left right (.error (.arithmetic operator fault))

theorem Computes.of_doubles {next : Double × Double → Result Value}
    (further : ∀ a b, Computes operator left right (next (a, b))) :
    Computes operator left right (doubles operator left right >>= next) := by
  cases read : doubles operator left right with
  | error failure => exact .refused read
  | ok pair => exact further pair.1 pair.2

theorem numeric_computes (operator : String) (whole : Int → Int → Int)
    (floating : Double → Double → Double) (left right : Value) :
    Computes operator left right (numeric operator whole floating left right) := by
  apply Computes.of_doubles
  intro a b
  dsimp only
  split
  · exact .integer _
  · exact .floating _

theorem divide_computes (left right : Value) : Computes "/" left right (divide left right) := by
  apply Computes.of_doubles
  intro a b
  dsimp only
  split
  · exact .fault .zeroDivisor
  · split
    · exact .fault .notANumber
    · split
      · exact .fault .infinite
      · exact .floating _

theorem modulo_computes (left right : Value) : Computes "%" left right (modulo left right) := by
  apply Computes.of_doubles
  intro a b
  dsimp only
  split
  · exact .fault .zeroDivisor
  · split
    · exact .integer _
    · split
      · exact .fault .notANumber
      · exact .floating _

end Value
end Rulebook
