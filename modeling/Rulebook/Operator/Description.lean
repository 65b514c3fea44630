import Rulebook.Operator.Set
import Rulebook.Text.Visible

namespace Rulebook

def quotedChar (c : Char) : List Char :=
  match c with
  | '"' => ['\\', '"']
  | '\\' => ['\\', '\\']
  | '\n' => ['\\', 'n']
  | '\x0d' => ['\\', 'r']
  | '\t' => ['\\', 't']
  | '\x00' => ['\\', '0']
  | _ =>
    if isVisible c then [c]
    else ['\\', 'u', '\x7b'] ++ Nat.toDigits 16 c.toNat ++ ['\x7d']

def quoted (text : String) : String :=
  String.ofList ('"' :: text.toList.flatMap quotedChar ++ ['"'])

def Arity.title : Arity → String
  | .unary => "Unary"
  | .binary => "Binary"

def Category.title : Category → String
  | .arithmetic => "Arithmetic"
  | .comparison => "Comparison"
  | .logical => "Logical"
  | .unary => "Unary"

def Operator.describe (operator : Operator) : String :=
  "Operator \x7b symbol: " ++ quoted operator.symbol ++ ", arity: " ++ operator.arity.title ++
    ", precedence: " ++ toString operator.precedence ++
    ", category: " ++ operator.category.title ++ " \x7d"

def OperatorSet.describe (operators : OperatorSet) : String :=
  "OperatorRegistry \x7b operators: \x7b" ++
    String.join ((operators.symbols.map quoted).intersperse ", ") ++ "\x7d \x7d"

end Rulebook
