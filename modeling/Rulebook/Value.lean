import Rulebook.Floating.Arithmetic
import Rulebook.Floating.Decimal
import Rulebook.Text

namespace Rulebook

inductive Value where
  | null
  | boolean (flag : Bool)
  | int (number : Int32)
  | long (number : Int64)
  | single (number : Single)
  | double (number : Double)
  | text (content : String)
  deriving DecidableEq

inductive Value.Kind where
  | null | boolean | int32 | int64 | float32 | float64 | string
  deriving DecidableEq, Repr

def Value.Kind.name : Value.Kind → String
  | .null => "null"
  | .boolean => "boolean"
  | .int32 => "int32"
  | .int64 => "int64"
  | .float32 => "float32"
  | .float64 => "float64"
  | .string => "string"

namespace Value

instance : Inhabited Value := ⟨.null⟩

def kind : Value → Kind
  | .null => .null
  | .boolean _ => .boolean
  | .int _ => .int32
  | .long _ => .int64
  | .single _ => .float32
  | .double _ => .float64
  | .text _ => .string

def isNull (value : Value) : Bool := value.kind = .null

def isInteger (value : Value) : Bool := value.kind = .int32 || value.kind = .int64

def isFloating (value : Value) : Bool := value.kind = .float32 || value.kind = .float64

def isNumeric (value : Value) : Bool := value.isInteger || value.isFloating

def isText (value : Value) : Bool := value.kind = .string

def asBool? : Value → Option Bool
  | .boolean flag => some flag
  | _ => none

def asText? : Value → Option String
  | .text content => some content
  | _ => none

def asInteger? : Value → Option Int
  | .int number => some number.toInt
  | .long number => some number.toInt
  | _ => none

def asDouble? : Value → Option Double
  | .int number => some (.ofInt number.toInt)
  | .long number => some (.ofInt number.toInt)
  | .single number => some number.widen
  | .double number => some number
  | _ => none

def ofInteger? (number : Int) : Option Value :=
  (int32? number).map .int <|> (int64? number).map .long

def writtenOutBound : Int := 10000000000000000

/-- A whole number of moderate size keeps a digit after the point, so that it does not read as an
integer. Any other number has the fewest digits that read back. -/
def floatingText {format : Format} (number : Floating format) : String :=
  match number with
  | .finite negative _ =>
    match number.whole? with
    | some whole =>
      if whole.natAbs < writtenOutBound then
        (if negative then "-" else "") ++ toString whole.natAbs ++ ".0"
      else number.shortest
    | none => number.shortest
  | _ => number.shortest

def render : Value → String
  | .null => "null"
  | .boolean flag => if flag then "true" else "false"
  | .int number => toString number.toInt
  | .long number => toString number.toInt
  | .single number => floatingText number
  | .double number => floatingText number
  | .text content => content

def same : Value → Value → Bool
  | .null, .null => true
  | .boolean a, .boolean b => a == b
  | .int a, .int b => a == b
  | .long a, .long b => a == b
  | .single a, .single b => a.equals b
  | .double a, .double b => a.equals b
  | .text a, .text b => a == b
  | _, _ => false

end Value
end Rulebook
