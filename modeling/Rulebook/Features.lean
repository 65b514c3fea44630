import Rulebook.Expr.Parser
import Rulebook.Json
import Rulebook.Text

/-!
The feature data that expressions read, JSON handed in from outside, and paths into it such as
`user.age` or `items[0].price`.

A path is read whole before it is followed. Following it, a key that is absent ends the path with
nothing at the last segment, and so does an absent array at any subscript; everything else that is
not there is a fault.
-/

namespace Rulebook

structure Features where
  data : Json

namespace Features

def empty : Features := ⟨.object []⟩

instance : Inhabited Features := ⟨empty⟩

def get? (features : Features) (key : String) : Option Json := features.data.get? key

def isEmpty (features : Features) : Bool :=
  match features.data with
  | .object entries => entries.isEmpty
  | .null => true
  | _ => false

end Features

structure Path.Segment where
  raw : String
  key : String
  index : Option String
  deriving DecidableEq, Repr

namespace Path.Segment

def isBracket (c : Char) : Bool := c = '[' || c = ']'

/-- Reads a segment: a key free of brackets, or such a key with one subscript at its end. -/
def ofText (raw : List Char) : Except PathFault Segment :=
  let text := String.ofList raw
  if raw.isEmpty then .error .emptySegment
  else if !raw.any isBracket then .ok ⟨text, text, none⟩
  else
    let key := raw.takeWhile fun c => !isBracket c
    match raw.dropWhile fun c => !isBracket c with
    | '[' :: inner =>
      let index := inner.takeWhile fun c => !isBracket c
      if key.isEmpty || inner.dropWhile (fun c => !isBracket c) ≠ [']'] then
        .error (.badSubscript text)
      else .ok ⟨text, String.ofList key, some (String.ofList index)⟩
    | _ => .error (.badSubscript text)

/-- The whole number that a subscript writes, if it has 64 bits. -/
def position? (index : String) : Option Int :=
  (readInt? (trimBlank index.toList)).bind fun position => (int64? position).map Int64.toInt

end Path.Segment

namespace Path

def relative (path : List Char) : List Char :=
  let root := featureRoot.toList ++ ['.']
  if root.isPrefixOf path then path.drop root.length else path

def segments (path : String) : Except PathFault (List Segment) :=
  if isBlankText path then .error .blank
  else (piecesAt '.' (relative path.toList)).mapM Segment.ofText

def stepKey (key : String) (isLast : Bool) (entries : List (String × Json)) :
    Except PathFault (Option Json) :=
  match entries.lookup key with
  | some found => if found.isNull && !isLast then .error (.missing key) else .ok (some found)
  | none => if isLast then .ok none else .error (.missing key)

def stepIndex (segment : Segment) (index : String) (isLast : Bool)
    (entries : List (String × Json)) : Except PathFault (Option Json) :=
  match entries.lookup segment.key with
  | none | some .null => .ok none
  | some (.array items) =>
    match Segment.position? index with
    | none => .error (.badIndex index)
    | some position =>
      match if 0 ≤ position then items[position.toNat]? else none with
      | none => .error (.outOfRange segment.key position items.length)
      | some item =>
        if item.isNull && !isLast then .error (.nullElement segment.raw) else .ok (some item)
  | some _ => .error (.notAnArray segment.key)

/-- Follows one segment from a node that is known as `parent`. -/
def step (parent : String) (node : Json) (segment : Segment) (isLast : Bool) :
    Except PathFault (Option Json) :=
  match node with
  | .object entries =>
    match segment.index with
    | none => stepKey segment.key isLast entries
    | some index => stepIndex segment index isLast entries
  | _ => .error (.notAnObject parent)

def follow (parent : String) (node : Json) : List Segment → Except PathFault (Option Json)
  | [] => .ok (some node)
  | segment :: rest => do
    match ← step parent node segment rest.isEmpty with
    | none => return none
    | some found => follow segment.raw found rest

end Path

namespace Features

def find (features : Features) (path : String) : Result (Option Json) :=
  let found := do
    let segments ← Path.segments path
    Path.follow featureRoot features.data segments
  found.mapError (.invalidPath path)

def value (features : Features) (path : String) : Result Value := do
  match ← features.find path with
  | none => return .null
  | some node =>
    match Value.ofJson? node with
    | some value => return value
    | none => .error (.invalidPath path .container)

def has (features : Features) (path : String) : Bool :=
  match features.find path with
  | .ok (some node) => !node.isNull
  | _ => false

inductive Shape where
  | object | array
  | scalar (kind : Value.Kind)
  deriving DecidableEq, Repr

def Shape.name : Shape → String
  | .object => "object"
  | .array => "array"
  | .scalar kind => kind.name

def Shape.ofJson? : Json → Option Shape
  | .object _ => some .object
  | .array _ => some .array
  | .null => none
  | other => (Value.ofJson? other).map fun value => .scalar value.kind

def shape (features : Features) (path : String) : Result (Option Shape) := do
  return (← features.find path).bind Shape.ofJson?

/-- Fails with the first path that leads to nothing or to null, or nowhere at all. -/
def requirePaths (features : Features) : List String → Result Unit
  | [] => .ok ()
  | path :: rest => if features.has path then features.requirePaths rest else .error (.missingFeature path)

end Features

end Rulebook
