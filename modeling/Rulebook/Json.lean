import Rulebook.Value

namespace Rulebook

/-- A JSON value. A number is an integer where it is written as one and fits 64 bits, with a sign
or without; any other number is a floating-point one. -/
inductive Json where
  | null
  | boolean (flag : Bool)
  | integer (number : Int)
  | real (number : Double)
  | string (content : String)
  | array (items : List Json)
  | object (entries : List (String × Json))

namespace Json

instance : Inhabited Json := ⟨.null⟩

def isNull : Json → Bool
  | .null => true
  | _ => false

def get? : Json → String → Option Json
  | .object entries, key => entries.lookup key
  | _, _ => none

def insertEntry (key : String) (value : Json) : List (String × Json) → List (String × Json)
  | [] => [(key, value)]
  | (first, old) :: rest =>
    if key < first then (key, value) :: (first, old) :: rest
    else if key = first then (key, value) :: rest
    else (first, old) :: insertEntry key value rest

def ofEntries (entries : List (String × Json)) : Json :=
  .object (entries.foldl (fun sorted (key, value) => insertEntry key value sorted) [])

def hexDigit (n : Nat) : Char := (Nat.digitChar n)

def escape (c : Char) : List Char :=
  if c = '"' then ['\\', '"']
  else if c = '\\' then ['\\', '\\']
  else if c = '\x08' then ['\\', 'b']
  else if c = '\x0c' then ['\\', 'f']
  else if c = '\n' then ['\\', 'n']
  else if c = '\x0d' then ['\\', 'r']
  else if c = '\t' then ['\\', 't']
  else if c.toNat < 0x20 then
    ['\\', 'u', '0', '0', hexDigit (c.toNat / 16), hexDigit (c.toNat % 16)]
  else [c]

def renderText (content : String) : String :=
  String.ofList ('"' :: content.toList.flatMap escape ++ ['"'])

mutual

def render : Json → String
  | .null => "null"
  | .boolean flag => if flag then "true" else "false"
  | .integer number => toString number
  | .real number => if number.isFinite then Value.floatingText number else "null"
  | .string content => renderText content
  | .array items => "[" ++ renderItems items ++ "]"
  | .object entries => "\x7b" ++ renderEntries entries ++ "\x7d"

def renderItems : List Json → String
  | [] => ""
  | [item] => item.render
  | item :: rest => item.render ++ "," ++ renderItems rest

def renderEntries : List (String × Json) → String
  | [] => ""
  | [(key, value)] => renderText key ++ ":" ++ value.render
  | (key, value) :: rest => renderText key ++ ":" ++ value.render ++ "," ++ renderEntries rest

end

end Json

namespace Value

/-- The value of a JSON scalar. Containers have none. An integer takes the narrower kind that holds
it, and past 64 bits with a sign it becomes a floating-point number. -/
def ofJson? : Json → Option Value
  | .null => some .null
  | .boolean flag => some (.boolean flag)
  | .integer number => some ((ofInteger? number).getD (.double (.ofInt number)))
  | .real number => some (.double number)
  | .string content => some (.text content)
  | .array _ | .object _ => none

/-- A value as JSON. What is no finite number becomes null. -/
def toJson : Value → Json
  | .null => .null
  | .boolean flag => .boolean flag
  | .int number => .integer number.toInt
  | .long number => .integer number.toInt
  | .single number => if number.isFinite then .real number.widen else .null
  | .double number => if number.isFinite then .real number else .null
  | .text content => .string content

end Value
end Rulebook
