import Rulebook.Json.Token
import Rulebook.Reading

namespace Rulebook

inductive JsonFault where
  | malformed | mismatched
  deriving DecidableEq, Repr

namespace Json

abbrev Reading (α : Type) (bound : Nat) := Rulebook.Reading JsonToken α bound

abbrev Reader (α : Type) :=
  (tokens : List JsonToken) → Except JsonFault (Reading α tokens.length)

namespace Reader

variable {α σ : Type}

/-- Refuses what stands next. It is a mismatch if a value stands there, or begins there. -/
def refuse {β : Type} : List JsonToken → Except JsonFault β
  | [] => .error .malformed
  | token :: _ =>
    match token with
    | .text (some _) | .boolean _ | .null | .openArray | .openObject => .error .mismatched
    | .number numeral =>
      if numeral.value?.isSome then .error .mismatched else .error .malformed
    | _ => .error .malformed

def single (accept : JsonToken → Option α) : Reader α
  | [] => refuse []
  | token :: rest =>
    match accept token with
    | some item => .ok (.next item token rest)
    | none => refuse (token :: rest)

def string : Reader String := single fun
  | .text content => content
  | _ => none

def boolean : Reader Bool := single fun
  | .boolean flag => some flag
  | _ => none

def natural : Reader Nat := single fun
  | .number numeral => numeral.integer?.bind fun number => if 0 ≤ number then some number.toNat else none
  | _ => none

def scalar : Reader Json := single fun
  | .text content => content.map .string
  | .boolean flag => some (.boolean flag)
  | .null => some .null
  | .number numeral => numeral.value?
  | _ => none

def moreItems (item : Reader α) :
    (tokens : List JsonToken) → Except JsonFault (Reading (List α) tokens.length)
  | .closeArray :: rest => .ok (.next [] .closeArray rest)
  | .comma :: rest => do
    let first ← item rest
    let others ← moreItems item first.rest
    return (first.within (others.map (first.item :: ·)).behind).behind
  | _ => .error .malformed
  termination_by tokens => tokens.length
  decreasing_by exact Nat.lt_succ_of_lt first.shorter

def items (item : Reader α) : Reader (List α)
  | .openArray :: .closeArray :: rest => .ok (Reading.next [] .closeArray rest).behind
  | .openArray :: rest => do
    let first ← item rest
    let others ← moreItems item first.rest
    return (first.within (others.map (first.item :: ·)).behind).behind
  | tokens => refuse tokens

def afterColon (item : Reader α) : Reader α
  | .colon :: rest => do
    let value ← item rest
    return value.behind
  | _ => .error .malformed

/-- What an entry does to what has been read of an object, given the key it has. The tokens begin
after the key. -/
abbrev Entry (σ : Type) := σ → String → Reader σ

def moreEntries (entry : Entry σ) (state : σ) : Reader σ
  | .closeObject :: rest => .ok (.next state .closeObject rest)
  | .comma :: .text (some key) :: rest => do
    let next ← entry state key rest
    let whole ← moreEntries entry next.item next.rest
    return (next.within whole.behind).behind.behind
  | _ => .error .malformed
  termination_by tokens => tokens.length
  decreasing_by exact Nat.lt_succ_of_lt (Nat.lt_succ_of_lt next.shorter)

def object (entry : Entry σ) (start : σ) : Reader σ
  | .openObject :: .closeObject :: rest =>
    .ok (Reading.next start .closeObject rest).behind
  | .openObject :: .text (some key) :: rest => do
    let first ← entry start key rest
    let whole ← moreEntries entry first.item first.rest
    return (first.within whole.behind).behind.behind
  | .openObject :: _ => .error .malformed
  | tokens => refuse tokens

inductive Place where
  | value | firstItem | firstKey | key | colon | after
  deriving DecidableEq, Repr

/-- Passes over one value of any shape and depth. `arrays` says of each open container, the innermost
first, whether it is an array. -/
def skipFrom (place : Place) (arrays : List Bool) :
    (tokens : List JsonToken) → Except JsonFault (Reading Unit tokens.length)
  | [] => .error .malformed
  | token :: rest =>
    let onward (place : Place) (arrays : List Bool) :
        Except JsonFault (Reading Unit (rest.length + 1)) := do
      match place, arrays with
      | .after, [] => .ok (.stay () rest)
      | place, arrays =>
        let whole ← skipFrom place arrays rest
        return whole.behind
    match place, token, arrays with
    | .firstItem, .closeArray, _ :: outer => onward .after outer
    | .value, .openArray, arrays | .firstItem, .openArray, arrays => onward .firstItem (true :: arrays)
    | .value, .openObject, arrays | .firstItem, .openObject, arrays =>
      onward .firstKey (false :: arrays)
    | .value, .text _, arrays | .firstItem, .text _, arrays => onward .after arrays
    | .value, .number _, arrays | .firstItem, .number _, arrays => onward .after arrays
    | .value, .boolean _, arrays | .firstItem, .boolean _, arrays => onward .after arrays
    | .value, .null, arrays | .firstItem, .null, arrays => onward .after arrays
    | .firstKey, .closeObject, _ :: outer => onward .after outer
    | .firstKey, .text _, arrays | .key, .text _, arrays => onward .colon arrays
    | .colon, .colon, arrays => onward .value arrays
    | .after, .comma, true :: outer => onward .value (true :: outer)
    | .after, .comma, false :: outer => onward .key (false :: outer)
    | .after, .closeArray, true :: outer => onward .after outer
    | .after, .closeObject, false :: outer => onward .after outer
    | _, _, _ => .error .malformed

def skip : Reader Unit := skipFrom .value []

def valueWith (nested : Option (Reader Json)) : Reader Json
  | .openArray :: rest =>
    match nested with
    | none => .error .malformed
    | some item => do
      let whole ← items item (.openArray :: rest)
      return whole.map .array
  | .openObject :: rest =>
    match nested with
    | none => .error .malformed
    | some item => do
      let entry : Entry (List (String × Json)) := fun entries key tokens => do
        let value ← afterColon item tokens
        return value.map (insertEntry key · entries)
      let whole ← object entry [] (.openObject :: rest)
      return whole.map .object
  | tokens => scalar tokens

def value : (room : Nat) → Reader Json
  | 0 => valueWith none
  | room + 1 => valueWith (some (value room))

def run (item : Reader α) (text : String) : Except JsonFault α := do
  let whole ← item (JsonToken.scan text.toList)
  if whole.rest.isEmpty then return whole.item else .error .malformed

end Reader

def nestingLimit : Nat := 127

def ofText (text : String) : Except JsonFault Json := (Reader.value nestingLimit).run text

end Json
end Rulebook
