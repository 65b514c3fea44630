import Rulebook.Json.Reader

namespace Rulebook

namespace Json

/-- A field that was read, which may be read once only. -/
def once {α : Type} (field : Option α) : Except JsonFault Unit :=
  if field.isSome then .error .mismatched else .ok ()

namespace Reader

variable {α σ : Type}

def fill (item : Reader α) (old : Option α) (put : α → σ) : Reader σ := fun tokens => do
  once old
  return (← afterColon item tokens).map put

def pass (state : σ) : Reader σ := fun tokens => do
  return (← afterColon skip tokens).map fun _ => state

def nextItem (isFirst : Bool) (item : Reader α) (tokens : List JsonToken) :
    Except JsonFault (Reading (Option α) (tokens.length + 1)) :=
  match tokens with
  | .closeArray :: rest => .ok (.stay none (.closeArray :: rest))
  | .comma :: rest =>
    if isFirst then .error .malformed
    else do
      let found ← item rest
      return (found.map some).behind.behind
  | tokens =>
    if isFirst then do
      let found ← item tokens
      return (found.map some).behind
    else .error .malformed

def arrayEnd (tokens : List JsonToken) : Except JsonFault (Reading Unit tokens.length) :=
  match tokens with
  | .closeArray :: rest => .ok (.next () .closeArray rest)
  | _ => .error .malformed

end Reader
end Json

end Rulebook
