import Rulebook.Toml.Value

namespace Rulebook

namespace Toml

inductive Statement where
  | table (path : List String)
  | series (path : List String)
  | pair (path : List String) (item : Toml)

namespace Statement

def headingPath (brackets : List Char) : Reader (List String) := fun text => do
  let path ← keyPath (skipBlanks text)
  have := path.shorter
  have := skipBlanks_length text
  let rest := skipBlanks path.rest
  have : rest.length ≤ path.rest.length := skipBlanks_length path.rest
  if brackets.isPrefixOf rest then
    return ⟨path.item, rest.drop brackets.length, by rw [List.length_drop]; omega⟩
  else none

def reader : Reader Statement
  | '[' :: '[' :: rest => do
    return ((← headingPath [']', ']'] rest).map .series).behind.behind
  | '[' :: rest => do
    return ((← headingPath [']'] rest).map .table).behind
  | text => do
    return (← Toml.pair (value nestingLimit) text).map fun (path, item) => .pair path item

end Statement

structure Draft where
  entries : Entries := []
  heading : List String := []

namespace Draft

def add (draft : Draft) : Statement → Option Draft
  | .table path => do return ⟨← draft.entries.declare path, path⟩
  | .series path => do return ⟨← draft.entries.extend path, path⟩
  | .pair path item => do
    return { draft with entries := ← draft.entries.assignUnder draft.heading path item }

def read (draft : Draft) (text : List Char) : Option Draft :=
  match skipped : skipGap false text with
  | [] => some draft
  | c :: rest => do
    let statement ← Statement.reader (c :: rest)
    have : statement.rest.length < text.length :=
      Nat.lt_of_lt_of_le statement.shorter (skipped ▸ skipGap_length false text)
    if endsLine statement.rest then read (← draft.add statement.item) statement.rest else none
  termination_by text.length

end Draft

def withoutMark : List Char → List Char
  | '\ufeff' :: rest => rest
  | text => text

def ofText? (text : List Char) : Option (List (String × Toml)) := do
  return Entries.close (← Draft.read {} (withoutMark text)).entries

end Toml
end Rulebook
