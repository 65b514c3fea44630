import Rulebook.Toml
import Rulebook.Toml.Moment
import Rulebook.Toml.Number
import Rulebook.Toml.Text

namespace Rulebook.Toml

def isWordPart (c : Char) : Bool :=
  c.isAlphanum || c = '_' || c = '-' || c = '+' || c = '.' || c = ':'

def ofWord? (word : List Char) : Option Toml :=
  if word = ['t', 'r', 'u', 'e'] then some (.boolean true)
  else if word = ['f', 'a', 'l', 's', 'e'] then some (.boolean false)
  else (integer? word).map .integer <|> (real? word).map .real <|> (moment? word).map .moment

/-- Reads a word. A date and a time of day with one blank between them are one word. -/
def word : Reader (List Char) := fun text => do
  let first ← run isWordPart text
  match split : first.rest with
  | ' ' :: c :: rest =>
    if c.isDigit && (moment? first.item).isSome then do
      have := first.shorter
      let second ← run isWordPart (c :: rest)
      return (second.map fun time => first.item ++ ' ' :: time).widen (by
        rw [split, List.length_cons] at this; omega)
    else return first
  | _ => return first

def pair (value : Reader Toml) : Reader (List String × Toml) := fun text => do
  let path ← keyPath text
  have := path.shorter
  have := skipBlanks_length path.rest
  match split : skipBlanks path.rest with
  | '=' :: rest => do
    have := skipBlanks_length rest
    let item ← value (skipBlanks rest)
    return (item.map fun item => (path.item, item)).widen (by
      simp only [*, List.length_cons] at *; omega)
  | _ => none

theorem shorter_of_skipGap {text rest : List Char} {c : Char}
    (begins : skipGap false text = c :: rest) : rest.length < text.length := by
  have kept := skipGap_length false text
  rw [begins] at kept
  exact kept

def pastGap : Reader Char := fun text =>
  match begins : skipGap false text with
  | [] => none
  | c :: rest => some ⟨c, rest, shorter_of_skipGap begins⟩

def items (value : Reader Toml) : Reader (List Toml) := fun text => do
  let start ← pastGap text
  if start.item = ']' then return start.map fun _ => []
  else
    let first ← value (start.item :: start.rest)
    let follows ← pastGap first.rest
    if follows.item = ']' then
      return start.within (first.within (follows.map fun _ => [first.item]).behind)
    else if follows.item = ',' then
      let others ← items value follows.rest
      let whole := others.map (first.item :: ·)
      return start.within (first.within (follows.within whole.behind).behind)
    else none
  termination_by text => text.length
  decreasing_by
    have := start.shorter
    have := first.shorter
    have := follows.shorter
    simp only [List.length_cons] at *
    omega

def pairs (value : Reader Toml) (entries : Entries) : Reader Entries := fun text => do
  let start ← pastGap text
  if start.item = '}' then return start.map fun _ => entries
  else
    let next ← pair value (start.item :: start.rest)
    let entries ← entries.assign next.item.2 next.item.1
    let follows ← pastGap next.rest
    if follows.item = '}' then
      return start.within (next.within (follows.map fun _ => entries).behind)
    else if follows.item = ',' then
      let whole ← pairs value entries follows.rest
      return start.within (next.within (follows.within whole.behind).behind)
    else none
  termination_by text => text.length
  decreasing_by
    have := start.shorter
    have := next.shorter
    have := follows.shorter
    simp only [List.length_cons] at *
    omega

def valueWith (nested : Option (Reader Toml)) : Reader Toml
  | '[' :: rest => do
    let whole ← items (← nested) rest
    return (whole.map .array).behind
  | '{' :: rest => do
    let whole ← pairs (← nested) [] rest
    return (whole.map fun entries => .table (Entries.close entries)).behind
  | c :: rest =>
    if c = '"' || c = '\'' then do
      return ((← quotedText c rest).map .string).behind
    else do
      let whole ← word (c :: rest)
      let item ← ofWord? whole.item
      return whole.map fun _ => item
  | [] => none

def value : (room : Nat) → Reader Toml
  | 0 => valueWith none
  | room + 1 => valueWith (some (value room))

def nestingLimit : Nat := 80

end Rulebook.Toml
