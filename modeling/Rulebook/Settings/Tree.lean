import Rulebook.Settings.Scalar
import Rulebook.Text
import Rulebook.Toml

namespace Rulebook

inductive SettingTree where
  | nothing
  | leaf (scalar : Scalar)
  | array (items : List SettingTree)
  | table (entries : List (String × SettingTree))

namespace SettingTree

instance : Inhabited SettingTree := ⟨.nothing⟩

/-- A step into a tree: under a key of a table, or to an item of an array. A negative index counts
from the end. -/
inductive Step where
  | key (name : String)
  | index (number : Int)
  deriving DecidableEq, Repr

abbrev Place := List Step

def entries : SettingTree → List (String × SettingTree)
  | .table entries => entries
  | _ => []

def items : SettingTree → List SettingTree
  | .array items => items
  | _ => []

def changeEntry (key : String) (change : SettingTree → SettingTree) :
    List (String × SettingTree) → List (String × SettingTree)
  | [] => [(key, change .nothing)]
  | (first, old) :: rest =>
    if first = key then (first, change old) :: rest
    else (first, old) :: changeEntry key change rest

/-- Changes an item. An index past either end is reached by items of nothing. -/
def changeItem (change : SettingTree → SettingTree) (items : List SettingTree) :
    (index : Int) → List SettingTree
  | .ofNat index =>
    (items ++ List.replicate (index + 1 - items.length) SettingTree.nothing).modify index change
  | .negSucc back =>
    let reached := List.replicate (back + 1 - items.length) SettingTree.nothing ++ items
    reached.modify (reached.length - (back + 1)) change

def change (change : SettingTree → SettingTree) : Place → SettingTree → SettingTree
  | [], tree => change tree
  | .key name :: place, tree =>
    .table (changeEntry name (SettingTree.change change place) tree.entries)
  | .index number :: place, tree =>
    .array (changeItem (SettingTree.change change place) tree.items number)

mutual

def laidOver : SettingTree → SettingTree → SettingTree
  | .table entries, lower => .table (entriesOver entries lower.entries)
  | upper, _ => upper

def entriesOver :
    List (String × SettingTree) → List (String × SettingTree) → List (String × SettingTree)
  | [], lower => lower
  | (key, upper) :: rest, lower => entriesOver rest (changeEntry key upper.laidOver lower)

end

def put (upper : SettingTree) (place : Place) (tree : SettingTree) : SettingTree :=
  tree.change upper.laidOver place

mutual

def ofToml : Toml → SettingTree
  | .boolean flag => .leaf (.flag flag)
  | .integer number => .leaf (.integer number)
  | .real number => .leaf (.real number)
  | .string content | .moment content => .leaf (.text content)
  | .array items => .array (ofItems items)
  | .table entries => .table (ofEntries entries)

def ofItems : List Toml → List SettingTree
  | [] => []
  | item :: rest => ofToml item :: ofItems rest

def ofEntries : List (String × Toml) → List (String × SettingTree)
  | [] => []
  | (key, item) :: rest => (key, ofToml item) :: ofEntries rest

end

namespace Place

def isKeyPart (c : Char) : Bool := c.isAlphanum || c = '_' || c = '-'

def isIndexPart (c : Char) : Bool := c.isDigit || c = '-'

def stepsOf? : (text : List Char) → Option Place
  | [] => some []
  | '.' :: rest => do
    let name := rest.takeWhile isKeyPart
    let others ← stepsOf? (rest.dropWhile isKeyPart)
    if name.isEmpty then none else some (.key (String.ofList name) :: others)
  | '[' :: rest => do
    let inner := skipBlanks rest
    let number ← int64? (← readInt? (inner.takeWhile isIndexPart))
    match closed : skipBlanks (inner.dropWhile isIndexPart) with
    | ']' :: after => do
      have : after.length < rest.length + 1 := by
        have h := skipBlanks_length (inner.dropWhile isIndexPart)
        have : inner.length ≤ rest.length := skipBlanks_length rest
        have : (inner.dropWhile isIndexPart).length ≤ inner.length :=
          (List.dropWhile_sublist _).length_le
        rw [closed, List.length_cons] at h
        omega
      return .index number.toInt :: (← stepsOf? after)
    | _ => none
  | _ => none
  termination_by text => text.length
  decreasing_by
    · exact Nat.lt_succ_of_le (List.dropWhile_sublist _).length_le
    · exact this

def ofText? (text : List Char) : Option Place := do
  let name := text.takeWhile isKeyPart
  let others ← stepsOf? (text.dropWhile isKeyPart)
  if name.isEmpty then none else some (.key (String.ofList name) :: others)

/-- The place that a text names; a text that is no place names one key. -/
def ofText (text : String) : Place := (ofText? text.toList).getD [.key text]

end Place
end SettingTree
end Rulebook
