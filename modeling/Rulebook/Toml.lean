import Rulebook.Floating

/-!
TOML values, and tables while a document is read. Each table remembers how it came about, since that
decides who may still add to it: a table that a heading declares is declared once, a table that
dotted keys make is added to by dotted keys alone, and a value is closed as soon as it is written.
-/

namespace Rulebook

inductive Toml where
  | boolean (flag : Bool)
  | integer (number : Int64)
  | real (number : Double)
  | string (content : String)
  | moment (content : String)
  | array (items : List Toml)
  | table (entries : List (String × Toml))

instance : Inhabited Toml := ⟨.table []⟩

namespace Toml

inductive Origin where
  | implied | dotted | declared
  deriving DecidableEq, Repr

/-- What stands under a key. A series is an array of tables that headings add to: the tables that
are done, and the entries of the current one. -/
inductive Node where
  | value (written : Toml)
  | table (origin : Origin) (entries : List (String × Node))
  | series (done : List Toml) (current : List (String × Node))

abbrev Entries := List (String × Node)

mutual

def Node.close : Node → Toml
  | .value written => written
  | .table _ entries => .table (Entries.close entries)
  | .series done current => .array (done ++ [.table (Entries.close current)])

def Entries.close : List (String × Node) → List (String × Toml)
  | [] => []
  | (key, node) :: rest => (key, node.close) :: Entries.close rest

end

namespace Entries

def put (key : String) (node : Node) : Entries → Entries
  | [] => [(key, node)]
  | (first, old) :: rest =>
    if first = key then (key, node) :: rest else (first, old) :: put key node rest

def assign (value : Toml) : (path : List String) → Entries → Option Entries
  | [], _ => none
  | [key], entries =>
    match entries.lookup key with
    | none => some (put key (.value value) entries)
    | some _ => none
  | key :: next :: path, entries =>
    match entries.lookup key with
    | none => do
      return put key (.table .dotted (← assign value (next :: path) [])) entries
    | some (.table origin inner) =>
      if origin = .dotted ∨ (origin = .implied ∧ path ≠ []) then do
        return put key (.table origin (← assign value (next :: path) inner)) entries
      else none
    | some (.series done current) =>
      if path = [] then none
      else do
        return put key (.series done (← assign value (next :: path) current)) entries
    | some (.value _) => none

/-- Changes what stands at the end of the path of a heading. Tables that are missing on the way are
implied; of a series the current table is meant. -/
def reach (change : Option Node → Option Node) : (path : List String) → Entries → Option Entries
  | [], _ => none
  | [key], entries => do
    return put key (← change (entries.lookup key)) entries
  | key :: next :: path, entries =>
    match entries.lookup key with
    | none => do
      return put key (.table .implied (← reach change (next :: path) [])) entries
    | some (.table origin inner) => do
      return put key (.table origin (← reach change (next :: path) inner)) entries
    | some (.series done current) => do
      return put key (.series done (← reach change (next :: path) current)) entries
    | some (.value _) => none

def declare : (path : List String) → Entries → Option Entries :=
  reach fun
    | none => some (.table .declared [])
    | some (.table .implied inner) => some (.table .declared inner)
    | some _ => none

def extend : (path : List String) → Entries → Option Entries :=
  reach fun
    | none => some (.series [] [])
    | some (.series done current) => some (.series (done ++ [.table (close current)]) [])
    | some _ => none

def assignUnder (heading path : List String) (value : Toml) (entries : Entries) : Option Entries :=
  if heading.isEmpty then assign value path entries
  else
    reach (fun
      | some (.table origin inner) => (assign value path inner).map (.table origin)
      | some (.series done current) => (assign value path current).map (.series done)
      | _ => none) heading entries

end Entries

end Toml
end Rulebook
