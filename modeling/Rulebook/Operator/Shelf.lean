import Rulebook.Operator.Set

/-!
Operator tables that are shared and changed. A table holds a set of operators and is reached
through handles; handles of one table see each other's changes, and a change of one table is never
seen through a handle of another.
-/

namespace Rulebook

/-- Tables, by number, and handles, each with the number of its table. The table of number zero is
the one that all share; a handle of it can be made to reach another, and it stays. -/
structure OperatorShelf where
  tables : List OperatorSet
  handles : Directory Nat

namespace OperatorShelf

def firstHandle : String := "global"

def start : OperatorShelf :=
  ⟨[.standard], Directory.insert (Roster.empty _) firstHandle 0⟩

instance : Inhabited OperatorShelf := ⟨start⟩

def shared (shelf : OperatorShelf) : OperatorSet := shelf.tables.headD .empty

def table? (shelf : OperatorShelf) (handle : String) : Option OperatorSet :=
  (Directory.lookup? shelf.handles handle).bind fun number => shelf.tables[number]?

def table (shelf : OperatorShelf) (handle : String) : OperatorSet :=
  (shelf.table? handle).getD .empty

def create (shelf : OperatorShelf) (handle : String) (table : OperatorSet) : OperatorShelf :=
  ⟨shelf.tables ++ [table], Directory.insert shelf.handles handle shelf.tables.length⟩

def share (shelf : OperatorShelf) (source handle : String) : OperatorShelf :=
  match Directory.lookup? shelf.handles source with
  | some number => { shelf with handles := Directory.insert shelf.handles handle number }
  | none => shelf

def change (shelf : OperatorShelf) (handle : String) (f : OperatorSet → OperatorSet) :
    OperatorShelf :=
  match Directory.lookup? shelf.handles handle with
  | some number => { shelf with tables := shelf.tables.modify number f }
  | none => shelf

def register (shelf : OperatorShelf) (handle : String) (operator : Operator) : OperatorShelf :=
  shelf.change handle fun table => table.register operator

def clear (shelf : OperatorShelf) (handle : String) : OperatorShelf :=
  shelf.change handle fun _ => .empty

def reset (shelf : OperatorShelf) (handle : String) : OperatorShelf :=
  shelf.change handle fun _ => .standard

end OperatorShelf
end Rulebook
