import Rulebook.Operator.Shelf
import Rulebook.Proofs.Operator.Answers

/-! Operator tables after any work on them and on their handles.

Steps are listed with the latest first. The steps alone tell which table a handle reaches and what
happened to each table, and what happened to a table tells what it binds. The main statement is that
the tables give just these answers, and that a step changes no table but the one that it acts on. -/

namespace Rulebook

inductive Filling where
  | nothing | standard

namespace Filling

def table : Filling → OperatorSet
  | .nothing => .empty
  | .standard => .standard

def operator? (key : String × Arity) : Filling → Option Operator
  | .nothing => none
  | .standard => Operator.standard.find? fun operator => operator.key = key

theorem get?_table (filling : Filling) (key : String × Arity) :
    filling.table.get? key = filling.operator? key := by
  cases filling with
  | nothing => rfl
  | standard =>
      have distinct : (Operator.standard.map Operator.key).Nodup := by decide
      rw [table, OperatorSet.standard, Roster.get?, Roster.items_ofList distinct, operator?]

end Filling

inductive TableEvent where
  | filled (filling : Filling)
  | registered (operator : Operator)

namespace TableEvent

/-- The operators that were registered since a table was last filled, the latest first. -/
def registrations : List TableEvent → List Operator
  | .registered operator :: earlier => operator :: registrations earlier
  | _ => []

def lastFilling : List TableEvent → Filling
  | [] => .nothing
  | .filled filling :: _ => filling
  | .registered _ :: earlier => lastFilling earlier

/-- The operator last registered for a key since the table was last filled, or else the built-in
one that the table was filled with. -/
def bound (events : List TableEvent) (key : String × Arity) : Option Operator :=
  ((registrations events).find? fun operator => operator.key = key).or
    ((lastFilling events).operator? key)

def apply (table : OperatorSet) : TableEvent → OperatorSet
  | .filled filling => filling.table
  | .registered operator => table.register operator

end TableEvent

def OperatorSet.ofEvents : List TableEvent → OperatorSet
  | [] => .empty
  | event :: earlier => event.apply (ofEvents earlier)

theorem OperatorSet.get?_ofEvents (events : List TableEvent) (key : String × Arity) :
    (ofEvents events).get? key = TableEvent.bound events key := by
  induction events with
  | nil => rfl
  | cons event earlier ih =>
      cases event with
      | filled filling => exact filling.get?_table key
      | registered operator =>
          rw [ofEvents, TableEvent.apply, register, Roster.get?_put, ih, TableEvent.bound,
            TableEvent.bound, TableEvent.registrations, TableEvent.lastFilling, List.find?_cons]
          by_cases same : operator.key = key
          · simp [same]
          · simp [same]

namespace OperatorShelf

inductive Step where
  | create (handle : String) (filling : Filling)
  | share (source handle : String)
  | register (handle : String) (operator : Operator)
  | clear (handle : String)
  | reset (handle : String)

def Step.apply (shelf : OperatorShelf) : Step → OperatorShelf
  | .create handle filling => shelf.create handle filling.table
  | .share source handle => shelf.share source handle
  | .register handle operator => shelf.register handle operator
  | .clear handle => shelf.clear handle
  | .reset handle => shelf.reset handle

def after : List Step → OperatorShelf
  | [] => start
  | step :: earlier => step.apply (after earlier)

def made : List Step → Nat
  | [] => 1
  | .create .. :: earlier => made earlier + 1
  | _ :: earlier => made earlier

/-- The number of the table that a handle reaches after steps. A new table has the next number, and
a handle that is made of another reaches the table of that one. -/
def reached : List Step → String → Option Nat
  | [], handle => if firstHandle = handle then some 0 else none
  | .create new _ :: earlier, handle =>
    if new = handle then some (made earlier) else reached earlier handle
  | .share source new :: earlier, handle =>
    if new = handle then (reached earlier source).or (reached earlier handle)
    else reached earlier handle
  | _ :: earlier, handle => reached earlier handle

/-- A handle that is made of another stays with its table when the other one gets a new table. -/
example : reached [.create "b" .nothing, .share "b" "a", .create "b" .standard] "a" = some 1 := by
  decide

def Step.event? (earlier : List Step) (number : Nat) : Step → Option TableEvent
  | .create _ filling => if made earlier = number then some (.filled filling) else none
  | .share .. => none
  | .register handle operator =>
    if reached earlier handle = some number then some (.registered operator) else none
  | .clear handle => if reached earlier handle = some number then some (.filled .nothing) else none
  | .reset handle => if reached earlier handle = some number then some (.filled .standard) else none

/-- What happened to a table, the latest first. The shared table was filled before all steps. -/
def events : List Step → Nat → List TableEvent
  | [], number => if number = 0 then [.filled .standard] else []
  | step :: earlier, number => (step.event? earlier number).toList ++ events earlier number

theorem reached_lt {steps : List Step} {handle : String} {number : Nat}
    (reaches : reached steps handle = some number) : number < made steps := by
  induction steps generalizing handle with
  | nil =>
      rw [reached] at reaches
      split at reaches
      · cases reaches
        exact Nat.one_pos
      · contradiction
  | cons step earlier ih =>
      cases step with
      | create new filling =>
          rw [reached] at reaches
          split at reaches
          · cases reaches
            exact Nat.lt_succ_self _
          · exact Nat.lt_succ_of_lt (ih reaches)
      | share source new =>
          rw [reached] at reaches
          split at reaches
          · rcases Option.or_eq_some_iff.mp reaches with of_source | ⟨_, before⟩
            · exact ih of_source
            · exact ih before
          · exact ih reaches
      | register | clear | reset => exact ih reaches

section

variable (shelf : OperatorShelf) (handle : String) (f : OperatorSet → OperatorSet)

theorem handles_change : (shelf.change handle f).handles = shelf.handles := by
  rw [change]
  split <;> rfl

theorem length_change : (shelf.change handle f).tables.length = shelf.tables.length := by
  rw [change]
  split
  · exact List.length_modify _ _ _
  · rfl

theorem getElem?_change (number : Nat) :
    (shelf.change handle f).tables[number]? =
      if shelf.handles.lookup? handle = some number then shelf.tables[number]?.map f
      else shelf.tables[number]? := by
  rw [change]
  split
  · rename_i target reaches
    simp only [reaches, Option.some.injEq, List.getElem?_modify]
    split <;> simp
  · rename_i unknown
    simp [unknown]

theorem tables_share (source : String) : (shelf.share source handle).tables = shelf.tables := by
  rw [share]
  split <;> rfl

end

theorem length_after (steps : List Step) : (after steps).tables.length = made steps := by
  induction steps with
  | nil => rfl
  | cons step earlier ih =>
      cases step with
      | create handle filling => simp [after, Step.apply, create, made, ih]
      | share source handle => exact (congrArg List.length (tables_share _ _ _)).trans ih
      | register | clear | reset => exact (length_change _ _ _).trans ih

theorem lookup?_after (steps : List Step) (handle : String) :
    (after steps).handles.lookup? handle = reached steps handle := by
  induction steps generalizing handle with
  | nil =>
      rw [after, start, Directory.lookup?_insert, Directory.lookup?_empty, reached]
  | cons step earlier ih =>
      cases step with
      | create new filling =>
          rw [after, Step.apply, create, Directory.lookup?_insert, length_after, ih, reached]
      | share source new =>
          rw [after, Step.apply, share, reached, ih]
          cases reached earlier source with
          | none => simpa using ih handle
          | some number => rw [Directory.lookup?_insert, ih, Option.some_or]
      | register | clear | reset =>
          exact (congrArg (Directory.lookup? · handle) (handles_change _ _ _)).trans (ih handle)

theorem exists_table {steps : List Step} {handle : String} {number : Nat}
    (reaches : reached steps handle = some number) :
    ∃ table, (after steps).tables[number]? = some table := by
  have there : number < (after steps).tables.length := by
    rw [length_after]
    exact reached_lt reaches
  exact ⟨_, List.getElem?_eq_getElem there⟩

theorem getElem?_change_after (earlier : List Step) (handle : String) (event : TableEvent)
    (number : Nat) :
    ((after earlier).change handle fun table => event.apply table).tables[number]? =
      match if reached earlier handle = some number then some event else none with
      | some event => some (event.apply ((after earlier).tables[number]?.getD .empty))
      | none => (after earlier).tables[number]? := by
  rw [getElem?_change, lookup?_after]
  by_cases reaches : reached earlier handle = some number
  · obtain ⟨table, held⟩ := exists_table reaches
    simp only [if_pos reaches, held, Option.map_some, Option.getD_some]
  · simp only [if_neg reaches]

/-- What one step makes of each table: the event on it, if the step acts on it, and nothing else. -/
theorem getElem?_step (step : Step) (earlier : List Step) (number : Nat) :
    (after (step :: earlier)).tables[number]? =
      match step.event? earlier number with
      | some event => some (event.apply ((after earlier).tables[number]?.getD .empty))
      | none => (after earlier).tables[number]? := by
  cases step with
  | create handle filling =>
      have last := length_after earlier
      rw [after, Step.apply, create, Step.event?]
      by_cases new : made earlier = number
      · subst new
        rw [← last, List.getElem?_concat_length, if_pos rfl]
        rfl
      · simp only [if_neg new]
        rw [List.getElem?_append]
        split
        · rfl
        · rename_i beyond
          rw [List.getElem?_eq_none (Nat.le_of_not_lt beyond), List.getElem?_eq_none]
          rw [List.length_singleton]
          omega
  | share source handle =>
      exact congrArg (fun tables : List OperatorSet => tables[number]?) (tables_share _ _ _)
  | register handle operator =>
      exact getElem?_change_after earlier handle (.registered operator) number
  | clear handle => exact getElem?_change_after earlier handle (.filled .nothing) number
  | reset handle => exact getElem?_change_after earlier handle (.filled .standard) number

theorem getD_after (steps : List Step) (number : Nat) :
    (after steps).tables[number]?.getD .empty = .ofEvents (events steps number) := by
  induction steps with
  | nil => cases number <;> rfl
  | cons step earlier ih =>
      rw [getElem?_step, events]
      cases step.event? earlier number with
      | none => exact ih
      | some event =>
          rw [Option.getD_some, ih]
          rfl

theorem table?_after (steps : List Step) (handle : String) :
    (after steps).table? handle =
      (reached steps handle).map fun number => .ofEvents (events steps number) := by
  rw [table?, lookup?_after]
  cases reaches : reached steps handle with
  | none => rfl
  | some number =>
      obtain ⟨table, held⟩ := exists_table reaches
      have kept := getD_after steps number
      rw [held, Option.getD_some] at kept
      rw [Option.bind_some, held, kept, Option.map_some]

theorem shared_after (steps : List Step) :
    (after steps).shared = .ofEvents (events steps 0) := by
  rw [shared, List.headD_eq_head?_getD, List.head?_eq_getElem?, getD_after]

/-- After any steps, tables answer by their own history: a key stands for the operator last
registered for it through any handle of the table since the table was last filled, or else for the
built-in one that it was filled with. A step that does not act on a table leaves it as it is, through
whichever handle it is reached. -/
theorem tables_follow_history (steps : List Step) :
    ∃ tables : Nat → OperatorSet,
      (∀ handle, (after steps).table? handle = (reached steps handle).map tables) ∧
      (after steps).shared = tables 0 ∧
      (∀ number, (tables number).Answers (TableEvent.bound (events steps number))) ∧
      ∀ step number, step.event? steps number = none →
        ∀ handle, reached (step :: steps) handle = some number →
          (after (step :: steps)).table? handle = some (tables number) := by
  refine ⟨fun number => .ofEvents (events steps number), table?_after steps, shared_after steps,
    fun number => OperatorSet.answers_of_get? (OperatorSet.get?_ofEvents _), ?_⟩
  intro step number apart handle reaches
  rw [table?_after, reaches, Option.map_some, events, apart]
  rfl

end OperatorShelf
end Rulebook
