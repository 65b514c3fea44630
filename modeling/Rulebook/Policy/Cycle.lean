import Rulebook.Failure
import Rulebook.Policy

/-!
Finding cycles of dependencies.

The search walks from each rule along its dependencies, depth first, and marks a rule while it
stands on the walk and, in another way, once all that it leads to has been walked. A dependency
that stands on the walk closes a cycle. The walk is a list of frames, so that its length costs no
stack, and each step of the search either drops a frame or moves one on.
-/

namespace Rulebook

inductive Mark where
  | onWalk | cleared
  deriving DecidableEq, Repr

abbrev Marks := List (String × Mark)

/-- A rule on the walk, and how many of its dependencies have been looked at. -/
structure Frame where
  rule : String
  cursor : Nat
  deriving DecidableEq, Repr

structure Search where
  marks : Marks
  walk : List Frame
  deriving DecidableEq, Repr

inductive Progress where
  | finished (marks : Marks)
  | cycle (route : List String)
  | onward (next : Search)

namespace RuleGraph

def route (walk : List Frame) (rule : String) : List String :=
  ((walk.map Frame.rule).reverse.dropWhile fun name => name ≠ rule) ++ [rule]

def step (graph : RuleGraph) (search : Search) : Progress :=
  match search.walk with
  | [] => .finished search.marks
  | frame :: below =>
    match (graph.dependencies frame.rule)[frame.cursor]? with
    | none => .onward ⟨(frame.rule, .cleared) :: search.marks, below⟩
    | some dependency =>
      let walk := { frame with cursor := frame.cursor + 1 } :: below
      match search.marks.lookup dependency with
      | some .onWalk => .cycle (route walk dependency)
      | some .cleared => .onward ⟨search.marks, walk⟩
      | none =>
        if graph.has dependency then
          .onward ⟨(dependency, .onWalk) :: search.marks, ⟨dependency, 0⟩ :: walk⟩
        else .onward ⟨search.marks, walk⟩

def walkLoad (graph : RuleGraph) : List Frame → Nat
  | [] => 0
  | frame :: below =>
    (graph.dependencies frame.rule).length - frame.cursor + 1 + graph.walkLoad below

def freshLoad (marks : Marks) : List (String × List String) → Nat
  | [] => 0
  | (rule, dependencies) :: rest =>
    (if marks.lookup rule = none then dependencies.length + 1 else 0) + freshLoad marks rest

def load (graph : RuleGraph) (search : Search) : Nat :=
  graph.walkLoad search.walk + freshLoad search.marks graph.edges.items

theorem freshLoad_mark_le (rule : String) (mark : Mark) (marks : Marks)
    (edges : List (String × List String)) :
    freshLoad ((rule, mark) :: marks) edges ≤ freshLoad marks edges := by
  induction edges with
  | nil => exact Nat.le_refl _
  | cons edge rest ih =>
      simp only [freshLoad, List.lookup_cons]
      by_cases same : edge.1 == rule
      · simp only [same, reduceCtorEq, if_false]
        omega
      · simp only [same]
        omega

theorem freshLoad_mark_fresh {rule : String} (mark : Mark) {marks : Marks}
    {edges : List (String × List String)} {edge : String × List String}
    (fresh : marks.lookup rule = none) (found : edges.find? (fun edge => edge.1 = rule) = some edge) :
    freshLoad ((rule, mark) :: marks) edges + (edge.2.length + 1) ≤ freshLoad marks edges := by
  induction edges with
  | nil => simp at found
  | cons first rest ih =>
      simp only [freshLoad, List.lookup_cons]
      by_cases same : first.1 = rule
      · simp only [List.find?_cons, same, decide_true, Option.some.injEq] at found
        subst found
        have := freshLoad_mark_le rule mark marks rest
        simp only [same, beq_self_eq_true, reduceCtorEq, if_false, fresh, if_true]
        omega
      · simp only [List.find?_cons, same, decide_false] at found
        have := ih found
        simp only [beq_eq_false_iff_ne.2 same]
        omega

theorem dependencies_eq {graph : RuleGraph} {rule : String} {edge : String × List String}
    (found : graph.edges.items.find? (fun edge => edge.1 = rule) = some edge) :
    graph.dependencies rule = edge.2 := by
  simp only [dependencies, Directory.lookup?, Roster.get?, found, Option.map_some, Option.getD_some]

/-- Every step of a search leaves fewer steps to take. -/
theorem load_step {graph : RuleGraph} {search next : Search}
    (h : graph.step search = .onward next) : graph.load next < graph.load search := by
  unfold step at h
  split at h
  · contradiction
  · rename_i frame below walk_eq
    simp only [load, walk_eq, walkLoad]
    split at h
    · obtain rfl := Progress.onward.inj h
      have := freshLoad_mark_le frame.rule .cleared search.marks graph.edges.items
      simp only
      omega
    · rename_i dependency at_cursor
      obtain ⟨inside, -⟩ := List.getElem?_eq_some_iff.1 at_cursor
      simp only at h
      split at h
      · contradiction
      · obtain rfl := Progress.onward.inj h
        simp only [walkLoad]
        omega
      · rename_i fresh
        split at h
        · rename_i exists_rule
          obtain rfl := Progress.onward.inj h
          obtain ⟨edge, found⟩ := Option.isSome_iff_exists.1 exists_rule
          have := freshLoad_mark_fresh .onWalk fresh found
          simp only [walkLoad, dependencies_eq found]
          omega
        · obtain rfl := Progress.onward.inj h
          simp only [walkLoad]
          omega

def run (graph : RuleGraph) (search : Search) : Except (List String) Marks :=
  match _moved : graph.step search with
  | .finished marks => .ok marks
  | .cycle route => .error route
  | .onward next => graph.run next
  termination_by graph.load search
  decreasing_by exact load_step _moved

def searchFrom (graph : RuleGraph) (marks : Marks) (rule : String) :
    Except (List String) Marks :=
  if (marks.lookup rule).isSome then .ok marks
  else graph.run ⟨(rule, .onWalk) :: marks, [⟨rule, 0⟩]⟩

def checkCycles (graph : RuleGraph) : Result Unit :=
  match graph.rules.foldlM graph.searchFrom [] with
  | .ok _ => .ok ()
  | .error route => .error (.circularDependency route)

end RuleGraph
end Rulebook
