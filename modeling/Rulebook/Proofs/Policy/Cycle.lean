import Rulebook.Proofs.Policy.Search
import Rulebook.Proofs.Steps

namespace Rulebook

variable {graph : RuleGraph}

namespace RuleGraph

theorem run_eq (graph : RuleGraph) (search : Search) :
    graph.run search = match graph.step search with
      | .finished marks => .ok marks
      | .cycle route => .error route
      | .onward next => graph.run next := by
  rw [run]
  split <;> rename_i stepped <;> rw [stepped]

theorem Steps.marked {search next : Search} {rule : String}
    (steps : graph.Steps search (.onward next)) (marked : search.marks.lookup rule ≠ none) :
    next.marks.lookup rule ≠ none := by
  cases steps with
  | skip => exact marked
  | clear | enter =>
      simp only
      rw [lookup_mark]
      split
      · exact Option.some_ne_none _
      · exact marked

theorem run_ok {search : Search} {marks : Marks} (sound : search.Sound graph)
    (ended : graph.run search = .ok marks) :
    Search.Sound graph ⟨marks, []⟩ ∧
      ∀ rule, search.marks.lookup rule ≠ none → marks.lookup rule ≠ none := by
  induction search using run.induct graph with
  | case1 search left stepped =>
      have steps := graph.steps_step search
      rw [run_eq, stepped] at ended
      rw [stepped] at steps
      cases ended
      cases steps
      exact ⟨sound, fun _ marked => marked⟩
  | case2 search route stepped =>
      rw [run_eq, stepped] at ended
      contradiction
  | case3 search next stepped ih =>
      have steps := graph.steps_step search
      rw [stepped] at steps
      rw [run_eq, stepped] at ended
      rcases ih (sound.of_steps steps) ended with ⟨left, marked⟩
      exact ⟨left, fun rule before => marked rule (steps.marked before)⟩

theorem run_error {search : Search} {found : List String} (sound : search.Sound graph)
    (ended : graph.run search = .error found) : graph.IsLoop found := by
  induction search using run.induct graph with
  | case1 search left stepped =>
      rw [run_eq, stepped] at ended
      contradiction
  | case2 search route stepped =>
      have steps := graph.steps_step search
      rw [run_eq, stepped] at ended
      rw [stepped] at steps
      cases ended
      cases steps with
      | close next marked => exact sound.isLoop_route (List.mem_of_getElem? next) marked
  | case3 search next stepped ih =>
      have steps := graph.steps_step search
      rw [stepped] at steps
      rw [run_eq, stepped] at ended
      exact ih (sound.of_steps steps) ended

theorem sound_start {marks : Marks} {rule : String} (sound : Search.Sound graph ⟨marks, []⟩)
    (exist : graph.has rule = true) (fresh : marks.lookup rule = none) :
    Search.Sound graph ⟨(rule, .onWalk) :: marks, [⟨rule, 0⟩]⟩ :=
  sound.push exist fresh rfl trivial

theorem searchFrom_marked {marks : Marks} {rule : String} (marked : marks.lookup rule ≠ none) :
    graph.searchFrom marks rule = .ok marks := by
  rw [searchFrom, if_pos (Option.isSome_iff_ne_none.mpr marked)]

theorem searchFrom_fresh {marks : Marks} {rule : String} (fresh : marks.lookup rule = none) :
    graph.searchFrom marks rule = graph.run ⟨(rule, .onWalk) :: marks, [⟨rule, 0⟩]⟩ := by
  rw [searchFrom, fresh]
  rfl

theorem searchFrom_ok {marks left : Marks} {rule : String}
    (sound : Search.Sound graph ⟨marks, []⟩) (exist : graph.has rule = true)
    (ended : graph.searchFrom marks rule = .ok left) :
    Search.Sound graph ⟨left, []⟩ ∧ left.lookup rule ≠ none ∧
      ∀ other, marks.lookup other ≠ none → left.lookup other ≠ none := by
  by_cases fresh : marks.lookup rule = none
  · rw [searchFrom_fresh fresh] at ended
    rcases run_ok (sound_start sound exist fresh) ended with ⟨after, kept⟩
    refine ⟨after, kept rule ?_, ?_⟩
    · rw [lookup_mark, if_pos rfl]
      exact Option.some_ne_none _
    · intro other before
      apply kept other
      rw [lookup_mark]
      split
      · exact Option.some_ne_none _
      · exact before
  · rw [searchFrom_marked fresh] at ended
    cases ended
    exact ⟨sound, fresh, fun _ before => before⟩

theorem searchFrom_error {marks : Marks} {rule : String} {found : List String}
    (sound : Search.Sound graph ⟨marks, []⟩) (exist : graph.has rule = true)
    (ended : graph.searchFrom marks rule = .error found) : graph.IsLoop found := by
  by_cases fresh : marks.lookup rule = none
  · rw [searchFrom_fresh fresh] at ended
    exact run_error (sound_start sound exist fresh) ended
  · rw [searchFrom_marked fresh] at ended
    contradiction

theorem search_ok {rules : List String} {marks left : Marks}
    (exist : ∀ rule ∈ rules, graph.has rule = true) (sound : Search.Sound graph ⟨marks, []⟩)
    (ended : rules.foldlM graph.searchFrom marks = .ok left) :
    Search.Sound graph ⟨left, []⟩ ∧ (∀ rule ∈ rules, left.lookup rule ≠ none) ∧
      ∀ other, marks.lookup other ≠ none → left.lookup other ≠ none := by
  induction rules generalizing marks with
  | nil =>
      cases ended
      exact ⟨sound, nofun, fun _ before => before⟩
  | cons rule rest ih =>
      rw [List.foldlM_cons, bind_eq_ok] at ended
      rcases ended with ⟨between, first, later⟩
      rcases searchFrom_ok sound (exist rule List.mem_cons_self) first with ⟨middle, here, kept⟩
      rcases ih (fun other member => exist other (List.mem_cons_of_mem rule member)) middle later
        with ⟨after, there, onward⟩
      refine ⟨after, ?_, fun other before => onward other (kept other before)⟩
      intro other member
      rcases List.mem_cons.mp member with rfl | further
      · exact onward other here
      · exact there other further

theorem search_error {rules : List String} {marks : Marks} {found : List String}
    (exist : ∀ rule ∈ rules, graph.has rule = true) (sound : Search.Sound graph ⟨marks, []⟩)
    (ended : rules.foldlM graph.searchFrom marks = .error found) : graph.IsLoop found := by
  induction rules generalizing marks with
  | nil => contradiction
  | cons rule rest ih =>
      rw [List.foldlM_cons, bind_eq_error] at ended
      rcases ended with first | ⟨between, first, later⟩
      · exact searchFrom_error sound (exist rule List.mem_cons_self) first
      · have middle := (searchFrom_ok sound (exist rule List.mem_cons_self) first).1
        exact ih (fun other member => exist other (List.mem_cons_of_mem rule member)) middle later

theorem sound_empty : Search.Sound graph ⟨[], []⟩ where
  exist := fun _ marked => absurd rfl marked
  distinct := List.nodup_nil
  onWalk := by simp
  walks := trivial
  closed := nofun
  acyclic := nofun

theorem checkCycles_ok (ended : graph.checkCycles = .ok ()) : graph.Acyclic := by
  rw [checkCycles] at ended
  split at ended
  · rename_i left searched
    have exist : ∀ rule ∈ graph.rules, graph.has rule = true := fun _ => has_iff.mpr
    rcases search_ok exist sound_empty searched with ⟨sound, marked, -⟩
    intro rule cyclic
    rcases Relation.TransGen.head'_iff.mp cyclic with ⟨next, edge, -⟩
    have cleared := sound.cleared (marked rule (has_iff.mp edge.1))
    exact sound.acyclic rule cleared cyclic
  · contradiction

theorem checkCycles_error {failure : Failure} (ended : graph.checkCycles = .error failure) :
    ∃ route, failure = .circularDependency route ∧ graph.IsLoop route := by
  rw [checkCycles] at ended
  split at ended
  · contradiction
  · rename_i route searched
    rw [Except.error.injEq] at ended
    exact ⟨route, ended.symm, search_error (fun _ => has_iff.mpr) sound_empty searched⟩

theorem checkCycles_eq_ok : graph.checkCycles = .ok () ↔ graph.Acyclic := by
  constructor
  · exact checkCycles_ok
  · intro acyclic
    cases ended : graph.checkCycles with
    | ok => rfl
    | error failure =>
        rcases checkCycles_error ended with ⟨route, -, loop⟩
        rcases loop.transGen with ⟨rule, cyclic⟩
        exact absurd cyclic (acyclic rule)

/-- The check fails just if some rules depend on each other in a circle, and then it names the
rules of such a circle, with nothing that leads up to it. -/
theorem checkCycles_names_loop (graph : RuleGraph) :
    ((∃ failure, graph.checkCycles = .error failure) ↔
      ∃ rule, Relation.TransGen graph.Edge rule rule) ∧
    ∀ failure, graph.checkCycles = .error failure →
      ∃ route, graph.IsLoop route ∧ failure = .circularDependency route ∧
        failure.message = "检测到循环依赖: " ++ " -> ".intercalate route := by
  refine ⟨⟨?_, ?_⟩, ?_⟩
  · intro fails
    rcases fails with ⟨failure, ended⟩
    rcases checkCycles_error ended with ⟨route, -, loop⟩
    exact loop.transGen
  · intro circular
    rcases circular with ⟨rule, cyclic⟩
    cases ended : graph.checkCycles with
    | ok => exact absurd cyclic (checkCycles_ok ended rule)
    | error failure => exact ⟨failure, rfl⟩
  · intro failure ended
    rcases checkCycles_error ended with ⟨route, rfl, loop⟩
    refine ⟨route, loop, rfl, ?_⟩
    exact congrArg ("检测到循环依赖: " ++ ·) (joined_eq_intercalate " -> " route)

end RuleGraph

end Rulebook
