import Rulebook.Proofs.Policy.Cycle

/-! The iterations of the search for cycles.

`Comes` follows a whole check: it goes from rule to rule in the order of declaration, and searches
from those without a mark. At every iteration the marks, the walk and the cursors agree, and each
iteration takes a frame off the walk or moves a cursor on. A rule is pushed at most once, so that
there are no more iterations than there are rules and dependencies. -/

namespace Rulebook

variable {graph : RuleGraph}

def Search.entered (search next : Search) : List String :=
  (next.walk.take (next.walk.length - search.walk.length)).map Frame.rule

/-- What an iteration does to the walk: the frame at its end is dropped, or its cursor moves on. In
the latter case one more frame may come on top. -/
inductive Search.Moves (search next : Search) : Prop where
  | popped {frame : Frame} (walk : search.walk = frame :: next.walk)
  | read {frame : Frame} {below : List Frame} (before : search.walk = frame :: below)
      (after : next.walk = frame.onward :: below)
  | pushed {frame : Frame} {below : List Frame} {dependency : String}
      (before : search.walk = frame :: below)
      (after : next.walk = ⟨dependency, 0⟩ :: frame.onward :: below)

/-- How marks, walk and cursors agree. The end of the walk stands first, so that the frame above
another one is that of a dependency. -/
structure Search.Orderly (graph : RuleGraph) (search : Search) : Prop where
  exist : ∀ frame ∈ search.walk, graph.has frame.rule = true
  distinct : (search.walk.map Frame.rule).Nodup
  linked : (search.walk.map Frame.rule).IsChain
    fun dependency rule => dependency ∈ graph.dependencies rule
  onWalk : ∀ rule, search.marks.lookup rule = some .onWalk ↔ rule ∈ search.walk.map Frame.rule
  within : ∀ frame ∈ search.walk, frame.cursor ≤ (graph.dependencies frame.rule).length
  past : ∀ above frame below, search.walk = above ++ frame :: below →
    ∀ dependency ∈ (graph.dependencies frame.rule).take frame.cursor,
      search.marks.lookup dependency = some .cleared ∨ graph.has dependency = false ∨
        above.getLast?.map Frame.rule = some dependency
  cleared : ∀ rule other, search.marks.lookup rule = some .cleared →
    Relation.ReflTransGen graph.Edge rule other → search.marks.lookup other = some .cleared

namespace RuleGraph

/-- What a check comes to after some iterations: the rules that it has yet to go to, those that were
pushed, the latest first, and the state of the search. -/
inductive Comes (graph : RuleGraph) : Nat → List String → List String → Search → Prop where
  | start : Comes graph 0 graph.rules [] ⟨[], []⟩
  | pass {count : Nat} {rule : String} {ahead pushed : List String} {marks : Marks}
      (came : Comes graph count (rule :: ahead) pushed ⟨marks, []⟩)
      (marked : marks.lookup rule ≠ none) : Comes graph count ahead pushed ⟨marks, []⟩
  | begin {count : Nat} {rule : String} {ahead pushed : List String} {marks : Marks}
      (came : Comes graph count (rule :: ahead) pushed ⟨marks, []⟩)
      (fresh : marks.lookup rule = none) :
      Comes graph count ahead (rule :: pushed) ⟨(rule, .onWalk) :: marks, [⟨rule, 0⟩]⟩
  | iterate {count : Nat} {ahead pushed : List String} {search next : Search}
      (came : Comes graph count ahead pushed search)
      (stepped : graph.step search = .onward next) :
      Comes graph (count + 1) ahead (search.entered next ++ pushed) next

def iterationBound (graph : RuleGraph) : Nat :=
  graph.edges.items.length + (graph.edges.items.flatMap Prod.snd).length

theorem Walks.reads {marks : Marks} {top : Option String} {walk above below : List Frame}
    {frame : Frame} (walks : graph.Walks marks top walk) (split : walk = above ++ frame :: below) :
    graph.Reads marks ((above.getLast?.map Frame.rule).or top) frame := by
  induction above generalizing walk top with
  | nil =>
      subst split
      exact walks.1
  | cons first above ih =>
      subst split
      have inner := ih walks.2 rfl
      cases above with
      | nil => exact inner
      | cons second above =>
          rw [List.getLast?_cons_cons]
          have ended : ∃ last, (second :: above).getLast? = some last :=
            ⟨_, List.getLast?_eq_some_getLast (List.cons_ne_nil second above)⟩
          obtain ⟨last, ended⟩ := ended
          rw [ended] at inner ⊢
          exact inner

theorem freshLoad_nil (edges : List (String × List String)) :
    freshLoad [] edges = edges.length + (edges.flatMap Prod.snd).length := by
  induction edges with
  | nil => rfl
  | cons edge rest ih =>
      rw [freshLoad, List.lookup_nil, if_pos rfl, ih, List.length_cons, List.flatMap_cons,
        List.length_append]
      omega

theorem load_start (graph : RuleGraph) : graph.load ⟨[], []⟩ = graph.iterationBound := by
  rw [load, walkLoad, freshLoad_nil, Nat.zero_add, iterationBound]

theorem load_begin {marks : Marks} {rule : String} (exist : graph.has rule = true)
    (fresh : marks.lookup rule = none) :
    graph.load ⟨(rule, .onWalk) :: marks, [⟨rule, 0⟩]⟩ ≤ graph.load ⟨marks, []⟩ := by
  obtain ⟨edge, found⟩ := Option.isSome_iff_exists.mp exist
  have fewer := freshLoad_mark_fresh .onWalk fresh found
  simp only [load, walkLoad, dependencies_eq found]
  omega

end RuleGraph

namespace Search

open RuleGraph

theorem Sound.orderly {search : Search} (sound : search.Sound graph) : search.Orderly graph where
  exist := by
    intro frame member
    apply sound.exist
    rw [(sound.onWalk frame.rule).mpr (List.mem_map_of_mem member)]
    exact Option.some_ne_none _
  distinct := sound.distinct
  linked := sound.walks.isChain
  onWalk := sound.onWalk
  within := by
    intro frame member
    obtain ⟨above, below, split⟩ := List.mem_iff_append.mp member
    exact (sound.walks.reads split).within
  past := by
    intro above frame below split dependency member
    have reads := sound.walks.reads split
    rw [Option.or_none] at reads
    rcases reads.past dependency member with missing | cleared | next
    · exact .inr (.inl missing)
    · exact .inl cleared
    · exact .inr (.inr next)
  cleared := fun _ _ cleared reaches => sound.cleared_of_reaches cleared reaches

theorem entered_popped {frame : Frame} {marks later : Marks} {below : List Frame} :
    entered ⟨marks, frame :: below⟩ ⟨later, below⟩ = [] := by
  simp [entered]

theorem entered_read {frame : Frame} {marks : Marks} {below : List Frame} :
    entered ⟨marks, frame :: below⟩ ⟨marks, frame.onward :: below⟩ = [] := by
  simp [entered]

theorem entered_pushed {frame : Frame} {marks later : Marks} {below : List Frame} {rule : String} :
    entered ⟨marks, frame :: below⟩ ⟨later, ⟨rule, 0⟩ :: frame.onward :: below⟩ = [rule] := by
  simp [entered]

end Search

namespace RuleGraph

open Search (entered_popped entered_read entered_pushed)

theorem Steps.entered {search next : Search} (steps : graph.Steps search (.onward next)) :
    search.Moves next ∧ (search.entered next).Nodup ∧
      ∀ rule ∈ search.entered next, search.marks.lookup rule = none ∧
        next.marks.lookup rule ≠ none := by
  cases steps with
  | clear done =>
      rw [entered_popped]
      exact ⟨.popped rfl, List.nodup_nil, nofun⟩
  | skip next harmless =>
      rw [entered_read]
      exact ⟨.read rfl rfl, List.nodup_nil, nofun⟩
  | @enter marks frame below dependency next exist fresh =>
      rw [entered_pushed]
      refine ⟨.pushed rfl rfl, List.nodup_singleton dependency, ?_⟩
      intro rule member
      rw [List.mem_singleton.mp member]
      refine ⟨fresh, ?_⟩
      rw [lookup_mark, if_pos rfl]
      exact Option.some_ne_none _

namespace Comes

variable {count : Nat} {ahead pushed : List String} {search : Search}

theorem declared (comes : graph.Comes count ahead pushed search) :
    ∀ rule ∈ ahead, graph.has rule = true := by
  induction comes with
  | start => exact fun _ => has_iff.mpr
  | pass _ _ ih | begin _ _ ih => exact fun rule member => ih rule (List.mem_cons_of_mem _ member)
  | iterate _ _ ih => exact ih

theorem sound (comes : graph.Comes count ahead pushed search) : search.Sound graph := by
  induction comes with
  | start => exact sound_empty
  | pass _ _ ih => exact ih
  | begin came fresh ih => exact sound_start ih (came.declared _ List.mem_cons_self) fresh
  | @iterate count ahead pushed search next came stepped ih =>
      have steps := graph.steps_step search
      rw [stepped] at steps
      exact ih.of_steps steps

/-- A rule has a mark from when it is pushed, and only rules without one are pushed. -/
theorem pushed_once (comes : graph.Comes count ahead pushed search) :
    pushed.Nodup ∧ ∀ rule ∈ pushed, search.marks.lookup rule ≠ none := by
  induction comes with
  | start => exact ⟨List.nodup_nil, nofun⟩
  | pass _ _ ih => exact ih
  | @begin count rule ahead pushed marks came fresh ih =>
      obtain ⟨distinct, marked⟩ := ih
      have apart : rule ∉ pushed := fun member => marked rule member fresh
      refine ⟨List.nodup_cons.mpr ⟨apart, distinct⟩, ?_⟩
      intro other member
      rw [lookup_mark]
      split
      · exact Option.some_ne_none _
      · rename_i different
        exact marked other ((List.mem_cons.mp member).resolve_left different)
  | @iterate count ahead pushed search next came stepped ih =>
      obtain ⟨distinct, marked⟩ := ih
      have steps := graph.steps_step search
      rw [stepped] at steps
      obtain ⟨-, entered_distinct, entered⟩ := steps.entered
      constructor
      · apply entered_distinct.append distinct
        intro rule now before
        exact marked rule before (entered rule now).1
      · intro rule member
        rcases List.mem_append.mp member with now | before
        · exact (entered rule now).2
        · exact steps.marked (marked rule before)

/-- Every iteration uses up one of the steps that are left. -/
theorem count_add_load_le (comes : graph.Comes count ahead pushed search) :
    count + graph.load search ≤ graph.iterationBound := by
  induction comes with
  | start => rw [load_start, Nat.zero_add]
  | pass _ _ ih => exact ih
  | begin came fresh ih =>
      have less := load_begin (came.declared _ List.mem_cons_self) fresh
      omega
  | iterate _ stepped ih =>
      have less := load_step stepped
      omega

theorem run (comes : graph.Comes count ahead pushed search) :
    (∃ marks, graph.run search = .ok marks ∧
      ∃ count pushed, graph.Comes count ahead pushed ⟨marks, []⟩) ∨
    ∃ route, graph.run search = .error route ∧
      ∃ count ahead pushed last, graph.Comes count ahead pushed last ∧
        graph.step last = .cycle route := by
  induction search using run.induct graph generalizing count pushed with
  | case1 search marks stepped =>
      have steps := graph.steps_step search
      rw [run_eq, stepped]
      rw [stepped] at steps
      cases steps
      exact .inl ⟨marks, rfl, count, pushed, comes⟩
  | case2 search route stepped =>
      rw [run_eq, stepped]
      exact .inr ⟨route, rfl, count, ahead, pushed, search, comes, stepped⟩
  | case3 search next stepped ih =>
      rw [run_eq, stepped]
      exact ih (comes.iterate stepped)

theorem searches {marks : Marks} (comes : graph.Comes count ahead pushed ⟨marks, []⟩) :
    (∃ left, ahead.foldlM graph.searchFrom marks = .ok left ∧
      ∃ count pushed, graph.Comes count [] pushed ⟨left, []⟩) ∨
    ∃ route, ahead.foldlM graph.searchFrom marks = .error route ∧
      ∃ count ahead pushed last, graph.Comes count ahead pushed last ∧
        graph.step last = .cycle route := by
  induction ahead generalizing count pushed marks with
  | nil => exact .inl ⟨marks, rfl, count, pushed, comes⟩
  | cons rule rest ih =>
      rw [List.foldlM_cons]
      by_cases fresh : marks.lookup rule = none
      · rw [searchFrom_fresh fresh]
        rcases (comes.begin fresh).run with ⟨left, ran, _, _, after⟩ | ⟨route, ran, last⟩
        · rw [ran, ok_bind]
          exact ih after
        · rw [ran, error_bind]
          exact .inr ⟨route, rfl, last⟩
      · rw [searchFrom_marked fresh, ok_bind]
        exact ih (comes.pass fresh)

end Comes

/-- At every iteration of a check marks, walk and cursors agree, and no rule has been pushed twice.
An iteration drops a frame or moves a cursor on, and leaves fewer to come, so that the check ends:
with no rule left to go to, or where an iteration comes to a rule on the walk. -/
theorem checkCycles_orderly (graph : RuleGraph) :
    (∀ count ahead pushed search, graph.Comes count ahead pushed search →
      search.Orderly graph ∧ pushed.Nodup ∧ count ≤ graph.iterationBound ∧
      ∀ next, graph.step search = .onward next →
        search.Moves next ∧ graph.load next < graph.load search) ∧
    ((graph.checkCycles = .ok () ∧
      ∃ count pushed marks, graph.Comes count [] pushed ⟨marks, []⟩) ∨
    ∃ route, graph.checkCycles = .error (.circularDependency route) ∧
      ∃ count ahead pushed last, graph.Comes count ahead pushed last ∧
        graph.step last = .cycle route) := by
  constructor
  · intro count ahead pushed search comes
    have bounded := comes.count_add_load_le
    refine ⟨comes.sound.orderly, comes.pushed_once.1, by omega, ?_⟩
    intro next stepped
    have steps := graph.steps_step search
    rw [stepped] at steps
    exact ⟨steps.entered.1, load_step stepped⟩
  · rw [checkCycles]
    rcases Comes.start.searches with
      ⟨left, searched, count, pushed, after⟩ | ⟨route, searched, last⟩
    · rw [searched]
      exact .inl ⟨rfl, count, pushed, left, after⟩
    · rw [searched]
      exact .inr ⟨route, rfl, last⟩

end RuleGraph
end Rulebook
