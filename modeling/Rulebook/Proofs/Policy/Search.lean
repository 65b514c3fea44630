import Rulebook.Policy.Cycle
import Rulebook.Proofs.Policy.Dependency

/-!
What the search for cycles keeps at each step.

It is `Search.Sound`: the marks and the walk agree, each frame of the walk is past nothing that
could still close a cycle, and what is cleared lies on none.
-/

namespace Rulebook

variable {graph : RuleGraph}

theorem lookup_mark (rule : String) (mark : Mark) (marks : Marks) (other : String) :
    List.lookup other ((rule, mark) :: marks) =
      if other = rule then some mark else marks.lookup other := by
  rw [List.lookup_cons]
  by_cases same : other = rule
  · simp [same]
  · simp [same, beq_eq_false_iff_ne.mpr same]

def Frame.onward (frame : Frame) : Frame := { frame with cursor := frame.cursor + 1 }

namespace RuleGraph

inductive Steps (graph : RuleGraph) : Search → Progress → Prop where
  | finish {marks : Marks} : Steps graph ⟨marks, []⟩ (.finished marks)
  | clear {marks : Marks} {frame : Frame} {below : List Frame}
      (done : (graph.dependencies frame.rule)[frame.cursor]? = none) :
      Steps graph ⟨marks, frame :: below⟩ (.onward ⟨(frame.rule, .cleared) :: marks, below⟩)
  | close {marks : Marks} {frame : Frame} {below : List Frame} {dependency : String}
      (next : (graph.dependencies frame.rule)[frame.cursor]? = some dependency)
      (marked : marks.lookup dependency = some .onWalk) :
      Steps graph ⟨marks, frame :: below⟩ (.cycle (route (frame :: below) dependency))
  | skip {marks : Marks} {frame : Frame} {below : List Frame} {dependency : String}
      (next : (graph.dependencies frame.rule)[frame.cursor]? = some dependency)
      (harmless : graph.has dependency = false ∨ marks.lookup dependency = some .cleared) :
      Steps graph ⟨marks, frame :: below⟩ (.onward ⟨marks, frame.onward :: below⟩)
  | enter {marks : Marks} {frame : Frame} {below : List Frame} {dependency : String}
      (next : (graph.dependencies frame.rule)[frame.cursor]? = some dependency)
      (exist : graph.has dependency = true) (fresh : marks.lookup dependency = none) :
      Steps graph ⟨marks, frame :: below⟩
        (.onward ⟨(dependency, .onWalk) :: marks, ⟨dependency, 0⟩ :: frame.onward :: below⟩)

theorem steps_step (graph : RuleGraph) (search : Search) :
    graph.Steps search (graph.step search) := by
  rcases search with ⟨marks, walk⟩
  cases walk with
  | nil => exact .finish
  | cons frame below =>
      simp only [step]
      cases next : (graph.dependencies frame.rule)[frame.cursor]? with
      | none => exact .clear next
      | some dependency =>
          simp only
          cases marked : marks.lookup dependency with
          | none =>
              by_cases exist : graph.has dependency = true
              · simp only [exist, if_true]
                exact .enter next exist marked
              · simp only [exist]
                exact .skip next (.inl (Bool.eq_false_iff.mpr exist))
          | some mark =>
              cases mark with
              | onWalk => exact .close next marked
              | cleared => exact .skip next (.inr marked)

structure Reads (graph : RuleGraph) (marks : Marks) (above : Option String) (frame : Frame) :
    Prop where
  within : frame.cursor ≤ (graph.dependencies frame.rule).length
  past : ∀ dependency ∈ (graph.dependencies frame.rule).take frame.cursor,
    graph.has dependency = false ∨ marks.lookup dependency = some .cleared ∨
      above = some dependency
  leads : ∀ rule, above = some rule → rule ∈ graph.dependencies frame.rule

def Walks (graph : RuleGraph) (marks : Marks) : Option String → List Frame → Prop
  | _, [] => True
  | above, frame :: below =>
      graph.Reads marks above frame ∧ graph.Walks marks (some frame.rule) below

end RuleGraph

/-- A search whose marks and walk agree, and whose cleared rules lead to no cycle. -/
structure Search.Sound (graph : RuleGraph) (search : Search) : Prop where
  exist : ∀ rule, search.marks.lookup rule ≠ none → graph.has rule = true
  distinct : (search.walk.map Frame.rule).Nodup
  onWalk : ∀ rule,
    search.marks.lookup rule = some .onWalk ↔ rule ∈ search.walk.map Frame.rule
  walks : graph.Walks search.marks none search.walk
  closed : ∀ rule dependency, search.marks.lookup rule = some .cleared →
    graph.Edge rule dependency → search.marks.lookup dependency = some .cleared
  acyclic : ∀ rule, search.marks.lookup rule = some .cleared →
    ¬ Relation.TransGen graph.Edge rule rule

namespace RuleGraph

theorem Reads.mono {marks later : Marks} {above : Option String} {frame : Frame}
    (kept : ∀ rule, marks.lookup rule = some .cleared → later.lookup rule = some .cleared)
    (reads : graph.Reads marks above frame) : graph.Reads later above frame where
  within := reads.within
  past := by
    intro dependency member
    rcases reads.past dependency member with missing | cleared | next
    · exact .inl missing
    · exact .inr (.inl (kept dependency cleared))
    · exact .inr (.inr next)
  leads := reads.leads

theorem Walks.mono {marks later : Marks} {above : Option String} {walk : List Frame}
    (kept : ∀ rule, marks.lookup rule = some .cleared → later.lookup rule = some .cleared)
    (walks : graph.Walks marks above walk) : graph.Walks later above walk := by
  induction walk generalizing above with
  | nil => trivial
  | cons frame below ih => exact ⟨walks.1.mono kept, ih walks.2⟩

theorem Walks.clear {marks later : Marks} {rule : String} {walk : List Frame}
    (kept : ∀ rule, marks.lookup rule = some .cleared → later.lookup rule = some .cleared)
    (cleared : later.lookup rule = some .cleared) (walks : graph.Walks marks (some rule) walk) :
    graph.Walks later none walk := by
  cases walk with
  | nil => trivial
  | cons frame below =>
      refine ⟨⟨walks.1.within, ?_, nofun⟩, walks.2.mono kept⟩
      intro dependency member
      rcases walks.1.past dependency member with missing | before | next
      · exact .inl missing
      · exact .inr (.inl (kept dependency before))
      · exact .inr (.inl (Option.some.inj next ▸ cleared))

theorem Reads.onward {marks : Marks} {frame : Frame} {dependency : String} {above : Option String}
    (reads : graph.Reads marks none frame)
    (next : (graph.dependencies frame.rule)[frame.cursor]? = some dependency)
    (settled : graph.has dependency = false ∨ marks.lookup dependency = some .cleared ∨
      above = some dependency)
    (leads : ∀ rule, above = some rule → rule ∈ graph.dependencies frame.rule) :
    graph.Reads marks above frame.onward where
  within := (List.getElem?_eq_some_iff.mp next).1
  past := by
    intro other member
    rw [Frame.onward, List.take_add_one, next] at member
    rcases List.mem_append.mp member with before | last
    · rcases reads.past other before with missing | cleared | none_above
      · exact .inl missing
      · exact .inr (.inl cleared)
      · cases none_above
    · rw [Option.toList_some, List.mem_singleton] at last
      exact last ▸ settled
  leads := leads

theorem Reads.cleared_of_done {marks : Marks} {frame : Frame} {dependency : String}
    (reads : graph.Reads marks none frame)
    (done : (graph.dependencies frame.rule)[frame.cursor]? = none)
    (edge : graph.Edge frame.rule dependency) : marks.lookup dependency = some .cleared := by
  have whole : (graph.dependencies frame.rule).take frame.cursor = graph.dependencies frame.rule :=
    List.take_of_length_le (List.getElem?_eq_none_iff.mp done)
  have known := reads.past dependency (by rw [whole]; exact edge.2.2)
  rcases known with missing | cleared | none_above
  · rw [edge.2.1] at missing
    contradiction
  · exact cleared
  · contradiction

theorem Walks.isChain {marks : Marks} {above : Option String} {walk : List Frame}
    (walks : graph.Walks marks above walk) :
    (walk.map Frame.rule).IsChain fun dependency rule => dependency ∈ graph.dependencies rule := by
  induction walk generalizing above with
  | nil => exact .nil
  | cons frame below ih =>
      rw [List.map_cons, List.isChain_cons]
      refine ⟨?_, ih walks.2⟩
      cases below with
      | nil => exact nofun
      | cons other further =>
          intro rule first
          cases first
          exact walks.2.1.leads frame.rule rfl

theorem route_eq {walk : List Frame} {rule : String} {above under : List String}
    (names : walk.map Frame.rule = above ++ rule :: under) (absent : rule ∉ under) :
    route walk rule = rule :: above.reverse ++ [rule] := by
  have lead_in : ∀ name ∈ under.reverse, decide (name ≠ rule) = true := by
    intro name member
    apply decide_eq_true
    intro same
    exact absent (same ▸ List.mem_reverse.mp member)
  rw [route, names, List.reverse_append, List.reverse_cons, List.append_assoc,
    List.dropWhile_append_of_pos lead_in, List.singleton_append, List.dropWhile_cons]
  simp

theorem isLoop_of_isChain {rule : String} {above under : List String}
    (distinct : (above ++ rule :: under).Nodup)
    (exist : ∀ name ∈ above ++ rule :: under, graph.has name = true)
    (linked : (above ++ rule :: under).IsChain
      fun dependency rule => dependency ∈ graph.dependencies rule)
    (back : ∀ last ∈ (above ++ rule :: under).head?, rule ∈ graph.dependencies last) :
    graph.IsLoop (rule :: above.reverse ++ [rule]) := by
  have split : above ++ rule :: under = (above ++ [rule]) ++ under := by simp
  have member : ∀ name ∈ rule :: above.reverse, name ∈ above ++ rule :: under := by
    intro name among
    rcases List.mem_cons.mp among with rfl | earlier
    · exact List.mem_append_right above List.mem_cons_self
    · exact List.mem_append_left _ (List.mem_reverse.mp earlier)
  refine ⟨rule, above.reverse, rfl, ?_, ?_, ?_⟩
  · rw [List.nodup_cons, List.nodup_reverse, List.mem_reverse]
    rcases List.nodup_append.mp distinct with ⟨nodup_above, -, apart⟩
    refine ⟨?_, nodup_above⟩
    intro among
    exact apart rule among rule List.mem_cons_self rfl
  · intro name among
    exact exist name (member name among)
  · have closed : (rule :: (above ++ [rule])).IsChain
        fun dependency rule => dependency ∈ graph.dependencies rule := by
      rw [List.isChain_cons]
      constructor
      · intro last first
        apply back last
        cases above with
        | nil => exact first
        | cons name rest => exact first
      · rw [split] at linked
        exact linked.left_of_append
    rw [← List.isChain_reverse]
    simpa using closed

end RuleGraph

namespace Search.Sound

open RuleGraph

variable {marks : Marks} {frame : Frame} {below : List Frame} {dependency : String}

theorem cleared_of_reaches {search : Search} (sound : search.Sound graph) {rule other : String}
    (cleared : search.marks.lookup rule = some .cleared)
    (reaches : Relation.ReflTransGen graph.Edge rule other) :
    search.marks.lookup other = some .cleared := by
  induction reaches with
  | refl => exact cleared
  | tail _ edge ih => exact sound.closed _ _ ih edge

theorem marked_frame (sound : Search.Sound graph ⟨marks, frame :: below⟩) :
    marks.lookup frame.rule = some .onWalk :=
  (sound.onWalk frame.rule).mpr List.mem_cons_self

/-- A frame that is done stands on no cycle: the rules it leads to are cleared, and it is not. -/
theorem not_cyclic (sound : Search.Sound graph ⟨marks, frame :: below⟩)
    (done : (graph.dependencies frame.rule)[frame.cursor]? = none) :
    ¬ Relation.TransGen graph.Edge frame.rule frame.rule := by
  intro cyclic
  rcases Relation.TransGen.head'_iff.mp cyclic with ⟨next, edge, back⟩
  have cleared := sound.cleared_of_reaches (sound.walks.1.cleared_of_done done edge) back
  have marked := sound.marked_frame
  rw [marked] at cleared
  contradiction

theorem clear (sound : Search.Sound graph ⟨marks, frame :: below⟩)
    (done : (graph.dependencies frame.rule)[frame.cursor]? = none) :
    Search.Sound graph ⟨(frame.rule, .cleared) :: marks, below⟩ := by
  rcases List.nodup_cons.mp sound.distinct with ⟨absent, distinct⟩
  have marked := sound.marked_frame
  have kept : ∀ rule, marks.lookup rule = some .cleared →
      List.lookup rule ((frame.rule, Mark.cleared) :: marks) = some .cleared := by
    intro rule cleared
    rw [lookup_mark]
    split
    · rfl
    · exact cleared
  have now : List.lookup frame.rule ((frame.rule, Mark.cleared) :: marks) = some .cleared := by
    rw [lookup_mark, if_pos rfl]
  constructor
  · intro rule present
    rw [lookup_mark] at present
    apply sound.exist rule
    split at present
    · rename_i same
      rw [same, marked]
      exact Option.some_ne_none _
    · exact present
  · exact distinct
  · intro rule
    rw [lookup_mark]
    by_cases same : rule = frame.rule
    · rw [same]
      simpa using absent
    · rw [if_neg same, sound.onWalk, List.map_cons, List.mem_cons]
      simp [same]
  · exact sound.walks.2.clear kept now
  · intro rule dependency cleared edge
    rw [lookup_mark] at cleared
    split at cleared
    · rename_i same
      exact kept dependency (sound.walks.1.cleared_of_done done (same ▸ edge))
    · exact kept dependency (sound.closed rule dependency cleared edge)
  · intro rule cleared
    rw [lookup_mark] at cleared
    split at cleared
    · rename_i same
      exact same ▸ sound.not_cyclic done
    · exact sound.acyclic rule cleared

theorem skip (sound : Search.Sound graph ⟨marks, frame :: below⟩)
    (next : (graph.dependencies frame.rule)[frame.cursor]? = some dependency)
    (harmless : graph.has dependency = false ∨ marks.lookup dependency = some .cleared) :
    Search.Sound graph ⟨marks, frame.onward :: below⟩ where
  exist := sound.exist
  distinct := sound.distinct
  onWalk := sound.onWalk
  walks := by
    refine ⟨sound.walks.1.onward next ?_ nofun, sound.walks.2⟩
    rcases harmless with missing | cleared
    · exact .inl missing
    · exact .inr (.inl cleared)
  closed := sound.closed
  acyclic := sound.acyclic

theorem push {walk onto : List Frame} {rule : String} (sound : Search.Sound graph ⟨marks, walk⟩)
    (exist : graph.has rule = true) (fresh : marks.lookup rule = none)
    (same : onto.map Frame.rule = walk.map Frame.rule)
    (walks : graph.Walks marks (some rule) onto) :
    Search.Sound graph ⟨(rule, .onWalk) :: marks, ⟨rule, 0⟩ :: onto⟩ := by
  have old : ∀ {other mark}, marks.lookup other = some mark → other ≠ rule := by
    intro other mark marked at_rule
    rw [at_rule, fresh] at marked
    contradiction
  have kept : ∀ other, marks.lookup other = some .cleared →
      List.lookup other ((rule, Mark.onWalk) :: marks) = some .cleared := by
    intro other cleared
    rw [lookup_mark, if_neg (old cleared)]
    exact cleared
  have before : ∀ other, List.lookup other ((rule, Mark.onWalk) :: marks) = some .cleared →
      marks.lookup other = some .cleared := by
    intro other cleared
    rw [lookup_mark] at cleared
    split at cleared
    · contradiction
    · exact cleared
  constructor
  · intro other present
    rw [lookup_mark] at present
    split at present
    · rename_i at_rule
      exact at_rule ▸ exist
    · exact sound.exist other present
  · rw [List.map_cons, same, List.nodup_cons]
    refine ⟨?_, sound.distinct⟩
    intro member
    exact old ((sound.onWalk rule).mpr member) rfl
  · intro other
    rw [lookup_mark, List.map_cons, same, List.mem_cons, ← sound.onWalk other]
    by_cases at_rule : other = rule
    · simp [at_rule]
    · simp [at_rule]
  · refine ⟨⟨Nat.zero_le _, ?_, nofun⟩, walks.mono kept⟩
    intro dependency member
    rw [List.take_zero] at member
    contradiction
  · intro other dependency cleared edge
    exact kept dependency (sound.closed other dependency (before other cleared) edge)
  · intro other cleared
    exact sound.acyclic other (before other cleared)

theorem enter (sound : Search.Sound graph ⟨marks, frame :: below⟩)
    (next : (graph.dependencies frame.rule)[frame.cursor]? = some dependency)
    (exist : graph.has dependency = true) (fresh : marks.lookup dependency = none) :
    Search.Sound graph
      ⟨(dependency, .onWalk) :: marks, ⟨dependency, 0⟩ :: frame.onward :: below⟩ := by
  have walks : graph.Walks marks (some dependency) (frame.onward :: below) := by
    refine ⟨sound.walks.1.onward next (.inr (.inr rfl)) ?_, sound.walks.2⟩
    intro rule entered
    cases entered
    exact List.mem_of_getElem? next
  exact sound.push exist fresh rfl walks

theorem of_steps {search next : Search} (sound : search.Sound graph)
    (steps : graph.Steps search (.onward next)) : next.Sound graph := by
  cases steps with
  | clear done => exact sound.clear done
  | skip next harmless => exact sound.skip next harmless
  | enter next exist fresh => exact sound.enter next exist fresh

theorem isLoop_route (sound : Search.Sound graph ⟨marks, frame :: below⟩)
    (depends : dependency ∈ graph.dependencies frame.rule)
    (marked : marks.lookup dependency = some .onWalk) :
    graph.IsLoop (route (frame :: below) dependency) := by
  have member := (sound.onWalk dependency).mp marked
  rcases List.mem_iff_append.mp member with ⟨above, under, names⟩
  have distinct := sound.distinct
  have linked := sound.walks.isChain
  have exist : ∀ rule ∈ above ++ dependency :: under, graph.has rule = true := by
    intro rule among
    apply sound.exist rule
    rw [(sound.onWalk rule).mpr (names ▸ among)]
    exact Option.some_ne_none _
  rw [names] at distinct linked
  have absent := (List.nodup_cons.mp (List.nodup_append.mp distinct).2.1).1
  rw [route_eq names absent]
  apply isLoop_of_isChain distinct exist linked
  intro last first
  rw [← names] at first
  cases first
  exact depends

theorem cleared {rule : String} (sound : Search.Sound graph ⟨marks, []⟩)
    (marked : marks.lookup rule ≠ none) :
    marks.lookup rule = some .cleared := by
  rcases Option.ne_none_iff_exists'.mp marked with ⟨mark, found⟩
  cases mark with
  | cleared => exact found
  | onWalk => exact absurd ((sound.onWalk rule).mp found) List.not_mem_nil

end Search.Sound

end Rulebook
