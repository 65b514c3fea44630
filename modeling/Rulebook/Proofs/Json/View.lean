import Rulebook.Proofs.Json.Reader

/-! Readers that see different things in the same text.

One reader sees a view of what another one sees if both take the same tokens and fail alike. Over the
entries of an object, the states of the one are views of the states of the other. -/

namespace Rulebook.Json.Reader

variable {α β σ τ : Type} {view : α → β} {item : Reader α} {other : Reader β}

def Sees (view : α → β) (reader : Reader α) (other : Reader β) : Prop :=
  ∀ tokens, other tokens = Reading.map view <$> reader tokens

theorem sees_self (reader : Reader α) : Sees id reader reader := by
  intro tokens
  cases reader tokens <;> rfl

theorem Sees.reads {json : Json} {content : α} (same : Sees view item other)
    (read : Reads item json content) : Reads other json (view content) := by
  intro after
  obtain ⟨shorter, taken⟩ := read after
  rw [same, taken]
  exact ⟨shorter, rfl⟩

theorem Sees.run (same : Sees view item other) (text : String) :
    other.run text = view <$> item.run text := by
  rw [Reader.run, Reader.run, same, bind_map_left, map_bind]
  apply bind_congr
  intro whole
  rw [apply_ite (view <$> ·)]
  rfl

theorem afterColon_sees (same : Sees view item other) :
    Sees view (afterColon item) (afterColon other) := by
  intro tokens
  unfold afterColon
  split
  · rw [same, bind_map_left, map_bind]
    rfl
  · rfl

theorem nextItem_sees (same : Sees view item other) (isFirst : Bool) (tokens : List JsonToken) :
    nextItem isFirst other tokens =
      Reading.map (Option.map view) <$> nextItem isFirst item tokens := by
  unfold nextItem
  split
  · rfl
  · cases isFirst with
    | true => rfl
    | false =>
        simp only [Bool.false_eq_true, if_false]
        rw [same, bind_map_left, map_bind]
        rfl
  · cases isFirst with
    | true =>
        simp only [if_true]
        rw [same, bind_map_left, map_bind]
        rfl
    | false => rfl

section

variable {states : σ → τ}

theorem fill_sees (same : Sees view item other) {old : Option α} {kept : Option β}
    (filled : kept.isSome = old.isSome) {put : α → σ} {enter : β → τ}
    (puts : ∀ content, enter (view content) = states (put content)) :
    Sees states (fill item old put) (fill other kept enter) := by
  intro tokens
  rw [fill, fill, once, once, filled, map_bind, afterColon_sees same]
  apply bind_congr
  intro
  rw [bind_map_left, map_bind]
  apply bind_congr
  intro reading
  simp only [map_pure, Reading.map, puts]

theorem pass_sees (state : σ) : Sees states (pass state) (pass (states state)) := by
  intro tokens
  rw [pass, pass, map_bind]
  rfl

variable {entry : Entry σ} {seen : Entry τ}

theorem entries_see {state : σ} {key : String} {rest : List JsonToken}
    (first : Sees states (entry state key) (seen (states state) key))
    (others : ∀ next : Reading σ rest.length,
      moreEntries seen (states next.item) next.rest =
        Reading.map states <$> moreEntries entry next.item next.rest) :
    (do
      let next ← seen (states state) key rest
      let whole ← moreEntries seen next.item next.rest
      return (next.within whole.behind).behind.behind) =
    Reading.map states <$> (do
      let next ← entry state key rest
      let whole ← moreEntries entry next.item next.rest
      return (next.within whole.behind).behind.behind) := by
  rw [first, bind_map_left, map_bind]
  apply bind_congr
  intro next
  change (moreEntries seen (states next.item) next.rest >>= fun whole =>
    pure (next.within whole.behind).behind.behind) = _
  rw [others, bind_map_left, map_bind]
  rfl

theorem moreEntries_sees (same : ∀ state key, Sees states (entry state key) (seen (states state) key))
    (state : σ) : Sees states (moreEntries entry state) (moreEntries seen (states state)) := by
  intro tokens
  induction state, tokens using moreEntries.induct with
  | case1 state rest =>
      rw [moreEntries, moreEntries]
      rfl
  | case2 state key rest ih =>
      rw [moreEntries, moreEntries]
      exact entries_see (same state key) ih
  | case3 state tokens unended unkeyed =>
      rw [moreEntries, moreEntries]
      · rfl
      all_goals assumption

theorem refuse_sees (tokens : List JsonToken) :
    (refuse tokens : Except JsonFault τ) = states <$> refuse tokens := by
  unfold refuse
  repeat' split
  all_goals rfl

theorem object_sees (same : ∀ state key, Sees states (entry state key) (seen (states state) key))
    (start : σ) : Sees states (object entry start) (object seen (states start)) := by
  intro tokens
  unfold object
  split
  · rfl
  · exact entries_see (same start _) fun first => moreEntries_sees same first.item first.rest
  · rfl
  · exact refuse_sees _

end

end Rulebook.Json.Reader
