/-!
What reading a piece off the front of a list comes to.

A reading carries the proof that it got somewhere: what is left over is shorter than a bound. That
is what lets the loops of a grammar end.
-/

namespace Rulebook

structure Reading (τ α : Type) (bound : Nat) where
  item : α
  rest : List τ
  shorter : rest.length < bound

namespace Reading

variable {τ α β : Type} {bound wider : Nat}

def map (f : α → β) (reading : Reading τ α bound) : Reading τ β bound :=
  ⟨f reading.item, reading.rest, reading.shorter⟩

def widen (reading : Reading τ α bound) (h : bound ≤ wider) : Reading τ α wider :=
  ⟨reading.item, reading.rest, Nat.lt_of_lt_of_le reading.shorter h⟩

def next (item : α) (first : τ) (rest : List τ) : Reading τ α (first :: rest).length :=
  ⟨item, rest, Nat.lt_succ_self _⟩

def stay (item : α) (whole : List τ) : Reading τ α (whole.length + 1) :=
  ⟨item, whole, Nat.lt_succ_self _⟩

def behind (reading : Reading τ α bound) : Reading τ α (bound + 1) :=
  reading.widen (Nat.le_succ bound)

def drop (reading : Reading τ α bound) (count : Nat) : Reading τ α bound :=
  ⟨reading.item, reading.rest.drop count,
    Nat.lt_of_le_of_lt (List.drop_sublist count reading.rest).length_le reading.shorter⟩

/-- A reading of what another one left over, which can have moved back by one element. -/
def within (earlier : Reading τ α bound) (reading : Reading τ β (earlier.rest.length + 1)) :
    Reading τ β bound :=
  reading.widen earlier.shorter

end Reading
end Rulebook
