import Rulebook.Floating

namespace Rulebook.Floating

variable {format : Format}

def neg : Floating format → Floating format
  | .nan => .nan
  | .infinite negative => .infinite (!negative)
  | .finite negative size => .finite (!negative) size

/-- Opposite infinities have no sum; an exact zero is negative only when both parts are. -/
def add : Floating format → Floating format → Floating format
  | .nan, _ | _, .nan => .nan
  | .infinite a, .infinite b => if a = b then .infinite a else .nan
  | .infinite a, _ => .infinite a
  | _, .infinite b => .infinite b
  | .finite p a, .finite q b =>
    let sum := signed p a + signed q b
    if sum = 0 then zero (p && q) else ofSteps (sum < 0) sum.natAbs 1

def sub (x y : Floating format) : Floating format := x.add y.neg

def mul : Floating format → Floating format → Floating format
  | .nan, _ | _, .nan => .nan
  | .infinite a, .infinite b => .infinite (a != b)
  | .infinite p, .finite q size | .finite q size, .infinite p =>
    if size.steps = 0 then .nan else .infinite (p != q)
  | .finite p a, .finite q b => ofSteps (p != q) (a.steps * b.steps) format.one

def div : Floating format → Floating format → Floating format
  | .nan, _ | _, .nan => .nan
  | .infinite _, .infinite _ => .nan
  | .infinite p, .finite q _ => .infinite (p != q)
  | .finite p _, .infinite q => zero (p != q)
  | .finite p a, .finite q b =>
    if b.steps = 0 then
      if a.steps = 0 then .nan else .infinite (p != q)
    else ofSteps (p != q) (a.steps * format.one) b.steps

/-- What is left after taking away as many whole divisors as fit, with the sign of the dividend.
It is exact. -/
def rem : Floating format → Floating format → Floating format
  | .nan, _ | _, .nan => .nan
  | .infinite _, _ => .nan
  | .finite p a, .infinite _ => .finite p a
  | .finite p a, .finite _ b =>
    if b.steps = 0 then .nan else ofSteps p (a.steps % b.steps) 1

def ofInt (i : Int) : Floating format :=
  ofSteps (i < 0) (i.natAbs * format.one) 1

def convert (target : Format) : Floating format → Floating target
  | .nan => .nan
  | .infinite negative => .infinite negative
  | .finite negative size => ofSteps negative (size.steps * target.one) format.one

def widen (x : Single) : Double := x.convert Format.double

end Rulebook.Floating
