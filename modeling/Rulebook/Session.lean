import Rulebook.Operator.Shelf
import Rulebook.Policy.Execution

namespace Rulebook

structure Session where
  shelf : OperatorShelf := .start
  scope : Scope := {}
  compiled : Directory CompiledExpr := Roster.empty _

namespace Session

instance : Inhabited Session := ⟨{}⟩

def table (session : Session) : (handle : Option String) → OperatorSet
  | some handle => session.shelf.table handle
  | none => session.shelf.shared

def evaluator (session : Session) (handle : Option String) (depth : Option Nat) : Evaluator :=
  .ofDepth (session.table handle) (depth.getD Expr.defaultDepth)

def setResult (session : Session) (name : String) (value : Value) : Session :=
  { session with
    scope := { session.scope with results := Directory.insert session.scope.results name value } }

def removeResult (session : Session) (name : String) : Session :=
  { session with scope := { session.scope with results := session.scope.results.erase name } }

def setFeatures (session : Session) (features : Features) : Session :=
  { session with scope := { session.scope with features := features } }

/-- Evaluates a text. A value is kept as the result `store`, if that is given. -/
def evaluate (session : Session) (evaluator : Evaluator) (source : String)
    (store : Option String) : Result Value × Session :=
  let result := evaluator.evaluateText session.scope source
  match result, store with
  | .ok value, some name => (result, session.setResult name value)
  | _, _ => (result, session)

def compile (session : Session) (evaluator : Evaluator) (name source : String) :
    Result CompiledExpr × Session :=
  match evaluator.compile source with
  | .ok compiled =>
    (.ok compiled, { session with compiled := Directory.insert session.compiled name compiled })
  | .error error => (.error error, session)

def evaluateCompiled (session : Session) (evaluator : Evaluator) (name : String) :
    Option (Result Value) :=
  (Directory.lookup? session.compiled name).map fun compiled =>
    evaluator.evaluate session.scope compiled.tree

end Session
end Rulebook
