/-!
Workers that share a list of cases. Each looks whether it shall stop, takes
the next index, executes the case there, marks the end of the run after a
failure, and stores its result; the steps of different workers may come in any
order. The results of a run are those stored, by index.
-/

namespace LedgerConformance.Workers

variable {α β : Type}

/-- Where a worker stands between two of its steps. -/
inductive Place (β : Type) where
  | looking
  | taking
  | executing (index : Nat)
  | marking (index : Nat) (result : β)
  | storing (index : Nat) (result : β)
  | ended
deriving DecidableEq, Repr

/-- What the workers share, and where each of them stands. -/
structure Pool (β : Type) where
  next : Nat := 0
  stop : Bool := false
  /-- Indices and results in the order in which they were stored. -/
  stored : List (Nat × β) := []
  /-- Indices in the order in which their cases were executed, which no worker reads. -/
  executed : List Nat := []
  places : List (Place β)
deriving DecidableEq, Repr

namespace Pool

/-- Every worker is about to look. -/
def start (workers : Nat) : Pool β := { places := List.replicate workers .looking }

def put (p : Pool β) (worker : Nat) (place : Place β) : Pool β :=
  { p with places := p.places.set worker place }

/-- Every worker has ended. -/
def Finished (p : Pool β) : Prop := ∀ place ∈ p.places, place = .ended

/-- The stored results by index. -/
def results (p : Pool β) : List β :=
  (p.stored.mergeSort fun a b => a.1 ≤ b.1).map (·.2)

end Pool

/-- A step of one worker; a case may yield different results at different times. -/
inductive Step (yields : α → β → Prop) (passed : β → Bool) (failFast : Bool) (cases : List α) :
    Pool β → Pool β → Prop
  | leave {p : Pool β} (worker : Nat) :
    p.places[worker]? = some .looking → p.stop = true →
    Step yields passed failFast cases p (p.put worker .ended)
  | goOn {p : Pool β} (worker : Nat) :
    p.places[worker]? = some .looking → p.stop = false →
    Step yields passed failFast cases p (p.put worker .taking)
  | take {p : Pool β} (worker : Nat) :
    p.places[worker]? = some .taking → p.next < cases.length →
    Step yields passed failFast cases p
      { p.put worker (.executing p.next) with next := p.next + 1 }
  | runOut {p : Pool β} (worker : Nat) :
    p.places[worker]? = some .taking → cases.length ≤ p.next →
    Step yields passed failFast cases p { p.put worker .ended with next := p.next + 1 }
  | execute {p : Pool β} (worker : Nat) {index : Nat} {a : α} {b : β} :
    p.places[worker]? = some (.executing index) → cases[index]? = some a → yields a b →
    Step yields passed failFast cases p
      { p.put worker (.marking index b) with executed := p.executed ++ [index] }
  | mark {p : Pool β} (worker : Nat) {index : Nat} {b : β} :
    p.places[worker]? = some (.marking index b) →
    Step yields passed failFast cases p
      { p.put worker (.storing index b) with stop := p.stop || (failFast && !passed b) }
  | store {p : Pool β} (worker : Nat) {index : Nat} {b : β} :
    p.places[worker]? = some (.storing index b) →
    Step yields passed failFast cases p
      { p.put worker .looking with stored := p.stored ++ [(index, b)] }

/-- What any number of steps lead to. -/
inductive Reaches (yields : α → β → Prop) (passed : β → Bool) (failFast : Bool) (cases : List α) :
    Pool β → Pool β → Prop
  | refl (p : Pool β) : Reaches yields passed failFast cases p p
  | tail {p q r : Pool β} :
    Reaches yields passed failFast cases p q → Step yields passed failFast cases q r →
    Reaches yields passed failFast cases p r

/-- How many workers a run has. -/
def count (jobs cases : Nat) : Nat := min jobs cases

end LedgerConformance.Workers
