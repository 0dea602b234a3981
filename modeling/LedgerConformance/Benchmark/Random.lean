import LedgerConformance.Decimal.Binary64

/-!
A reproducible source of random words. A seed is expanded into a state that is
not zero, and every draw shifts and mixes the state.
-/

namespace LedgerConformance.Benchmark

/-- The step between the states that seeds are expanded from. -/
def goldenStep : UInt64 := 0x9E3779B97F4A7C15

/-- Spreads the bits of a seed over a whole word. -/
def expand (seed : UInt64) : UInt64 :=
  let z := seed + goldenStep
  let z := (z ^^^ (z >>> 30)) * 0xBF58476D1CE4E5B9
  let z := (z ^^^ (z >>> 27)) * 0x94D049BB133111EB
  z ^^^ (z >>> 31)

/-- A random source, which is its state. -/
structure Source where
  state : UInt64
deriving DecidableEq, Repr

/-- Computations that draw from a source. -/
abbrev Draw (α : Type) : Type := StateM Source α

namespace Source

def ofSeed (seed : UInt64) : Source := ⟨if expand seed == 0 then goldenStep else expand seed⟩

/-- The state after `x`. -/
def shift (x : UInt64) : UInt64 :=
  let x := x ^^^ (x >>> 12)
  let x := x ^^^ (x <<< 25)
  x ^^^ (x >>> 27)

/-- A word, and the source that is left. -/
def next (s : Source) : UInt64 × Source :=
  let state := shift s.state
  (state * 0x2545F4914F6CDD1D, ⟨state⟩)

end Source

namespace Draw

def word : Draw UInt64 := fun s => s.next

/-- The 53 high bits of a word, as which a number below one is drawn. -/
def fraction : Draw Nat := do return ((← word) >>> 11).toNat

/-- The value of a fraction. -/
def unitOf (fraction : Nat) : Binary64 :=
  (Binary64.ofRatio? false fraction 0x20000000000000).getD (Binary64.zero false)

/-- True with the given probability. -/
def chance (probability : Binary64) : Draw Bool := do
  return probability.exceeds (← fraction) 0x20000000000000

/-- A number between two others, both of them possible. -/
def between (low high : Nat) : Draw Nat := do
  return low + (← word).toNat % (high - low + 1)

/-- One of some items; nothing is drawn when there is none. -/
def pick? {α : Type} (items : List α) : Draw (Option α) :=
  if items.isEmpty then return none
  else do return items[(← word).toNat % items.length]?

def pick {α : Type} (items : List α) (default : α) : Draw α := do
  return (← pick? items).getD default

end Draw

end LedgerConformance.Benchmark
