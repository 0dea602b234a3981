import LedgerConformance.Proofs.Ledger.LineSteps

/-!
The current block by its place. A scan may as well keep all directives in one
list, in the order of their lines, and know the current block by an index into
it; an indented line then looks its directive up, which can fail. Such a scan
agrees with the one that holds the directive itself after every line. So no look
up fails, and an index always leads to the last directive.
-/

namespace LedgerConformance.Ledger

/-- The block that an indented line would belong to, by the index of its directive. -/
inductive Pointer where
  | closed
  | broken
  | current (index : Nat)

/-- Directives and problems so far, in order. -/
structure IndexedScan where
  directives : List Directive := []
  problems : List (Located Problem) := []
  pointer : Pointer := .closed

namespace IndexedScan

def refuse (s : IndexedScan) (line : Nat) (problem : Problem) : IndexedScan :=
  { s with problems := s.problems ++ [⟨line, problem⟩] }

/-- Does what a line asks for; `none` when the index leads to no directive. -/
def follow? (s : IndexedScan) (line : Nat) : Request → Option IndexedScan
  | .nothing => some s
  | .division => some { s with pointer := .closed }
  | .head d =>
    some { s with directives := s.directives ++ [d], pointer := .current s.directives.length }
  | .refusal problem => some { s.refuse line problem with pointer := .broken }
  | .indentedRefusal problem => some (s.refuse line problem)
  | .indented first rest =>
    match s.pointer with
    | .closed => some (s.refuse line .orphanLine)
    | .broken => some s
    | .current i =>
      s.directives[i]?.map fun d =>
        match d.extend line first rest with
        | .ok grown => { s with directives := s.directives.set i grown }
        | .error problem => s.refuse line problem

/-- Takes in lines of which the first has the given number. -/
def readLines? (s : IndexedScan) (line : Nat) : List (List Char) → Option IndexedScan
  | [] => some s
  | raw :: rest => (s.follow? line (.ofLine line raw)).bind (·.readLines? (line + 1) rest)

end IndexedScan

namespace Scan

/-- The scan with its current block given by an index. -/
def indexed (s : Scan) : IndexedScan where
  directives := s.result.directives
  problems := s.result.problems
  pointer :=
    match s.block with
    | .closed => .closed
    | .broken => .broken
    | .current _ => .current s.finished.length

theorem indexed_refuse (s : Scan) (line : Nat) (problem : Problem) :
    (s.refuse line problem).indexed = s.indexed.refuse line problem := by
  simp only [indexed, result_refuse, IndexedScan.refuse]
  rfl

theorem indexed_of_current {s : Scan} {d : Directive} (h : s.block = .current d) :
    s.indexed = ⟨s.finished.reverse ++ [d], s.problems.reverse, .current s.finished.length⟩ := by
  simp [indexed, result_of_current h, h]

/-- With the current block ended, all that has been read is finished. -/
theorem length_finished_turnTo (s : Scan) (next : Block) :
    (s.turnTo next).finished.length = s.result.directives.length := by
  obtain ⟨finished, problems, block⟩ := s
  cases block <;> simp [turnTo, result]

/-- Both scans do the same with a line; in a current block, the index leads to
its directive. -/
theorem follow?_indexed (s : Scan) (line : Nat) (request : Request) :
    s.indexed.follow? line request = some (s.follow line request).indexed := by
  cases request with
  | nothing => rfl
  | division => simp [IndexedScan.follow?, follow, indexed]
  | head d => simp [IndexedScan.follow?, follow, indexed, length_finished_turnTo]
  | refusal problem =>
    rw [follow, breakOff, indexed_refuse]
    simp [IndexedScan.follow?, IndexedScan.refuse, indexed]
  | indentedRefusal problem => rw [follow, indexed_refuse, IndexedScan.follow?]
  | indented first rest =>
    cases hblock : s.block with
    | closed =>
      have hpointer : s.indexed.pointer = .closed := by simp [indexed, hblock]
      simp only [IndexedScan.follow?, follow, hpointer, hblock, indexed_refuse]
    | broken =>
      have hpointer : s.indexed.pointer = .broken := by simp [indexed, hblock]
      simp only [IndexedScan.follow?, follow, hpointer, hblock]
    | current d =>
      have hindexed := indexed_of_current hblock
      have hfound : s.indexed.directives[s.finished.length]? = some d := by simp [hindexed]
      have hpointer : s.indexed.pointer = .current s.finished.length := by rw [hindexed]
      simp only [IndexedScan.follow?, follow, hpointer, hblock, hfound, Option.map_some]
      cases hextend : d.extend line first rest with
      | ok grown =>
        have hset : s.indexed.directives.set s.finished.length grown =
            s.finished.reverse ++ [grown] := by simp [hindexed]
        simp only [hset]
        rw [hindexed, indexed_of_current rfl]
      | error problem => simp only [indexed_refuse]

theorem readLines?_indexed (s : Scan) (line : Nat) (lines : List (List Char)) :
    s.indexed.readLines? line lines = some (s.readLines line lines).indexed := by
  induction lines generalizing s line with
  | nil => rfl
  | cons raw rest ih =>
    rw [IndexedScan.readLines?, follow?_indexed, Option.bind_some, ih, readLines_cons,
      readLine_eq_follow]

/-- An index leads to the last directive. -/
theorem indexed_pointer {s : Scan} {i : Nat} (h : s.indexed.pointer = .current i) :
    i + 1 = s.indexed.directives.length := by
  cases hblock : s.block with
  | closed => simp [indexed, hblock] at h
  | broken => simp [indexed, hblock] at h
  | current d =>
    rw [indexed_of_current hblock] at h ⊢
    cases h
    simp

end Scan

end LedgerConformance.Ledger
