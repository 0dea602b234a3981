import LedgerConformance.Log.Emitter
import LedgerConformance.Proofs.Calendar.DateText
import LedgerConformance.Proofs.Log.Lines

/-!
The entries that an emitter writes. It changes the time and a missing trace identifier
of an entry and nothing else, so what it writes of entries that lack nothing else is
without fault; and the identifiers that it gives are those of its run, in order and
all different.
-/

namespace LedgerConformance.Log

/-- An entry that lacks nothing but its trace identifier. -/
structure Entry.Pending (e : Entry) : Prop where
  writable : e.Writable
  complete : e.Complete
  traceId : e.traceId.isEmpty = true

namespace Emitter

variable {w : Emitter}

theorem occursIn_append (before needle after : List Char) :
    Text.occursIn needle (before ++ (needle ++ after)) = true := by
  induction before with
  | nil =>
    have hprefix : needle.isPrefixOf (needle ++ after) = true :=
      List.isPrefixOf_iff_prefix.mpr (List.prefix_append needle after)
    rw [List.nil_append]
    cases htext : needle ++ after with
    | nil =>
      rw [(List.append_eq_nil_iff.mp htext).1]
      rfl
    | cons c rest => rw [Text.occursIn, ← htext, hprefix, Bool.true_or]
  | cons c before ih => rw [List.cons_append, Text.occursIn, ih, Bool.or_true]

theorem contains_traceId (runId : String) (number : Nat) :
    Text.contains (traceId runId number) "::" = true := by
  rw [Text.contains, traceId, String.append_assoc, String.toList_append, String.toList_append]
  exact occursIn_append _ _ _

/-- Different numbers make different identifiers, however great they are. -/
theorem eq_of_traceId_eq {runId : String} {a b : Nat} (h : traceId runId a = traceId runId b) :
    a = b := by
  have htext : Date.padded 3 a = Date.padded 3 b := by
    simpa [traceId, String.append_assoc] using h
  rw [← Date.numeral_padded 3 a, htext, Date.numeral_padded]

/-! ### One entry -/

theorem emit_runId (w : Emitter) (e : Entry) : (w.emit e).1.runId = w.runId := rfl

theorem emit_sequence (w : Emitter) (e : Entry) :
    (w.emit e).1.sequence = w.sequence + if e.traceId.isEmpty then 1 else 0 := by
  unfold emit
  dsimp only
  split <;> rfl

theorem emit_traceId {e : Entry} (h : e.traceId.isEmpty = true) :
    (w.emit e).2.traceId = traceId w.runId (w.sequence + 1) := by
  unfold emit
  rw [h]
  rfl

theorem writable_emit {e : Entry} (h : e.Writable) : (w.emit e).2.Writable :=
  ⟨h.exitCode, h.duration, h.details⟩

theorem complete_emit {e : Entry} (h : e.Complete) : (w.emit e).2.Complete :=
  ⟨h.kind, h.event, h.result⟩

/-- A pending entry is written without a fault. -/
theorem faults_emit {e : Entry} (h : e.Pending) : (w.emit e).2.faults = [] := by
  rw [Entry.faults_eq_nil_iff, emit_traceId h.traceId]
  exact ⟨complete_emit h.complete, contains_traceId _ _⟩

/-! ### All entries -/

/-- The entries as they are written one after another. -/
def emitted (w : Emitter) : List Entry → List Entry
  | [] => []
  | e :: rest => (w.emit e).2 :: (w.emit e).1.emitted rest

/-- The trace identifiers of those that had none. -/
def given (w : Emitter) : List Entry → List String
  | [] => []
  | e :: rest =>
    if e.traceId.isEmpty then (w.emit e).2.traceId :: (w.emit e).1.given rest
    else (w.emit e).1.given rest

theorem length_emitted (w : Emitter) (entries : List Entry) :
    (w.emitted entries).length = entries.length := by
  induction entries generalizing w with
  | nil => rfl
  | cons e rest ih => rw [emitted, List.length_cons, ih, List.length_cons]

/-- The identifiers that are given are the next numbers of the run. -/
theorem given_eq (w : Emitter) (entries : List Entry) :
    w.given entries =
      (List.range' (w.sequence + 1) (entries.countP fun e => e.traceId.isEmpty)).map
        (traceId w.runId) := by
  induction entries generalizing w with
  | nil => rfl
  | cons e rest ih =>
    rw [given, ih, emit_sequence, emit_runId, List.countP_cons]
    by_cases hid : e.traceId.isEmpty = true
    · rw [if_pos hid, if_pos hid, emit_traceId hid, List.range'_succ, List.map_cons]
    · rw [if_neg hid, if_neg hid]
      rfl

theorem nodup_given (w : Emitter) (entries : List Entry) : (w.given entries).Nodup := by
  rw [given_eq]
  exact List.Nodup.map (fun _ _ => eq_of_traceId_eq) List.nodup_range'

theorem forall_emitted {p : Entry → Prop} {entries : List Entry}
    (h : ∀ w : Emitter, ∀ e ∈ entries, p (w.emit e).2) (w : Emitter) :
    ∀ e ∈ w.emitted entries, p e := by
  induction entries generalizing w with
  | nil => simp [emitted]
  | cons e rest ih =>
    rw [emitted, List.forall_mem_cons]
    exact ⟨h w e List.mem_cons_self, ih (fun w e he => h w e (List.mem_cons_of_mem _ he)) _⟩

/-- The text of pending entries passes the check. -/
theorem checkText_emitted {entries : List Entry}
    (h : ∀ e ∈ entries, e.Pending) (w : Emitter) :
    checkText (logText (w.emitted entries)) = (entries.length, []) := by
  have hwritable : ∀ e ∈ w.emitted entries, e.Writable :=
    forall_emitted (fun w e he => writable_emit (h e he).writable) w
  have hfaults : ∀ e ∈ w.emitted entries, e.faults = [] :=
    forall_emitted (fun w e he => faults_emit (h e he)) w
  have hnone : ∀ place ∈ (w.emitted entries).zipIdx 1,
      place.1.faults.map (fun problem => (⟨place.2, problem⟩ : Finding)) = [] := by
    intro place hplace
    rw [hfaults place.1 (List.fst_mem_of_mem_zipIdx hplace), List.map_nil]
  rw [checkText_logText hwritable, length_emitted, List.flatMap_eq_nil_iff.mpr hnone]

end Emitter

end LedgerConformance.Log
