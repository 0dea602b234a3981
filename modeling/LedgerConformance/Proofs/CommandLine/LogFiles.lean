import LedgerConformance.CommandLine.LogFile
import LedgerConformance.Proofs.FileSystem.Files
import LedgerConformance.Proofs.Log.Entries

/-!
The files that logs are written to. What was driven out of the buffer and what is held
in it are together the lines of all entries, and at the end nothing is held; so the
file has every line, and the check of the file finds them all in order.
-/

namespace LedgerConformance.CommandLine

open Log (Emitter Entry logText)

/-! ### Pieces -/

namespace Action

/-- A piece that is put at the end of a file is behind the ones before it. -/
theorem put_file {s : Session} {path content : String} {names : List String}
    (h : s.files.Holds path names content.toUTF8) (text : String) :
    ∃ s', (put text (.file names content.utf8ByteSize)).run.run s =
        (.ok (.file names (content ++ text).utf8ByteSize), s') ∧
      s'.files.Holds path names (content ++ text).toUTF8 := by
  obtain ⟨changed, hput, hholds⟩ := h.putAt_size text.toUTF8
  have hbytes : content.toUTF8 ++ text.toUTF8 = (content ++ text).toUTF8 :=
    String.toByteArray_append.symm
  rw [hbytes] at hholds
  refine ⟨{ s with files := changed }, ?_, hholds⟩
  have hchange : (change (·.putAt names content.utf8ByteSize text.toUTF8)).run.run s =
      (.ok (), { s with files := changed }) := by
    refine run_bind_eq_ok_iff.mpr ⟨s.files, s, rfl, ?_⟩
    refine run_bind_eq_ok_iff.mpr ⟨changed, s, ?_, rfl⟩
    have hsize : s.files.putAt names content.utf8ByteSize text.toUTF8 = .ok changed := hput
    dsimp only
    rw [hsize]
    rfl
  refine run_bind_eq_ok_iff.mpr ⟨(), _, hchange, ?_⟩
  rw [String.utf8ByteSize_append]
  rfl

end Action

namespace LogFile

/-- The file at the path has all that was written but what is held back. -/
def Follows (l : LogFile) (s : Session) (path written : String) : Prop :=
  ∃ names content, l.destination = .file names content.utf8ByteSize ∧
    s.files.Holds path names content.toUTF8 ∧ content ++ l.buffer.held = written

variable {l : LogFile} {s : Session} {path written : String}

/-- A log that was started at a path which leads to a file has written nothing yet. -/
theorem follows_create {w : Emitter} {created : Session}
    (h : (create path w).run.run s = (.ok l, created)) (hpath : Path.descriptor? path = none)
    (hfile : created.files.isFile path = true) :
    l.emitter = w ∧ l.Follows created path "" := by
  obtain ⟨destination, s', hcreate, h⟩ := run_bind_eq_ok_iff.mp h
  cases h
  refine ⟨rfl, ?_⟩
  unfold Action.create at hcreate
  rw [hpath] at hcreate
  obtain ⟨_, parents, -, hcreate⟩ := run_bind_eq_ok_iff.mp hcreate
  obtain ⟨fs, _, hfs, hcreate⟩ := run_bind_eq_ok_iff.mp hcreate
  cases hfs
  obtain ⟨⟨changed, names⟩, _, hchanged, hcreate⟩ := run_bind_eq_ok_iff.mp hcreate
  obtain ⟨_, _, hmodified, hcreate⟩ := run_bind_eq_ok_iff.mp hcreate
  cases hmodified
  cases hcreate
  cases hmade : parents.files.create path with
  | error e =>
    rw [hmade] at hchanged
    cases hchanged
  | ok made =>
    rw [hmade] at hchanged
    cases hchanged
    exact ⟨names, "", rfl, FileSystem.holds_of_create hmade hfile, rfl⟩

theorem follows_emit (h : l.Follows s path written) (e : Entry) :
    ∃ l' s', (l.emit e).run.run s = (.ok l', s') ∧ l'.emitter = (l.emitter.emit e).1 ∧
      l'.Follows s' path (written ++ ((l.emitter.emit e).2.line ++ "\n")) := by
  obtain ⟨names, content, hdestination, hholds, hwritten⟩ := h
  cases hemitted : l.emitter.emit e with
  | mk emitter entry =>
    have hbuffer := l.buffer.addLine_append_held entry.line
    cases hadded : l.buffer.addLine entry.line with
    | mk text buffer =>
      rw [hadded] at hbuffer
      obtain ⟨s', hput, hholds'⟩ := Action.put_file hholds text
      have hrun : (l.emit e).run.run s =
          (.ok ⟨emitter, .file names (content ++ text).utf8ByteSize, buffer⟩, s') := by
        unfold emit
        rw [hemitted]
        dsimp only
        rw [hadded, hdestination]
        exact run_bind_eq_ok_iff.mpr ⟨_, s', hput, rfl⟩
      refine ⟨_, s', hrun, rfl, names, content ++ text, rfl, hholds', ?_⟩
      rw [String.append_assoc, hbuffer, ← String.append_assoc, hwritten]

theorem follows_emits (h : l.Follows s path written) (entries : List Entry) :
    ∃ l' s', (entries.foldlM emit l).run.run s = (.ok l', s') ∧
      l'.Follows s' path (written ++ logText (l.emitter.emitted entries)) := by
  induction entries generalizing l s written with
  | nil =>
    refine ⟨l, s, rfl, ?_⟩
    have hnone : logText (l.emitter.emitted []) = "" := rfl
    rw [hnone, String.append_empty]
    exact h
  | cons e rest ih =>
    obtain ⟨next, s', hemit, hemitter, hfollows⟩ := follows_emit h e
    obtain ⟨last, s'', hrest, hfollows'⟩ := ih hfollows
    refine ⟨last, s'', ?_, ?_⟩
    · rw [List.foldlM_cons]
      exact run_bind_eq_ok_iff.mpr ⟨next, s', hemit, hrest⟩
    · rw [Emitter.emitted, ← hemitter, Log.logText_cons, ← String.append_assoc]
      exact hfollows'

/-- At the end the file has all that was written. -/
theorem holds_finish (h : l.Follows s path written) (entries : List Entry) :
    ∃ s' names, (l.finish entries).run.run s = (.ok (), s') ∧
      s'.files.Holds path names (written ++ logText (l.emitter.emitted entries)).toUTF8 := by
  obtain ⟨last, s', hemits, names, content, hdestination, hholds, hwritten⟩ :=
    follows_emits h entries
  obtain ⟨s'', hput, hholds'⟩ := Action.put_file hholds last.buffer.held
  rw [hwritten] at hholds'
  refine ⟨s'', names, run_bind_eq_ok_iff.mpr ⟨last, s', hemits, ?_⟩, hholds'⟩
  rw [hdestination]
  exact run_bind_eq_ok_iff.mpr ⟨_, s'', hput, rfl⟩

end LogFile

/-! ### The logs of the commands -/

/-- What the commands log: about a run its start, every result and its end; about a
comparison every input and its end. -/
inductive Logged : List Entry → Prop
  | run (c : RunCases) (selected : Nat) (report : RunReport) (hselected : Json.IsCount selected)
      (hjobs : Json.IsCount c.jobs) (hcount : Json.IsCount report.results.length)
      (hresults : ∀ r ∈ report.results, ∃ observe case files, r.Executed observe case files) :
      Logged (c.logEntries selected report)
  | comparison (runner : Differential.Runner) (timestamp : String)
      (checked : List Differential.Checked) (hcount : Json.IsCount checked.length) :
      Logged (checked.map CompareTools.inputEntry ++
        [CompareTools.endEntry (Differential.Report.ofChecked runner timestamp checked)])

theorem Logged.pending {entries : List Entry} (h : Logged entries) : ∀ e ∈ entries, e.Pending := by
  cases h with
  | run c selected report hselected hjobs hcount hresults =>
    have hall : ∀ e ∈ report.results.map (Entry.ofResult · report.implementation), e.Pending := by
      intro e he
      obtain ⟨r, hr, rfl⟩ := List.mem_map.mp he
      obtain ⟨observe, case, files, hexecuted⟩ := hresults r hr
      exact Entry.pending_ofResult hexecuted.loggable _
    rw [RunCases.logEntries, RunCases.closingEntries, List.forall_mem_cons,
      List.forall_mem_append, List.forall_mem_singleton]
    exact ⟨c.pending_startEntry _ hselected hjobs, hall, RunCases.pending_endEntry hcount⟩
  | comparison runner timestamp checked hcount =>
    rw [List.forall_mem_append, List.forall_mem_singleton, List.forall_mem_map]
    exact ⟨fun c _ => CompareTools.pending_inputEntry c,
      CompareTools.pending_endEntry runner timestamp hcount⟩

/-- Every log that a command writes to a file passes its check, with as many lines as
entries and nothing found; and an emitter gives the entries without a trace identifier
the numbers of its run in order, so that they all differ. -/
theorem log_passes_check (runId timestamp : String) :
    (∀ {entries : List Entry}, Logged entries → ∀ {path : String} {s created : Session}
      {log : LogFile},
      (LogFile.create path { runId, timestamp }).run.run s = (.ok log, created) →
      Path.descriptor? path = none → created.files.isFile path = true →
      ∃ final, (log.finish entries).run.run created = (.ok (), final) ∧
        final.files.readText path =
          .ok (logText (Emitter.emitted { runId, timestamp } entries)) ∧
        Log.checkFile final.files path = .ok (entries.length, [])) ∧
    ∀ entries : List Entry,
      Emitter.given { runId, timestamp } entries =
        (List.range' 1 (entries.countP fun e => e.traceId.isEmpty)).map (Emitter.traceId runId) ∧
      (Emitter.given { runId, timestamp } entries).Nodup := by
  constructor
  · intro entries hlogged path s created log hcreate hpath hfile
    obtain ⟨hemitter, hfollows⟩ := LogFile.follows_create hcreate hpath hfile
    obtain ⟨final, names, hfinish, hholds⟩ := LogFile.holds_finish hfollows entries
    rw [hemitter, String.empty_append] at hholds
    have hcheck := Emitter.checkText_emitted hlogged.pending { runId, timestamp }
    refine ⟨final, hfinish, hholds.readText, ?_⟩
    rw [Log.checkFile, hholds.readText, Except.map, hcheck]
  · intro entries
    exact ⟨Emitter.given_eq { runId, timestamp } entries,
      Emitter.nodup_given { runId, timestamp } entries⟩

/-- A case whose identifier has quotes and a line feed. -/
def quotedCase : Case := { id := "say \"hi\"\n", expected := { parse := some .success } }

/-- What is left of a program that was stopped. -/
def stoppedOutcome : Outcome :=
  { implementation := "tool", exitCode := some (-9), parse := some .error, timedOut := true
    duration := 1500000 }

def stoppedReport : RunReport :=
  { implementation := "tool", results := [Run.judge quotedCase (.ok stoppedOutcome)] }

theorem log_passes_check_stoppedReport :
    let entries := RunCases.logEntries { manifest := "manifest.json" } 1 stoppedReport
    ∃ (log : LogFile) (created final : Session),
      (LogFile.create "log.jsonl" { runId := "tool-7", timestamp := "" }).run.run { files := {} } =
        (.ok log, created) ∧
      (log.finish entries).run.run created = (.ok (), final) ∧
      Log.checkFile final.files "log.jsonl" = .ok (3, []) ∧
      Emitter.given { runId := "tool-7", timestamp := "" } entries =
        ["tool-7::001", "tool-7::002", "tool-7::003"] := by
  intro entries
  have hexecuted : (Run.judge quotedCase (.ok stoppedOutcome)).Executed
      (fun _ => return stoppedOutcome) quotedCase {} := by
    refine ⟨rfl, ⟨by simp [quotedCase], by simp [quotedCase], by simp [quotedCase]⟩, ?_⟩
    intro o ho
    cases ho
    exact ⟨by simp [stoppedOutcome], by simp [stoppedOutcome, Json.IsCount],
      by simp [stoppedOutcome], by simp [stoppedOutcome], by simp [stoppedOutcome]⟩
  have hlogged : Logged entries := by
    refine .run _ 1 stoppedReport ?_ ?_ ?_ ?_
    · simp [Json.IsCount]
    · simp [Json.IsCount]
    · simp [Json.IsCount, stoppedReport]
    · exact List.forall_mem_singleton.mpr ⟨_, _, _, hexecuted⟩
  obtain ⟨hpasses, hgiven⟩ := log_passes_check "tool-7" ""
  cases hcreate : (LogFile.create "log.jsonl" { runId := "tool-7", timestamp := "" }).run.run
      { files := {} } with
  | mk result created =>
    have hfile : ((LogFile.create "log.jsonl" { runId := "tool-7", timestamp := "" }).run.run
        { files := {} }).2.files.isFile "log.jsonl" = true := by decide +kernel
    have hok : ((LogFile.create "log.jsonl" { runId := "tool-7", timestamp := "" }).run.run
        { files := {} }).1.isOk = true := by decide +kernel
    rw [hcreate] at hfile hok
    cases result with
    | error e => cases hok
    | ok log =>
      obtain ⟨final, hfinish, -, hcheck⟩ := hpasses hlogged hcreate (by decide +kernel) hfile
      refine ⟨log, created, final, rfl, hfinish, hcheck, ?_⟩
      rw [(hgiven entries).1]
      decide +kernel

end LedgerConformance.CommandLine
