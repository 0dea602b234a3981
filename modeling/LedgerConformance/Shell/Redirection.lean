import LedgerConformance.Shell.Expansion

/-!
Redirections. Their words are expanded first; then they take place one after the
other, and what they replace is kept so that it can come back.
-/

namespace LedgerConformance.Shell.Redirection

/-- A redirection whose word has been expanded. -/
inductive Ready where
  | file (descriptor : Nat) (access : Access) (path : Raw)
  | duplicate (descriptor source : Nat)
  | close (descriptor : Nat)
  /-- A text that is expanded when its turn comes. -/
  | document (descriptor : Nat) (word : Word)

def Ready.descriptor : Ready → Nat
  | file d .. | duplicate d _ | close d | document d _ => d

/-- What was replaced: descriptors and where their copies are, if they were open. -/
abbrev Saved : Type := List (Nat × Option Nat)

variable (k : Interpreter)

/-- Refuses what is no number of a descriptor; the line is the one up to which the
script has been read. -/
def refuse : Sh Ready := do
  modify fun s => { s with faultLine := s.readLine }
  Sh.fail "Syntax error: Bad fd number".toList

/-- Expands the word of a redirection. -/
def prepare : Redirect → Sh Ready
  | .document descriptor number => do
    return .document descriptor (((← get).documents.lookup number).getD [])
  | .open descriptor opening word => do
    let target ← Expand.text k word { tilde := true }
    match opening with
    | .read => return .file descriptor .read target
    | .both => return .file descriptor .both target
    | .append => return .file descriptor .append target
    | .write overwrite =>
      let keeps := !overwrite && (← Sh.hasOption 'C')
      return .file descriptor { Access.write with fresh := keeps } target
    | .duplicate _ =>
      match target with
      | ['-'] => return .close descriptor
      | [c] =>
        if c.isDigit then return .duplicate descriptor (c.toNat - '0'.toNat)
        refuse
      | _ => refuse

/-- Why a file cannot be opened, in the words of scripts. -/
def reason (creates : Bool) : CallError → Raw
  | .file .notFound | .file .notDirectory =>
    (if creates then "Directory nonexistent" else "No such file").toList
  | e => Raw.ofString e.describe

/-- Puts a text where it can be read. -/
def provideText (descriptor : Nat) (text : Raw) : Sh Unit := do
  let (source, target) ← Sh.ask .pipe
  if text.length ≤ Act.pieceSize then
    let _ ← Sh.act (Act.write target text)
  else
    let _ ← Sh.forkChild k true do
      Sh.ask (.close source)
      let _ ← Sh.act (Act.write target text)
  Sh.ask (.close target)
  let _ ← Sh.ask (.duplicate source descriptor)
  Sh.ask (.close source)

/-- Carries out a redirection. -/
def perform : Ready → Sh Unit
  | .close descriptor => do Sh.ask (.close descriptor)
  | .document descriptor word => do provideText k descriptor (← Expand.text k word {})
  | .duplicate descriptor source => do
    if descriptor == source then return
    match ← Sh.ask (.duplicate source descriptor) with
    | some e => Sh.fail (Raw.ofNat source ++ ": ".toList ++ Raw.ofString e.describe)
    | none => return
  | .file descriptor access path => do
    match ← Sh.ask (.open descriptor path access) with
    | some e =>
      let verb := if access.creates then "create " else "open "
      Sh.fail ("cannot ".toList ++ verb.toList ++ path ++ ": ".toList ++ reason access.creates e)
    | none => return

/-- Keeps what a redirection replaces, unless that is kept already. What a copy is to replace is
closed at once, so nothing can be told there if that fails. -/
def keep (saved : Saved) (r : Ready) : Sh Saved := do
  let descriptor := r.descriptor
  if saved.any (·.1 == descriptor) then return saved
  let copy ← Sh.ask (.save descriptor)
  match r with
  | .duplicate _ source => if source != descriptor then Sh.ask (.close descriptor)
  | _ => pure ()
  return (descriptor, copy) :: saved

/-- Brings back what was replaced. -/
def restore (saved : Saved) : Sh Unit :=
  saved.forM fun (descriptor, copy) => do
    match copy with
    | none => Sh.ask (.close descriptor)
    | some copy =>
      let _ ← Sh.ask (.duplicate copy descriptor)
      Sh.ask (.close copy)

/-- Forgets what was replaced. -/
def forget (saved : Saved) : Sh Unit :=
  saved.forM fun (_, copy) => do
    match copy with
    | none => return
    | some copy => Sh.ask (.close copy)

/-- Carries out redirections; the answer holds what they replaced, and whether one
of them failed. -/
def apply (redirects : List Ready) : Sh (Saved × Bool) := do
  Sh.iterate (fun (left, saved) => do
    match left with
    | [] => return .inr (saved, false)
    | r :: rest =>
      let saved ← keep saved r
      match ← Sh.attempt (perform k r) with
      | .ok () => return .inl (rest, saved)
      | .error .fault => return .inr (saved, true)
      | .error e => throw e) (fun (_, saved) => pure (saved, false)) (redirects.length + 1)
    (redirects, ([] : Saved))

end LedgerConformance.Shell.Redirection
