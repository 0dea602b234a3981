/-!
Reading bytes as UTF-8 where not all of them are. Every longest part that
starts a character but does not complete one becomes one replacement
character, and so does every byte that starts none.
-/

namespace LedgerConformance.Text.Utf8

def replacement : Char := '\uFFFD'

/-- A character that is not complete: how many bytes are still missing, the
bits so far, and the bounds of the next byte. -/
structure Partial where
  missing : Nat
  value : Nat
  low : Nat
  high : Nat
deriving DecidableEq, Repr

/-- The characters read so far, newest first, and what is not complete. -/
structure State where
  read : List Char := []
  pending : Option Partial := none
deriving DecidableEq, Repr

/-- What the first byte of a longer character says. -/
def lead? (b : Nat) : Option Partial :=
  if 0xC2 ≤ b && b ≤ 0xDF then some ⟨1, b - 0xC0, 0x80, 0xBF⟩
  else if b == 0xE0 then some ⟨2, 0, 0xA0, 0xBF⟩
  else if b == 0xED then some ⟨2, 0xD, 0x80, 0x9F⟩
  else if 0xE1 ≤ b && b ≤ 0xEF then some ⟨2, b - 0xE0, 0x80, 0xBF⟩
  else if b == 0xF0 then some ⟨3, 0, 0x90, 0xBF⟩
  else if 0xF1 ≤ b && b ≤ 0xF3 then some ⟨3, b - 0xF0, 0x80, 0xBF⟩
  else if b == 0xF4 then some ⟨3, 4, 0x80, 0x8F⟩
  else none

/-- Takes in a byte where a character starts. -/
def State.start (read : List Char) (b : Nat) : State :=
  if b < 0x80 then { read := Char.ofNat b :: read }
  else
    match lead? b with
    | some p => { read, pending := some p }
    | none => { read := replacement :: read }

def State.step (s : State) (byte : UInt8) : State :=
  let b := byte.toNat
  match s.pending with
  | none => State.start s.read b
  | some p =>
    if p.low ≤ b && b ≤ p.high then
      let value := 64 * p.value + (b - 0x80)
      if p.missing ≤ 1 then { read := Char.ofNat value :: s.read }
      else { s with pending := some ⟨p.missing - 1, value, 0x80, 0xBF⟩ }
    else State.start (replacement :: s.read) b

def State.finish (s : State) : List Char :=
  (if s.pending.isSome then replacement :: s.read else s.read).reverse

/-- The text of some bytes. -/
def decodeLossy (bytes : ByteArray) : String :=
  String.ofList (bytes.data.foldl State.step {}).finish

end LedgerConformance.Text.Utf8
