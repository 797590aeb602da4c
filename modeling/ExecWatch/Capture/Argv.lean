import ExecWatch.Capture.Memory

/-!
# Joining an argument vector

The strings of a process's argument vector, joined by single spaces into a buffer of fixed size
with a NUL behind them. At most `Argv.maxSlots` slots of the vector are visited. The join stops at
the first slot that is null or cannot be read, at the first string that cannot be read, and when
only the NUL's byte is left. The space before a string is written before the string is read, so it
stays when that read fails.
-/

namespace ExecWatch.Argv

/-- Slots of the vector that are visited at most. -/
def maxSlots : Nat := 16

/-- A join under way: the buffer, how much of it is in use, and the accesses made, latest first. -/
structure Progress where
  buffer : Bytes
  used : Nat
  seen : List Access

/-- Address of slot `i`. -/
def slotAddress (vector : UInt64) (i : Nat) : UInt64 :=
  vector + 8 * UInt64.ofNat i

/-- Writes the separating space, which every slot but the first is given. -/
def separate (i : Nat) (p : Progress) : Progress :=
  if i = 0 then p else { p with buffer := p.buffer.set p.used 0x20, used := p.used + 1 }

/-- Reads the string at `address` behind what is in use; `false` when it faults. The last byte of the
buffer is kept for the NUL, whatever the read reports. -/
def append (mem : UserMemory) (address : UInt64) (p : Progress) : Progress × Bool :=
  let window := p.buffer.drop p.used
  let read := mem.string p.seen address window
  let next : Progress :=
    { buffer := p.buffer.take p.used ++ read.window
      used := p.used
      seen := .userString address window.length :: p.seen }
  match read.copied with
  | none => (next, false)
  | some n => ({ next with used := p.used + min n.toNat (p.buffer.length - p.used - 1) }, true)

/-- Visits up to `slots` slots from slot `i` on. -/
def visit (mem : UserMemory) (vector : UInt64) : (slots i : Nat) → Progress → Progress
  | 0, _, p => p
  | slots + 1, i, p =>
    if p.buffer.length - 1 ≤ p.used then p
    else
      let address := slotAddress vector i
      let next := { p with seen := .userPointer address :: p.seen }
      match mem.pointer p.seen address with
      | none => next
      | some string =>
        if string = 0 then next
        else
          let next := separate i next
          if next.buffer.length - next.used - 1 = 0 then next
          else
            match append mem string next with
            | (next, false) => next
            | (next, true) => visit mem vector slots (i + 1) next

/-- Joins the vector at `vector` into `buffer`. A null vector has no strings. -/
def join (mem : UserMemory) (vector : UInt64) (buffer : Bytes) (seen : List Access) : Progress :=
  let p : Progress := ⟨buffer, 0, seen⟩
  let p := if vector = 0 then p else visit mem vector maxSlots 0 p
  let length := min p.used (p.buffer.length - 1)
  { p with buffer := p.buffer.set length 0, used := length }

end ExecWatch.Argv
