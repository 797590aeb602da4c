import ExecWatch.Text.Bytes

/-!
# Memory as the probe reads it

The probe reaches memory through helpers only, and each may refuse. Every access is recorded, and a
user memory may answer differently from one access to the next: it is given the accesses made so
far, latest first. A string read is given the window it may write and hands it back, with the count
it reports. An `AddressSpace` is the memory that stays as it is and reports what it did.
-/

namespace ExecWatch

/-- One memory access of the probe. -/
inductive Access where
  | userPointer (address : UInt64)
  | userString (address : UInt64) (window : Nat)
  | kernelPointer (address : UInt64)
  | kernelInt (address : UInt64)
deriving Repr, DecidableEq

/-- What a string read did: the window afterwards and the reported number of bytes copied, the NUL
not counted; no number is a fault. -/
structure StringRead where
  window : Bytes
  copied : Option UInt64

/-- The traced process's memory. A string read may write anything into its window, also when it
faults, and report any number, but never changes the window's size. -/
structure UserMemory where
  pointer : List Access → UInt64 → Option UInt64
  string : List Access → UInt64 → Bytes → StringRead
  length_string : ∀ seen address window,
    (string seen address window).window.length = window.length

/-- Kernel memory: pointers and signed 32-bit fields. -/
structure KernelMemory where
  pointer : UInt64 → Option UInt64
  int : UInt64 → Option Int32

/-- User memory at rest: the pointer words and the strings that can be read, by address. -/
structure AddressSpace where
  word : UInt64 → Option UInt64
  string : UInt64 → Option Bytes

namespace StringRead

/-- The window is left as it was. -/
def fault (window : Bytes) : StringRead := ⟨window, none⟩

/-- Copies what fits beside a NUL to the window's front, writes the NUL behind it and reports the
number of bytes copied plus `extra`. An empty window has no room for the NUL. -/
def copy (text window : Bytes) (extra : UInt64) : StringRead :=
  if window.length = 0 then fault window
  else
    let copied := text.take (window.length - 1)
    ⟨copied ++ 0 :: window.drop (copied.length + 1), some (UInt64.ofNat copied.length + extra)⟩

@[simp] theorem length_fault (window : Bytes) : (fault window).window.length = window.length := rfl

@[simp] theorem length_copy (text window : Bytes) (extra : UInt64) :
    (copy text window extra).window.length = window.length := by
  unfold copy
  split
  · rfl
  · simp only [List.length_append, List.length_cons, List.length_drop, List.length_take]
    omega

end StringRead

namespace UserMemory

/-- The memory whose string reads copy from `space` and report `extra` bytes more than they copied,
by address. -/
def overReporting (space : AddressSpace) (extra : UInt64 → UInt64) : UserMemory where
  pointer _ address := space.word address
  string _ address window :=
    match space.string address with
    | some text => StringRead.copy text window (extra address)
    | none => StringRead.fault window
  length_string _ address window := by
    cases space.string address <;> simp

/-- The memory that stays as `space` is and reports truthfully. -/
def ofSpace (space : AddressSpace) : UserMemory :=
  overReporting space fun _ => 0

end UserMemory

end ExecWatch
