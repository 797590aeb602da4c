import ExecWatch.Capture.Memory

/-!
# Staged address spaces

An address space laid out by hand, for trying the probe without a kernel: strings and argument
vectors are placed at increasing, 16-byte aligned addresses, words can be stored anywhere, and
addresses can be marked as faulting. The same for kernel memory, without placement.
-/

namespace ExecWatch.Staging

/-- Contents by address; the latest entry for an address counts. -/
abbrev Contents (α : Type) := List (UInt64 × α)

/-- A user address space under construction. -/
structure UserStage where
  words : Contents UInt64 := []
  strings : Contents Bytes := []
  faultingWords : List UInt64 := []
  faultingStrings : List UInt64 := []
  next : UInt64 := 0x7ffd00000000

namespace UserStage

/-- Reserves `size` bytes; neighbours never touch. -/
def reserve (s : UserStage) (size : Nat) : UserStage × UInt64 :=
  ({ s with next := s.next + (UInt64.ofNat size + 16) / 16 * 16 }, s.next)

/-- Places a string, with room for its NUL. -/
def placeString (s : UserStage) (text : Bytes) : UserStage × UInt64 :=
  let (s, address) := s.reserve (text.length + 1)
  ({ s with strings := (address, text) :: s.strings }, address)

/-- Places strings one after the other. -/
def placeStrings : UserStage → List Bytes → UserStage × List UInt64
  | s, [] => (s, [])
  | s, text :: rest =>
    let (s, address) := s.placeString text
    let (s, addresses) := placeStrings s rest
    (s, address :: addresses)

/-- Stores a word. -/
def putWord (s : UserStage) (address value : UInt64) : UserStage :=
  { s with words := (address, value) :: s.words }

/-- Stores words one behind the other. -/
def putWords : UserStage → UInt64 → List UInt64 → UserStage
  | s, _, [] => s
  | s, address, word :: rest => putWords (s.putWord address word) (address + 8) rest

/-- Places an argument vector: the strings `args`, a null slot, then the strings `after` that lie
behind it, and a last null slot. -/
def placeVector (s : UserStage) (args after : List Bytes) : UserStage × UInt64 :=
  let (s, front) := s.placeStrings args
  let (s, back) := s.placeStrings after
  let slots := front ++ 0 :: back ++ [0]
  let (s, address) := s.reserve (8 * slots.length)
  (s.putWords address slots, address)

def faultWord (s : UserStage) (address : UInt64) : UserStage :=
  { s with faultingWords := address :: s.faultingWords }

def faultString (s : UserStage) (address : UInt64) : UserStage :=
  { s with faultingStrings := address :: s.faultingStrings }

/-- The stored word, 0 where there is none, faulting or not. -/
def word (s : UserStage) (address : UInt64) : UInt64 :=
  (s.words.lookup address).getD 0

/-- The address space as the probe sees it. -/
def space (s : UserStage) : AddressSpace where
  word address := if s.faultingWords.contains address then none else s.words.lookup address
  string address := if s.faultingStrings.contains address then none else s.strings.lookup address

end UserStage

/-- Kernel memory under construction. -/
structure KernelStage where
  pointers : Contents UInt64 := []
  ints : Contents Int32 := []

namespace KernelStage

def putPointer (s : KernelStage) (address value : UInt64) : KernelStage :=
  { s with pointers := (address, value) :: s.pointers }

def putInt (s : KernelStage) (address : UInt64) (value : Int32) : KernelStage :=
  { s with ints := (address, value) :: s.ints }

/-- Kernel memory as the probe sees it. -/
def memory (s : KernelStage) : KernelMemory where
  pointer address := s.pointers.lookup address
  int address := s.ints.lookup address

end KernelStage

end ExecWatch.Staging
