import ExecWatch.Capture.Probe

/-!
# What a firing reads of its task and its context

The two halves of the id words are the ids (`Task.pid_eq`, `uid_eq`, `gid_eq`).

A context is a header and argument words behind it, each of eight bytes, lowest first.
`Context.word?` says which number an argument word is; `argument_eq` that the probe reads that
number, and 0 for a word the context does not hold in full.
-/

namespace ExecWatch

namespace Task

/-- The upper half of a word as a number. -/
theorem upperHalf_eq (w : UInt64) : (w >>> 32).toUInt32 = UInt32.ofNat (w.toNat / 0x100000000) := by
  rw [← UInt32.toNat_inj, UInt64.toNat_toUInt32, UInt64.toNat_shiftRight, UInt32.toNat_ofNat',
    Nat.shiftRight_eq_div_pow]
  rfl

theorem pid_eq (t : Task) : t.pid = UInt32.ofNat (t.pidTgid.toNat / 0x100000000) :=
  upperHalf_eq t.pidTgid

theorem uid_eq (t : Task) : t.uid = UInt32.ofNat (t.uidGid.toNat % 0x100000000) := by
  rw [uid, ← UInt32.toNat_inj, UInt64.toNat_toUInt32, UInt32.toNat_ofNat', Nat.mod_mod]

theorem gid_eq (t : Task) : t.gid = UInt32.ofNat (t.uidGid.toNat / 0x100000000) :=
  upperHalf_eq t.uidGid

end Task

namespace Context

/-- Argument word `i`: the eight bytes at its place, lowest first; none when the context ends before
their end. -/
def word? (context : Bytes) (i : Nat) : Option UInt64 :=
  if headerSize + 8 * i + 8 ≤ context.length then
    some (UInt64.ofNat
      (((context.drop (headerSize + 8 * i)).take 8).foldr (fun b n => b.toNat + 256 * n) 0))
  else none

theorem word64?_eq (bytes : Bytes) :
    Bytes.word64? bytes =
      if 8 ≤ bytes.length then
        some (UInt64.ofNat ((bytes.take 8).foldr (fun b n => b.toNat + 256 * n) 0))
      else none := by
  match bytes with
  | b0 :: b1 :: b2 :: b3 :: b4 :: b5 :: b6 :: b7 :: rest =>
    rw [if_pos (by simp only [List.length_cons]; omega)]
    simp only [Bytes.word64?, Bytes.toNat_word32, List.take_succ_cons, List.take_zero,
      List.foldr_cons, List.foldr_nil]
    congr 2
    omega
  | [] | [_] | [_, _] | [_, _, _] | [_, _, _, _] | [_, _, _, _, _] | [_, _, _, _, _, _]
  | [_, _, _, _, _, _, _] => rfl

/-- A word that is missing counts as 0. -/
theorem argument_eq (context : Bytes) (i : Nat) : argument context i = (word? context i).getD 0 := by
  unfold argument word?
  rw [word64?_eq, List.length_drop]
  congr 1
  by_cases h : headerSize + 8 * i + 8 ≤ context.length
  · rw [if_pos h, if_pos (by omega)]
  · rw [if_neg h, if_neg (by omega)]

end Context

/-- The address that argument word `i` holds; 0 when the context has no such word. -/
def Probe.address (f : Firing) (i : Nat) : UInt64 := (Context.word? f.context i).getD 0

end ExecWatch
