import ExecWatch.Exec.Record
import ExecWatch.Text.Utf8

/-!
# Decoded execs

A record as its reader sees it: the numbers, and the three fields as text up to their first NUL,
with U+FFFD for bytes that are no UTF-8.
-/

namespace ExecWatch

structure ExecInfo where
  pid : UInt32
  ppid : UInt32
  uid : UInt32
  gid : UInt32
  comm : String
  filename : String
  argv : String
deriving DecidableEq, Repr

/-- A field as text. -/
def Field.toText {width : Nat} (f : Field width) : String :=
  String.ofList (Utf8.lossy f.text)

namespace ExecInfo

def ofRecord (r : Record) : ExecInfo :=
  { pid := r.pid
    ppid := r.ppid
    uid := r.uid
    gid := r.gid
    comm := r.comm.toText
    filename := r.filename.toText
    argv := r.argv.toText }

/-- Decodes one sample; `none` when it is not exactly one record. -/
def decode? (sample : Bytes) : Option ExecInfo :=
  (Record.decode? sample).map ofRecord

end ExecInfo

end ExecWatch
