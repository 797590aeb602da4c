/-!
# The instrumented system calls

The two calls that replace a process image, where each keeps its path and argument vector, and the
names under which the kernel and the probe object know them.
-/

namespace ExecWatch

inductive Syscall where
  | execve
  | execveat
deriving Repr, DecidableEq

namespace Syscall

/-- Both calls, in the order in which they are attached. -/
def all : List Syscall := [.execve, .execveat]

/-- Index of the argument that points at the path. -/
def pathArg : Syscall → Nat
  | .execve => 0
  | .execveat => 1

/-- Index of the argument that points at the argument vector. -/
def argvArg : Syscall → Nat
  | .execve => 1
  | .execveat => 2

/-- Name of the program in the probe object. -/
def programName : Syscall → String
  | .execve => "trace_execve"
  | .execveat => "trace_execveat"

/-- Name of the kernel's tracepoint at the call's entry. -/
def tracepoint : Syscall → String
  | .execve => "sys_enter_execve"
  | .execveat => "sys_enter_execveat"

/-- Category of both tracepoints. -/
def category : String := "syscalls"

end Syscall

end ExecWatch
