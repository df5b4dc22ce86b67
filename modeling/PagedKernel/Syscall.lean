import PagedKernel.Address.Basic
import PagedKernel.Registers

/-!
# System calls

The calls a process can make.  The number of the call is in `rax`, its argument in `rdi`, and the
result goes back in `rax`.

* `CallNumber`       the calls by number
* `Syscall`          a call with its argument
* `Syscall.decode`   the call that saved registers ask for
-/

namespace PagedKernel

/-- the calls by number -/
inductive CallNumber where
  | getPid
  | yield
  | panic
  | pageAlloc
  | fork
  | exit
  deriving DecidableEq, Inhabited

/-- a number that names no call -/
structure UnknownCall where
  number : UInt64
  deriving DecidableEq

def UnknownCall.message (e : UnknownCall) : String :=
  "unknown system call number " ++ toString e.number.toNat

namespace CallNumber

def value : CallNumber → UInt64
  | getPid => 1
  | yield => 2
  | panic => 3
  | pageAlloc => 4
  | fork => 5
  | exit => 6

def ofValue (n : UInt64) : Except UnknownCall CallNumber :=
  if n = 1 then .ok getPid
  else if n = 2 then .ok yield
  else if n = 3 then .ok panic
  else if n = 4 then .ok pageAlloc
  else if n = 5 then .ok fork
  else if n = 6 then .ok exit
  else .error ⟨n⟩

def name : CallNumber → String
  | getPid => "GetPid"
  | yield => "Yield"
  | panic => "Panic"
  | pageAlloc => "PageAlloc"
  | fork => "Fork"
  | exit => "Exit"

end CallNumber

/-- a call with its argument -/
inductive Syscall where
  | getPid
  | yield
  /-- stop the machine; `message` is the address of a text, or null -/
  | panic (message : VirtualAddress)
  /-- a page of zeroes at `va` -/
  | pageAlloc (va : VirtualAddress)
  | fork
  | exit
  deriving DecidableEq, Inhabited

namespace Syscall

/-- the call that saved registers ask for -/
def decode (r : Registers) : Except UnknownCall Syscall := do
  match ← CallNumber.ofValue r.rax with
  | .getPid => return getPid
  | .yield => return yield
  | .panic => return panic ⟨r.rdi⟩
  | .pageAlloc => return pageAlloc ⟨r.rdi⟩
  | .fork => return fork
  | .exit => return exit

/-- the call and its argument, for the log -/
def text : Syscall → String
  | getPid => "GetPid"
  | yield => "Yield"
  | panic message => "Panic \x7b message: " ++ message.debugText ++ " \x7d"
  | pageAlloc va => "PageAlloc \x7b addr: " ++ va.debugText ++ " \x7d"
  | fork => "Fork"
  | exit => "Exit"

end Syscall

end PagedKernel
