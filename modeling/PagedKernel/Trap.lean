import PagedKernel.Paging.Fault
import PagedKernel.Registers

/-!
# Traps

The interrupts other than system calls.

* `Trap.kind`            what an interrupt vector stands for
* `Trap.decode`          the trap that saved registers tell of
* `Trap.isKernelFault`   whether the kernel itself made the refused access
-/

namespace PagedKernel

/-- an interrupt other than a system call -/
inductive Trap where
  /-- the periodic timer -/
  | timer
  /-- an access to `va` was refused -/
  | pageFault (va : VirtualAddress) (code : FaultCode)
  /-- anything else -/
  | unexpected (vector code : UInt64)
  deriving DecidableEq, Inhabited

namespace Trap

def timerVector : UInt64 := 32

def pageFaultVector : UInt64 := 14

/-- whether the registers tell of a page fault, whose address the machine has to be asked for -/
def needsAddress (r : Registers) : Bool :=
  r.intno == pageFaultVector

/-- the trap that saved registers tell of; `va` is where the machine saw the last refused access -/
def decode (r : Registers) (va : VirtualAddress) : Trap :=
  if r.intno = timerVector then timer
  else if r.intno = pageFaultVector then pageFault va ⟨r.errcode⟩
  else unexpected r.intno r.errcode

/-- whether the kernel itself made the refused access -/
def isKernelFault : Trap → Bool
  | pageFault _ code => !code.user
  | _ => false

end Trap

end PagedKernel
