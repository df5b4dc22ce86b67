import PagedKernel.Kernel.Lifecycle
import PagedKernel.Kernel.Schedule
import PagedKernel.Trap

/-!
# Entering the kernel

A running process gives up control by a system call or because an interrupt arrives.  Either way its
registers are saved, the host is shown memory and asked whether to stop, and in the end control goes
to a process again.

* `Kernel.exception`   an interrupt other than a system call
* `Kernel.syscall`     a system call
-/

namespace PagedKernel

namespace Kernel

/-- save the registers of the current process; returns its pid -/
def save (registers : Registers) : Action Kernel Pid := do
  let pid := (← get).current
  changeProcess pid fun p => { p with registers }
  return pid

/-! ## interrupts -/

/-- the trap that saved registers tell of; the host is asked for the address of a page fault -/
def decodeTrap (registers : Registers) : Action Kernel Trap := do
  let va := (← get).host.faultAddress
  if Trap.needsAddress registers then tell (.faultAddress va)
  return Trap.decode registers va

/-- count a tick of the timer, and let the next process run -/
def timerTick : Attempt Kernel Halt Dispatch := do
  let ticks ← Word.add (← get).ticks 1
  modify fun k => { k with ticks }
  tell .ackTimer
  schedule

/-- a refused access stops the process that made it; one of the kernel's own stops the machine -/
def pageFault (pid : Pid) (rip : UInt64) (va : VirtualAddress) (code : FaultCode) :
    Attempt Kernel Halt Unit := do
  if code.user then
    report .warn "kernel::interrupts::page_fault"
      ("process " ++ toString pid ++ " page fault for " ++ va.text ++ " " ++ faultText code rip)
    changeProcess pid fun p => { p with state := .broken }
  else
    report .error "kernel::interrupts::page_fault"
      ("kernel page fault for " ++ va.text ++ " " ++ faultText code rip ++ ": " ++ code.explain)
    Attempt.fail (.kernelPageFault va rip code)

/-- an interrupt that arrived while the current process ran -/
def exception (registers : Registers) : Attempt Kernel Halt Dispatch := do
  let pid ← save registers
  let trap ← decodeTrap registers
  if !trap.isKernelFault then showMemory
  checkAbort
  match trap with
  | .timer => timerTick
  | .pageFault va code =>
    pageFault pid registers.rip va code
    resume
  | .unexpected vector code =>
    report .error "kernel::interrupts"
      ("process " ++ toString pid ++ ": unexpected exception " ++ toString vector.toNat
        ++ " at rip=" ++ hex registers.rip.toNat)
    Attempt.fail (.unexpectedException vector code)

/-! ## system calls -/

/-- store the result of a call -/
def setResult (pid : Pid) (value : UInt64) : Action Kernel Unit :=
  changeProcess pid fun p => { p with registers := p.registers.result value }

/-- the call that saved registers ask for; any other number stops the machine -/
def decodeCall (pid : Pid) (registers : Registers) : Attempt Kernel Halt Syscall := do
  match Syscall.decode registers with
  | .ok call =>
    report .debug "kernel::syscall" ("process " ++ toString pid ++ ": " ++ call.text)
    return call
  | .error e =>
    report .error "kernel::syscall" ("process " ++ toString pid ++ ": " ++ e.message)
    Attempt.fail (.unexpectedSyscall pid e)

/-- the text with which a process stops the machine, if it can be read -/
def panicMessage (pid : Pid) (va : VirtualAddress) : Action Kernel (Option String) := do
  if va.isNull then return none
  match (← process pid).space with
  | some space => return (← inspect fun mem => space.readText mem va).toOption
  | none => return none

/-- stop the machine as a process asks for -/
def panicCall (pid : Pid) (va : VirtualAddress) : Attempt Kernel Halt Dispatch := do
  let message ← panicMessage pid va
  report .error "kernel::syscall" ("process " ++ toString pid ++ " panicked: " ++ panicText message)
  Attempt.fail (.panicRequested pid message)

/-- a page for a process; a process that gets none is told so -/
def pageAllocCall (pid : Pid) (va : VirtualAddress) : Attempt Kernel Halt Dispatch := do
  match ← (pageAlloc pid va).outcome with
  | .ok () => setResult pid 0
  | .error (.memory (.frame e)) => Attempt.fail (.frame e)
  | .error e =>
    report .debug "kernel::syscall"
      ("process " ++ toString pid ++ ": page_alloc(" ++ va.text ++ ") failed: " ++ e.message)
    setResult pid Registers.failed
  resume

/-- duplicate a process; a process that cannot be duplicated is told so -/
def forkCall (pid : Pid) : Attempt Kernel Halt Dispatch := do
  match ← (fork pid).outcome with
  | .ok _ => pure ()
  | .error (.memory (.frame e)) => Attempt.fail (.frame e)
  | .error e =>
    report .debug "kernel::syscall"
      ("process " ++ toString pid ++ ": fork failed: " ++ e.message)
    setResult pid Registers.failed
  resume

/-- a system call of the current process -/
def syscall (registers : Registers) : Attempt Kernel Halt Dispatch := do
  let pid ← save registers
  showMemory
  checkAbort
  match ← decodeCall pid registers with
  | .getPid =>
    setResult pid (UInt64.ofNat pid)
    resume
  | .yield =>
    setResult pid 0
    schedule
  | .panic message => panicCall pid message
  | .pageAlloc va => pageAllocCall pid va
  | .fork => forkCall pid
  | .exit =>
    teardown pid
    schedule

end Kernel

end PagedKernel
