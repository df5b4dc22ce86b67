import PagedKernel.Kernel.State

/-!
# Scheduling

Processes take turns: the next one is the first that can run after the current one, going round the
process table.

* `Kernel.run`        hands control to a process
* `Kernel.schedule`   hands control to the next process; waits if there is none
* `Kernel.resume`     hands control back to the current process, or to the next one if it cannot run
* `Kernel.waitFor`    the empty rounds

While a kernel waits no process can become runnable, so the wait ends when its limit is reached or
the host asks the kernel to stop.  With neither it would never end, which is a panic here.
-/

namespace PagedKernel

namespace Kernel

/-- whether a space maps `va` to the frame of the same number, for the kernel alone -/
def mapsKernelPage (space : AddressSpace) (mem : Memory) (va : VirtualAddress) :
    Except Panic Bool := do
  match ← space.lookup mem va with
  | some m => return m.frame.base.value == va.value && m.permissions == .kernelReadWrite
  | none => return false

/-- make sure that a process maps the page of `va` for the kernel -/
def checkKernelPage (pid : Pid) (space : AddressSpace) (va : VirtualAddress) :
    Attempt Kernel Halt Unit := do
  if ← inspect fun mem => mapsKernelPage space mem va then return
  report .error "kernel::boot"
    ("process " ++ toString pid ++ ": kernel page " ++ va.text ++ " is not mapped correctly")
  Attempt.fail (.corruptPageTable pid va)

/-- make sure that a process maps the kernel, its image and then its stack -/
def checkKernelPages (pid : Pid) (space : AddressSpace) : Attempt Kernel Halt Unit := do
  let layout := (← get).layout
  let stack ← layout.kernelStackPage
  forSteps layout.kernelImage.start layout.kernelImage.stop fun w =>
    checkKernelPage pid space ⟨w⟩
  checkKernelPage pid space ⟨stack⟩

/-- hand control to a process -/
def run (pid : Pid) : Attempt Kernel Halt Dispatch := do
  let runnable? := ((← get).processes.get? pid).filter Process.isRunnable
  let space ← Attempt.orFail (runnable?.bind Process.space) (.notRunnable pid)
  modify fun k => { k with current := pid }
  checkKernelPages pid space
  tell (.activate pid (← process pid).registers space)
  return .run pid

/-- the rounds after which a wait is over: those of the limit, or those before the host asks the
kernel to stop -/
def waitBound (limit : Option IdleLimit) (abortAfter : Option Nat) : Nat :=
  match limit, abortAfter with
  | some l, _ => l.rounds.toNat
  | none, some n => n + 1
  | none, none => 0

/-- wait for at most `left` more rounds, after `rounds` empty ones -/
def waitFor (rounds : UInt32) : Nat → Attempt Kernel Halt Dispatch
  | 0 => (Action.panic .endless).toAttempt
  | left + 1 => do
    let rounds := rounds + 1
    checkAbort
    let config := (← get).config
    if config.viewInterval ≠ 0 ∧ rounds % config.viewInterval = 0 then
      report .debug "kernel::scheduler" "no runnable process"
      showMemory
    if config.idleLimit.any fun limit => limit.rounds ≤ rounds then
      report .debug "kernel::scheduler" ("idle after " ++ toString rounds.toNat ++ " rounds")
      return .idle
    waitFor rounds left

/-- hand control to the next process that can run; wait if there is none -/
def schedule : Attempt Kernel Halt Dispatch := do
  let k ← get
  match ← nextRunnable k.processes k.current with
  | some pid => run pid
  | none => waitFor 0 (waitBound k.config.idleLimit k.host.abortAfter)

/-- hand control back to the current process, or to the next one if it cannot run -/
def resume : Attempt Kernel Halt Dispatch := do
  let current := (← get).current
  if (← process current).isRunnable then run current else schedule

end Kernel

end PagedKernel
