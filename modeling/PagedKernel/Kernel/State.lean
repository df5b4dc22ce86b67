import PagedKernel.Kernel.Halt
import PagedKernel.Kernel.Host
import PagedKernel.Process.Space

/-!
# The state of the kernel

* `Kernel`             everything the kernel knows, and the host it runs on
* `Kernel.onMachine`   work on memory
* `Kernel.report`      a line for the log
* `Kernel.showMemory`  shows the host a view of memory
* `Kernel.checkAbort`  stops the machine if the host asks for it
-/

namespace PagedKernel

/-- slots of the process table -/
def slotCount : Nat := 16

/-- how many empty rounds a waiting kernel waits at most -/
structure IdleLimit where
  rounds : UInt32
  rounds_pos : 0 < rounds.toNat
  deriving DecidableEq

/-- the limit of so many rounds; none for zero rounds -/
def IdleLimit.of? (rounds : UInt32) : Option IdleLimit :=
  if h : 0 < rounds.toNat then some ⟨rounds, h⟩ else none

/-- what can be chosen when a kernel is started -/
structure KernelConfig where
  layout : Layout := {}
  /-- timer interrupts a second -/
  hz : UInt32 := 100
  /-- the empty rounds between two views of memory while nothing can run; zero for none -/
  viewInterval : UInt32 := 4096
  idleLimit : Option IdleLimit := none
  deriving DecidableEq, Inhabited

/-- the kernel, with the host it runs on -/
structure Kernel where
  config : KernelConfig := {}
  machine : Machine := default
  /-- the kernel's own address space -/
  space : AddressSpace := default
  processes : ProcessTable slotCount := default
  /-- the process that was run last -/
  current : Pid := 0
  /-- timer interrupts so far -/
  ticks : UInt64 := 0
  viewer : Viewer := {}
  host : Host := {}
  deriving Inhabited

/-- what came of an entry into the kernel -/
inductive Dispatch where
  /-- a process runs -/
  | run (pid : Pid)
  /-- nothing could run for as long as the kernel was to wait -/
  | idle
  deriving DecidableEq, Inhabited

namespace Kernel

/-- the layout of the machine -/
def layout (k : Kernel) : Layout := k.config.layout

/-- physical memory -/
def memory (k : Kernel) : Memory := k.machine.toMemory

/-- the number of free frames -/
def freeCount (k : Kernel) : Nat := k.memory.ledger.freeCount

/-- work on memory -/
@[always_inline, inline]
def onMachine {ε α : Type} (x : EStateM ε Machine α) : EStateM ε Kernel α :=
  Action.within Kernel.machine (fun machine k => { k with machine }) x

/-- a question about memory -/
@[always_inline, inline]
def inspect {α : Type} (question : Memory → Except Panic α) : Action Kernel α := fun k =>
  match question k.machine.toMemory with
  | .ok a => .ok a k
  | .error p => .error p k

/-- append a record to the log -/
def report (severity : Severity) (target message : String) : Action Kernel Unit :=
  onMachine (Machine.record severity target message)

/-- the slot of a pid that is known to have one -/
def process (pid : Pid) : Action Kernel Process := do
  Action.ofExcept ((← get).processes.get pid)

/-- change the slot of a process -/
def setProcess (pid : Pid) (change : Process → Process) : Action Kernel Unit :=
  modify fun k => { k with processes := k.processes.update pid change }

/-- change the slot of a pid that is known to have one -/
def changeProcess (pid : Pid) (change : Process → Process) : Action Kernel Unit := do
  let _ ← process pid
  setProcess pid change

/-- tell or ask the host -/
def tell (call : HostCall) : Action Kernel Unit :=
  modify fun k => { k with host := k.host.record call }

/-- show the host a view of memory.  The kernel lists no mappings, so nothing that is wrong with them
stops it. -/
def showMemory : Action Kernel Unit := do
  let k ← get
  let (shown, viewer) ← Action.ofExcept (k.viewer.select k.processes k.ticks k.config.hz)
  let view : MemoryView :=
    { ticks := k.ticks, shown, user := ⟨k.layout.processStart, k.layout.virtualSize⟩ }
  let listed := (view.summary k.memory).toOption
  modify fun k => { k with viewer, host := k.host.record (.showMemory listed) }

/-- ask the host whether to stop -/
def pollAbort : Action Kernel Bool :=
  modifyGet fun k =>
    let (answer, host) := k.host.pollAbort
    (answer, { k with host })

/-- stop if the host asks for it -/
def checkAbort : Attempt Kernel Halt Unit := do
  if ← pollAbort then
    report .error "kernel::boot" "abort requested"
    Attempt.fail .abortRequested

end Kernel

end PagedKernel
