import PagedKernel.Kernel.State

/-!
# The life of a process

* `Kernel.setup`       loads a program into a free slot
* `Kernel.fork`        duplicates a process into the first vacant slot
* `Kernel.pageAlloc`   gives a process a page
* `Kernel.teardown`    takes back all that a process has
* `Kernel.writeUser`   writes into the memory of a process, as the process itself would
* `Kernel.readUser`    reads from it

A program that cannot be loaded, or a process that cannot be duplicated, gives back what it got so
far.
-/

namespace PagedKernel

namespace Kernel

/-- take back all that a process has, and free its slot -/
def freeProcess (pid : Pid) : Attempt Kernel FrameError Unit := do
  if let some space := (← process pid).space then
    setProcess pid fun p => { p with space := none }
    let layout := (← get).layout
    onMachine (space.free layout)
  setProcess pid fun p => { p with state := .free, registers := {} }

/-- fill a new address space for the slot of `pid`; if that fails the slot is freed again -/
def fillSpace {ε : Type} (pid : Pid) (space : AddressSpace) (ofFrame : FrameError → ε)
    (fillIn : Layout → Attempt Machine ε Unit) : Attempt Kernel ε Unit := do
  changeProcess pid fun p => { p with space := some space }
  let layout := (← get).layout
  Attempt.onError (onMachine (fillIn layout)) fun e => do
    (freeProcess pid).mapError ofFrame
    Attempt.fail e

/-- load `image` into the free slot `pid`, ready to run -/
def setup (pid : Pid) (image : ProgramImage) : Attempt Kernel SetupError Unit := do
  let k ← get
  if pid = 0 then Attempt.fail (.reserved pid)
  let slot ← Attempt.orFail (k.processes.get? pid) (.reserved pid)
  if !slot.isVacant then Attempt.fail (.slotInUse slot.pid)
  let kernelSpace := k.space
  let space ← Attempt.orFail (← onMachine AddressSpace.allocate) (.memory .outOfMemory)
  fillSpace pid space (.memory ∘ .frame) fun layout => space.load kernelSpace layout image
  let registers := Registers.entry image.entry.value (← get).layout.virtualSize
  setProcess pid fun p => { p with state := .runnable, registers }
  report .info "kernel::userland" ("loaded `" ++ image.name ++ "` as process " ++ toString pid)

/-- duplicate `parent` into the first vacant slot.  The child gets 0 as the result of its call, the
parent the pid of the child. -/
def fork (parent : Pid) : Attempt Kernel ForkError Pid := do
  let processes := (← get).processes
  let source ← Attempt.orFail (processes.space? parent) (.notLoaded parent)
  let child ← Attempt.orFail processes.firstFree? .noSlot
  let target ← Attempt.orFail (← onMachine AddressSpace.allocate) (.memory .outOfMemory)
  fillSpace child target (.memory ∘ .frame) fun layout =>
    (source.copyInto target layout).mapError .memory
  let registers := (← process parent).registers
  changeProcess child fun p => { p with state := .runnable, registers := registers.result 0 }
  changeProcess parent fun p =>
    { p with registers := p.registers.result (UInt64.ofNat child) }
  report .info "kernel::task::fork"
    ("process " ++ toString parent ++ " forked process " ++ toString child)
  return child

/-- give `pid` a page of zeroes at `va`, in the place of what was mapped there -/
def pageAlloc (pid : Pid) (va : VirtualAddress) : Attempt Kernel PageAllocError Unit := do
  let k ← get
  if !k.layout.isUserAddress va || !va.isAligned then Attempt.fail (.invalidAddress va)
  let space ← Attempt.orFail (k.processes.space? pid) (.notLoaded pid)
  Attempt.mapError (onMachine (space.replace va)) .memory

/-- take back all that `pid` has, and free its slot -/
def teardown (pid : Pid) : Attempt Kernel Halt Unit := do
  if pid = 0 ∨ slotCount ≤ pid then Attempt.fail (.notRunnable pid)
  (freeProcess pid).mapError .frame
  report .debug "kernel::task::teardown"
    ("process " ++ toString pid ++ " torn down, " ++ toString (← get).freeCount ++ " frames free")

/-- write into the memory of `pid` as the process itself would -/
def writeUser (pid : Pid) (va : VirtualAddress) (bytes : ByteArray) :
    Attempt Kernel UserFault Unit := do
  let space ← Attempt.orFail ((← get).processes.space? pid) ⟨va, .ofAccess .userWrite false⟩
  onMachine (space.copyTo va bytes)

/-- read from the memory of `pid` as the process itself would: the bytes before the first refused
page, and the fault there -/
def readUser (k : Kernel) (pid : Pid) (va : VirtualAddress) (length : Nat) :
    Except Panic (ByteArray × Option UserFault) :=
  match k.processes.space? pid with
  | some space => space.copyFrom k.memory va length
  | none => .ok (ByteArray.empty, some ⟨va, .ofAccess .userRead false⟩)

end Kernel

end PagedKernel
