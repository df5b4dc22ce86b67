import PagedKernel.Action
import PagedKernel.Memory.Basic
import PagedKernel.Trace

/-!
# The machine

Physical memory together with the log, as the state that the paging code works on.

* `Machine.allocate`                  hands out a frame, filled with `allocFill`
* `Machine.retain`, `release`         change the count of a frame
* `Machine.store`, `setFrame`         change the contents of memory
* `Machine.inspect`                   a question about memory
-/

namespace PagedKernel

/-- memory and log -/
structure Machine extends Memory where
  log : Log := #[]

namespace Machine

instance : Inhabited Machine := ⟨{ toMemory := default }⟩

/-- append a record to the log -/
def record (severity : Severity) (target message : String) : Action Machine Unit :=
  modify fun m => { m with log := m.log.push ⟨severity, target, message⟩ }

/-- a question about memory -/
@[always_inline, inline]
def inspect {α : Type} (question : Memory → Except Panic α) : Action Machine α := fun m =>
  match question m.toMemory with
  | .ok a => .ok a m
  | .error p => .error p m

/-- change memory -/
@[always_inline, inline]
def update (change : Memory → Memory) : Action Machine Unit :=
  modify fun m => { m with toMemory := change m.toMemory }

/-- change the contents of a frame, which has to lie in memory -/
def setFrame (f : Frame) (change : FrameData → FrameData) : Action Machine Unit := do
  if (← get).hasFrame f then update fun mem => mem.modifyFrame f.number.toNat change
  else Action.panic .outOfRange

/-- fill a frame with zeroes -/
def clear (f : Frame) : Action Machine Unit :=
  setFrame f fun _ => FrameData.zero

/-- fill a frame with a byte -/
def fill (f : Frame) (b : UInt8) : Action Machine Unit :=
  setFrame f fun _ => FrameData.filled b

/-- copy the contents of one frame to another -/
def copyFrame (source target : Frame) : Action Machine Unit := do
  let data ← inspect fun mem => mem.frame source
  setFrame target fun _ => data

/-- store `bytes` at a physical address -/
def store (pa : PhysicalAddress) (bytes : ByteArray) : Action Machine Unit := do
  if (← get).holds pa bytes.size then update fun mem => mem.writeFrom pa.value.toNat bytes 0
  else Action.panic .outOfRange

/-- hand out the free frame of the lowest number, if there is one -/
def allocate : Action Machine (Option Frame) := do
  match (← get).ledger.firstFree? with
  | some f =>
    update fun mem => mem.claim f
    return some f
  | none =>
    record .trace "kernel_alloc::phys_mapper" "out of physical frames"
    return none

/-- hand out a frame of zeroes, if there is one -/
def allocateClear : Action Machine (Option Frame) := do
  match ← allocate with
  | some f =>
    clear f
    return some f
  | none => return none

/-- add a reference to a frame -/
def retain (f : Frame) : Attempt Machine FrameError Unit := do
  let n ← Attempt.ofResult ((← get).ledger.retained f)
  update fun mem => mem.setCount f n

/-- give up a reference to a frame; the first frame is never counted -/
def release (f : Frame) : Attempt Machine FrameError Unit := do
  if f.base.isNull then return
  let n ← Attempt.ofResult ((← get).ledger.released f)
  update fun mem => mem.setCount f n

/-- a machine of zeroes, with every frame free and nothing logged -/
def ofLayout (layout : Layout) : Except Panic Machine := do
  return { toMemory := ← Memory.ofLayout layout }

end Machine

end PagedKernel
