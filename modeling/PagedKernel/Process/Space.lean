import PagedKernel.Paging.TableWalk
import PagedKernel.Paging.UserMemory
import PagedKernel.Process.Errors
import PagedKernel.Program.Image

/-!
# The address space of a process

How the memory of a process is built, copied and given back.  Below `processStart` an address space
maps what the kernel maps, without counting the frames; from there on every mapped frame carries a
reference.

* `AddressSpace.load`       builds the memory of a program
* `AddressSpace.copyInto`   copies the memory of a process; what cannot be written is shared
* `AddressSpace.replace`    puts a new page of zeroes at an address
* `AddressSpace.free`       gives back every frame
-/

namespace PagedKernel

namespace AddressSpace

/-- map the page of `va` to `f`, and give up the reference to `f` if that fails -/
def mapOrRelease (space : AddressSpace) (va : VirtualAddress) (f : Frame) (p : Permissions) :
    Attempt Machine MemoryError Unit :=
  (space.map va f p).onError fun e => do
    (Machine.release f).mapError MemoryError.frame
    Attempt.fail (.ofMap e)

/-- a frame from the allocator -/
def claimFrame : Attempt Machine MemoryError Frame := do
  Attempt.orFail (← Machine.allocate) .outOfMemory

/-- map the page of `va` to a new frame of zeroes -/
def mapClear (space : AddressSpace) (va : VirtualAddress) (p : Permissions) :
    Attempt Machine MemoryError Unit := do
  let f ← claimFrame
  Machine.clear f
  space.mapOrRelease va f p

/-! ## loading a program -/

/-- what a segment allows -/
def segmentPermissions (s : Segment) : Permissions :=
  if s.writable then .userReadWrite else .userReadOnly

/-- the end of a segment that lies in the memory of a process, below its stack -/
def segmentStop? (layout : Layout) (s : Segment) : Except Panic (Option UInt64) := do
  if s.va.value.toNat + s.size.toNat < 0x10000000000000000 && layout.processStart ≤ s.va.value then
    let stop := s.va.value + s.size
    return if stop ≤ (← layout.userStackPage).value then some stop else none
  else return none

/-- make sure that the page of `va` is mapped for a segment.  A page that an earlier segment mapped
becomes writable if this segment needs it to. -/
def mapSegmentPage (space : AddressSpace) (s : Segment) (va : VirtualAddress) :
    Attempt Machine MemoryError Unit := do
  match ← Machine.inspect fun mem => space.lookup mem va with
  | some m =>
    if s.writable && !m.permissions.writable then
      (space.map va m.frame .userReadWrite).mapError .ofMap
    else return
  | none => space.mapClear va (segmentPermissions s)

/-- load a segment: map its pages, fill them with zeroes, then store the data -/
def loadSegment (space : AddressSpace) (layout : Layout) (s : Segment) :
    Attempt Machine SetupError Unit := do
  let stop ← Attempt.orFail (← segmentStop? layout s) (.segmentOutOfRange s.va)
  let last ← Word.alignUp stop 4096
  s.va.forPages ⟨last⟩ fun va =>
    (space.mapSegmentPage s va).mapError .memory
  let blank : ByteArray := ⟨Array.replicate s.size.toNat 0⟩
  (space.kernelWrite s.va blank).mapError fun fault => .unmapped fault.va
  (space.kernelWrite s.va s.data).mapError fun fault => .unmapped fault.va

/-- map what the kernel maps below `processStart` -/
def shareKernel (space kernelSpace : AddressSpace) (layout : Layout) :
    Attempt Machine MemoryError Unit :=
  Address.forPages ⟨0⟩ layout.userStart fun va => do
    match ← Machine.inspect fun mem => kernelSpace.lookup mem va with
    | some m => (space.map va m.frame m.permissions).mapError .ofMap
    | none => return

/-- build the memory of a program in an empty space: the kernel's part, the segments in order, and a
page of stack -/
def load (space kernelSpace : AddressSpace) (layout : Layout) (image : ProgramImage) :
    Attempt Machine SetupError Unit := do
  (space.shareKernel kernelSpace layout).mapError .memory
  image.segments.forM fun s => space.loadSegment layout s
  let stack ← claimFrame.mapError SetupError.memory
  Machine.clear stack
  (space.mapOrRelease (← layout.userStackPage) stack .userReadWrite).mapError .memory

/-! ## copying -/

/-- give `target` the page that `m` maps in another space: below `processStart` the same frame, a
writable page as a copy, and a page that cannot be written as a shared frame -/
def copyPage (target : AddressSpace) (layout : Layout) (m : Mapping) :
    Attempt Machine MemoryError Unit := do
  if m.va.value < layout.processStart then
    (target.map m.va m.frame m.permissions).mapError .ofMap
  else if m.permissions.writable then
    let f ← claimFrame
    Machine.copyFrame m.frame f
    target.mapOrRelease m.va f m.permissions
  else
    (Machine.retain m.frame).mapError .frame
    target.mapOrRelease m.va m.frame m.permissions

/-- copy the memory of a process into an empty space -/
def copyInto (source target : AddressSpace) (layout : Layout) :
    Attempt Machine MemoryError Unit :=
  Address.forPages ⟨0⟩ layout.userEnd fun va => do
    match ← Machine.inspect fun mem => source.lookup mem va with
    | some m => target.copyPage layout m
    | none => return

/-! ## changing and giving back -/

/-- put a new page of zeroes at `va`, and give up the reference to the frame that was there -/
def replace (space : AddressSpace) (va : VirtualAddress) : Attempt Machine MemoryError Unit := do
  let old ← Machine.inspect fun mem => space.lookup mem va
  space.mapClear va .userReadWrite
  match old with
  | some m => (Machine.release m.frame).mapError .frame
  | none => return

/-- give back the memory of a process: a reference to every frame from `processStart` on, the
tables, and the root at last -/
def free (space : AddressSpace) (layout : Layout) : Attempt Machine FrameError Unit := do
  layout.userStart.forPages layout.userEnd fun va => do
    match ← Machine.inspect fun mem => space.lookup mem va with
    | some m => Machine.release m.frame
    | none => return
  let tables ← Machine.inspect space.tables
  tables.forM fun t => Machine.release t.frame
  Machine.release space.root

end AddressSpace

end PagedKernel
