import PagedKernel.Address.Arithmetic

/-!
# Memory layouts

Where the parts of the machine lie: how much physical memory there is, which part of an address
space belongs to the process, and which frames are never handed out.

* `Span`                  the words from a start up to an end
* `Layout`                the boundaries of a machine; the default is the 2 MiB machine
* `Layout.withPhysical`   the default machine with another amount of memory
* `Layout.isAllocatable`  whether a frame may be handed out

The boundaries are not checked: a layout may be disordered, and then the functions that compute a
page below a boundary can panic.
-/

namespace PagedKernel

/-- the words from `start` up to `stop`, which is left out -/
structure Span where
  start : UInt64
  stop : UInt64
  deriving DecidableEq, Inhabited

def Span.contains (s : Span) (w : UInt64) : Bool :=
  s.start ≤ w && w < s.stop

/-- the boundaries of a machine -/
structure Layout where
  /-- bytes of physical memory -/
  physicalSize : UInt64 := 0x200000
  /-- bytes of address space of a process; its stack is the last page -/
  virtualSize : UInt64 := 0x300000
  /-- where the memory of a process starts; below lies the kernel -/
  processStart : UInt64 := 0x100000
  kernelImage : Span := ⟨0x40000, 0x60000⟩
  /-- the end of the kernel stack, which is one page -/
  kernelStackTop : UInt64 := 0x80000
  /-- memory that belongs to devices -/
  ioHole : Span := ⟨0xA0000, 0x100000⟩
  /-- the console page, which processes may use -/
  console : UInt64 := 0xB8000
  deriving DecidableEq, Inhabited

namespace Layout

/-- the default machine with about `size` bytes of physical memory: whole pages, and never less
than what the kernel needs -/
def withPhysical (size : UInt64) : Layout :=
  let pages := size / 4096 * 4096
  let base : Layout := {}
  { base with physicalSize := max pages base.processStart }

/-- the number of frames of physical memory -/
def frameCount (l : Layout) : Nat :=
  l.physicalSize.toNat / 4096

/-- the first address of the kernel stack -/
def kernelStackPage (l : Layout) : Except Panic UInt64 :=
  Word.sub l.kernelStackTop 4096

/-- the first address of the stack of a process -/
def userStackPage (l : Layout) : Except Panic VirtualAddress := do
  return ⟨← Word.sub l.virtualSize 4096⟩

/-- whether `va` lies in the part of an address space that belongs to the process -/
def isUserAddress (l : Layout) (va : VirtualAddress) : Bool :=
  l.processStart ≤ va.value && va.value < l.virtualSize

/-- whether the frame of `pa` may be handed out: the first frame, the kernel image, the kernel
stack and the devices are not, nor is anything outside memory -/
def isAllocatable (l : Layout) (pa : PhysicalAddress) : Except Panic Bool :=
  let base := pa.page.base.value
  if base == 0 || l.physicalSize ≤ base then
    return false
  else if l.kernelImage.contains base then
    return false
  else do
    return base != (← l.kernelStackPage) && !l.ioHole.contains base

/-- the end of the part of an address space that belongs to the process -/
def userEnd (l : Layout) : VirtualAddress := ⟨l.virtualSize⟩

/-- the first address that belongs to the process -/
def userStart (l : Layout) : VirtualAddress := ⟨l.processStart⟩

end Layout

end PagedKernel
