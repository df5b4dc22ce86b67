import PagedKernel.Memory.FrameData
import PagedKernel.Memory.Ledger

/-!
# Physical memory

The contents of every frame and the ledger that counts its users.

* `Memory.ofLayout`      memory of zeroes, with every frame free
* `Memory.byte?`         the byte at a physical address, the view in which writes are described
* `Memory.read`          bytes from an address on, across frames
* `Memory.write`         the same for storing
* `Memory.claim`         takes a frame and fills it with `allocFill`

Reading and writing no bytes touches nothing, so it succeeds at any address.
-/

namespace PagedKernel

/-- the byte that a frame holds when it has just been handed out -/
def allocFill : UInt8 := 0xCC

/-- a frame as it is handed out -/
def FrameData.fresh : FrameData := FrameData.filled allocFill

/-- the frames of a machine: what they hold and who uses them -/
structure Memory where
  contents : Array FrameData
  ledger : Ledger
  size_ledger : ledger.size = contents.size

namespace Memory

instance : Inhabited Memory := ⟨⟨#[], ⟨#[]⟩, rfl⟩⟩

/-- memory of zeroes, with every frame free -/
def ofLayout (layout : Layout) : Except Panic Memory := do
  let ledger ← Ledger.ofLayout layout
  return ⟨Array.replicate ledger.size FrameData.zero, ledger, by simp⟩

def frameCount (mem : Memory) : Nat :=
  mem.contents.size

/-- bytes of memory -/
def byteCount (mem : Memory) : Nat :=
  pageSize * mem.contents.size

/-- the byte at physical address `pa` -/
def byte? (mem : Memory) (pa : Nat) : Option UInt8 :=
  (mem.contents[pa / 4096]?).map fun f => f.byte (pa % 4096)

/-- the contents of a frame -/
def frame (mem : Memory) (f : Frame) : Except Panic FrameData :=
  if h : f.number.toNat < mem.contents.size then .ok mem.contents[f.number.toNat]
  else .error .outOfRange

/-- whether a frame lies in memory -/
def hasFrame (mem : Memory) (f : Frame) : Bool :=
  f.number.toNat < mem.contents.size

/-- change the contents of a frame of memory -/
def modifyFrame (mem : Memory) (i : Nat) (g : FrameData → FrameData) : Memory where
  contents := mem.contents.modify i g
  ledger := mem.ledger
  size_ledger := by simp [mem.size_ledger]

/-- change the count of a frame -/
def setCount (mem : Memory) (f : Frame) (n : Nat) : Memory where
  contents := mem.contents
  ledger := mem.ledger.setCount f n
  size_ledger := by simp [Ledger.size_setCount, mem.size_ledger]

/-- take a frame that was free -/
def claim (mem : Memory) (f : Frame) : Memory :=
  (mem.setCount f 1).modifyFrame f.number.toNat fun _ => FrameData.fresh

/-! ## runs of bytes -/

/-- whether the `length` bytes from `pa` on lie in memory -/
def holds (mem : Memory) (pa : PhysicalAddress) (length : Nat) : Bool :=
  length == 0 || decide (pa.value.toNat + length ≤ mem.byteCount)

/-- append the `length` bytes from `pa` on to `out`, frame by frame -/
def readInto (mem : Memory) (pa length : Nat) (out : ByteArray) : ByteArray :=
  if length = 0 then out
  else
    let n := min length (4096 - pa % 4096)
    let part := ((mem.contents[pa / 4096]?).map fun f => f.read (pa % 4096) n).getD ByteArray.empty
    mem.readInto (pa + n) (length - n) (out ++ part)
termination_by length
decreasing_by omega

/-- the `length` bytes from `pa` on -/
def read (mem : Memory) (pa : PhysicalAddress) (length : Nat) : Except Panic ByteArray :=
  if mem.holds pa length then .ok (mem.readInto pa.value.toNat length ByteArray.empty)
  else .error .outOfRange

/-- store `bytes` from its place `done` on at `pa`, frame by frame -/
def writeFrom (mem : Memory) (pa : Nat) (bytes : ByteArray) (done : Nat) : Memory :=
  if bytes.size ≤ done then mem
  else
    let n := min (bytes.size - done) (4096 - pa % 4096)
    (mem.modifyFrame (pa / 4096) fun f => f.write (pa % 4096) bytes done n).writeFrom
      (pa + n) bytes (done + n)
termination_by bytes.size - done
decreasing_by omega

/-- store `bytes` at `pa` -/
def write (mem : Memory) (pa : PhysicalAddress) (bytes : ByteArray) : Except Panic Memory :=
  if mem.holds pa bytes.size then .ok (mem.writeFrom pa.value.toNat bytes 0)
  else .error .outOfRange

end Memory

end PagedKernel
