import PagedKernel.Layout

/-!
# The frame ledger

One reference count per frame of physical memory.  A frame is free when its count is zero and it
is not reserved; reserved frames are never handed out, and nobody can hold a reference to them.

* `Ledger.ofLayout`   every frame free, the reserved ones marked
* `Ledger.allocate`   hands out the free frame of the lowest number, with count one
* `Ledger.retain`     one more reference to a frame that is in use
* `Ledger.release`    one reference less; the first frame is never counted
-/

namespace PagedKernel

/-- why the ledger refuses to change a count -/
inductive FrameError where
  /-- nobody holds a reference to the frame -/
  | notAllocated (pa : PhysicalAddress)
  /-- the frame is reserved, or outside memory -/
  | notAllocatable (pa : PhysicalAddress)
  /-- the frame has as many references as can be counted -/
  | countLimit (pa : PhysicalAddress)
  deriving DecidableEq

def FrameError.message : FrameError → String
  | notAllocated pa => "frame " ++ pa.text ++ " is not allocated"
  | notAllocatable pa => "frame " ++ pa.text ++ " is not managed by the frame allocator"
  | countLimit pa => "reference count of frame " ++ pa.text ++ " overflowed"

/-- what the ledger knows of a frame -/
structure FrameSlot where
  /-- references to the frame -/
  count : Nat
  /-- never handed out -/
  reserved : Bool
  deriving DecidableEq, Inhabited

def FrameSlot.isFree (s : FrameSlot) : Bool :=
  s.count == 0 && !s.reserved

/-- the reference counts of all frames, by frame number -/
structure Ledger where
  slots : Array FrameSlot
  deriving Inhabited

namespace Ledger

/-- the ledger of a machine on which every frame is free -/
def ofLayout (layout : Layout) : Except Panic Ledger := do
  let slots ← (List.range layout.frameCount).mapM fun i => do
    let frame : Frame := Page.ofNumber (UInt64.ofNat i)
    return { count := 0, reserved := !(← layout.isAllocatable frame.base) : FrameSlot }
  return ⟨slots.toArray⟩

def size (l : Ledger) : Nat :=
  l.slots.size

/-- the slot of a frame inside memory -/
def slot? (l : Ledger) (f : Frame) : Option FrameSlot :=
  l.slots[f.number.toNat]?

/-- references to a frame; none to a frame outside memory -/
def count (l : Ledger) (f : Frame) : Nat :=
  ((l.slot? f).map FrameSlot.count).getD 0

/-- whether a frame can be handed out at all -/
def isAllocatable (l : Ledger) (f : Frame) : Bool :=
  ((l.slot? f).map fun s => !s.reserved).getD false

/-- the number of free frames -/
def freeCount (l : Ledger) : Nat :=
  l.slots.countP FrameSlot.isFree

/-- the number of frames that can be handed out at all -/
def usableCount (l : Ledger) : Nat :=
  l.slots.countP fun s => !s.reserved

/-- the number of frames that are never handed out -/
def reservedCount (l : Ledger) : Nat :=
  l.slots.countP FrameSlot.reserved

/-- all references together -/
def totalCount (l : Ledger) : Nat :=
  l.slots.foldl (fun n s => n + s.count) 0

/-- change the count of one frame -/
def setCount (l : Ledger) (f : Frame) (n : Nat) : Ledger :=
  ⟨l.slots.modify f.number.toNat fun s => { s with count := n }⟩

/-- the free frame of the lowest number -/
def firstFree? (l : Ledger) : Option Frame :=
  (l.slots.findIdx? FrameSlot.isFree).map fun i => Page.ofNumber (UInt64.ofNat i)

/-- the slot of a frame that can be handed out -/
def managed (l : Ledger) (f : Frame) : Except FrameError FrameSlot :=
  match l.slot? f with
  | some s => if s.reserved then .error (.notAllocatable f.base) else .ok s
  | none => .error (.notAllocatable f.base)

/-- the most references that are counted for a frame -/
def maxCount : Nat := 0xFFFFFFFF

/-- the count after one more reference -/
def retained (l : Ledger) (f : Frame) : Except FrameError Nat := do
  let s ← l.managed f
  if s.count = 0 then .error (.notAllocated f.base)
  else if s.count = maxCount then .error (.countLimit f.base)
  else .ok (s.count + 1)

/-- the count after one reference less -/
def released (l : Ledger) (f : Frame) : Except FrameError Nat := do
  let s ← l.managed f
  if s.count = 0 then .error (.notAllocated f.base) else .ok (s.count - 1)

/-- hand out the free frame of the lowest number -/
def allocate (l : Ledger) : Option (Frame × Ledger) :=
  l.firstFree?.map fun f => (f, l.setCount f 1)

/-- add a reference; returns the count -/
def retain (l : Ledger) (f : Frame) : Except FrameError (Nat × Ledger) := do
  let n ← l.retained f
  return (n, l.setCount f n)

/-- give up a reference; returns the count that is left.  The first frame is never counted, and
giving it up does nothing. -/
def release (l : Ledger) (f : Frame) : Except FrameError (Nat × Ledger) :=
  if f.base.isNull then .ok (0, l)
  else do
    let n ← l.released f
    return (n, l.setCount f n)

theorem size_setCount (l : Ledger) (f : Frame) (n : Nat) : (l.setCount f n).size = l.size := by
  simp [setCount, size]

end Ledger

end PagedKernel
