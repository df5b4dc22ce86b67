import PagedKernel.Paging.Cursor
import PagedKernel.Process.Scan

/-!
# The memory view

What an onlooker is shown at every entry of the kernel: the frames, and the mappings of one process.
Every half second of timer ticks another process is shown.

* `Viewer.select`        the process that is shown now
* `MemoryView`           what is shown
* `MemoryView.summary`   the same in numbers
-/

namespace PagedKernel

/-- which process is shown, and since when -/
structure Viewer where
  shown : Pid := 0
  /-- the tick at which the shown process was chosen -/
  switchedAt : UInt64 := 0
  deriving DecidableEq, Inhabited

namespace Viewer

/-- the ticks for which a process is shown when the timer ticks `hz` times a second -/
def period (hz : UInt32) : Nat :=
  max (hz.toNat / 2) 1

/-- whether the shown process has had its time -/
def isDue (v : Viewer) (ticks : UInt64) (hz : UInt32) : Bool :=
  period hz ≤ ticks.toNat - v.switchedAt.toNat

/-- a process that can be shown, with its address space -/
def displayable {n : Nat} (t : ProcessTable n) (pid : Pid) : Option (Pid × AddressSpace) :=
  (t.space? pid).map fun space => (pid, space)

/-- the process to show at `ticks`: the one that was shown, until its time is over or it is gone,
and then the next that has an address space -/
def select {n : Nat} (v : Viewer) (t : ProcessTable n) (ticks : UInt64) (hz : UInt32) :
    Except Panic (Option (Pid × AddressSpace) × Viewer) :=
  match if v.isDue ticks hz then none else displayable t v.shown with
  | some found => .ok (some found, v)
  | none => do
    match ← scanFind n v.shown (displayable t) with
    | some found => return (some found, ⟨found.1, ticks⟩)
    | none => return (none, { v with switchedAt := ticks })

end Viewer

/-- what is shown of memory -/
structure MemoryView where
  ticks : UInt64
  /-- the process whose mappings are shown -/
  shown : Option (Pid × AddressSpace)
  /-- the part of its address space that is shown -/
  user : Span
  deriving Inhabited

/-- a memory view in numbers -/
structure ViewSummary where
  ticks : UInt64
  shown : Option Pid
  free : Nat
  reserved : Nat
  /-- all references to frames together -/
  references : Nat
  /-- the pages that the shown process maps -/
  mapped : Nat
  first : Option VirtualAddress
  last : Option VirtualAddress
  deriving DecidableEq, Inhabited

namespace MemoryView

/-- the mappings of the shown process -/
def mappings (v : MemoryView) (mem : Memory) : Except Panic (List Mapping) :=
  match v.shown with
  | some (_, space) => space.mappings mem ⟨v.user.start⟩ ⟨v.user.stop⟩
  | none => .ok []

/-- what is shown, in numbers, as whoever lists the mappings finds it -/
def summary (v : MemoryView) (mem : Memory) : Except Panic ViewSummary := do
  let mappings ← v.mappings mem
  return {
    ticks := v.ticks
    shown := v.shown.map Prod.fst
    free := mem.ledger.freeCount
    reserved := mem.ledger.reservedCount
    references := mem.ledger.totalCount
    mapped := mappings.length
    first := mappings.head?.map Mapping.va
    last := mappings.getLast?.map Mapping.va }

end MemoryView

end PagedKernel
