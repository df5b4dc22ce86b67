import PagedKernel.Machine
import PagedKernel.Paging.Entry
import PagedKernel.Paging.Fault

/-!
# Address spaces

An address space is a tree of tables in physical memory, four levels deep, named by the frame of its
root.

* `AddressSpace.lookup`      the mapping of an address: the frame, and what every level allows
* `AddressSpace.map`         maps a page, making the tables that are missing
* `AddressSpace.access`      the check that the processor makes of an access
* `AddressSpace.allocate`    an empty space

To map a page with permissions that are not present removes its mapping.  That never needs a table.
-/

namespace PagedKernel

/-- entry `i` of the table in `table` -/
def Memory.entry (mem : Memory) (table : Frame) (i : TableIndex) : Except Panic PageEntry :=
  if h : table.number.toNat < mem.contents.size then
    .ok ⟨mem.contents[table.number.toNat].word i⟩
  else .error .outOfRange

/-- write entry `i` of the table in `table` -/
def Machine.setEntry (table : Frame) (i : TableIndex) (e : PageEntry) : Action Machine Unit :=
  setFrame table fun data => data.setWord i e.bits

/-- an address space, named by the frame of its root table -/
structure AddressSpace where
  root : Frame
  deriving DecidableEq, Inhabited

/-- a mapping as a walk finds it -/
structure Mapping where
  /-- the address that was looked up -/
  va : VirtualAddress
  frame : Frame
  /-- what all levels allow -/
  permissions : Permissions
  deriving DecidableEq, Inhabited

/-- the physical address that the address translates to -/
def Mapping.physical (m : Mapping) : PhysicalAddress :=
  m.frame.address m.va.offset

namespace AddressSpace

/-! ## walking -/

/-- follow the links of `levels` for `va`, from `table` on: the table that is reached, and what the
links allow together with `granted` -/
def walk (mem : Memory) (va : VirtualAddress) :
    List Level → Frame → Permissions → Except Panic (Option (Frame × Permissions))
  | [], table, granted => .ok (some (table, granted))
  | level :: below, table, granted => do
    let entry ← mem.entry table (level.index va)
    if entry.isLink then
      walk mem va below entry.frame (granted.inter entry.permissions)
    else return none

/-- the mapping of `va`, if it has one -/
def lookup (space : AddressSpace) (mem : Memory) (va : VirtualAddress) :
    Except Panic (Option Mapping) := do
  match ← walk mem va Level.links space.root .userReadWrite with
  | none => return none
  | some (table, granted) =>
    let entry ← mem.entry table (Level.pt.index va)
    if entry.present then
      return some ⟨va, entry.frame, granted.inter entry.permissions⟩
    else return none

/-- the physical address that `va` translates to, whatever its permissions -/
def translate (space : AddressSpace) (mem : Memory) (va : VirtualAddress) :
    Except Panic (Option PhysicalAddress) := do
  return (← space.lookup mem va).map Mapping.physical

/-- whether permissions refuse an access -/
def refuses (p : Permissions) (access : Access) : Bool :=
  (access.user && !p.user) || (access.write && !p.writable)

/-- the check that the processor makes: the physical address, or the report of the fault -/
def access (space : AddressSpace) (mem : Memory) (va : VirtualAddress) (a : Access) :
    Except Panic (Except FaultCode PhysicalAddress) := do
  match ← space.lookup mem va with
  | none => return .error (.ofAccess a false)
  | some m =>
    if refuses m.permissions a then return .error (.ofAccess a true)
    else return .ok m.physical

/-! ## building -/

/-- an address space that maps nothing, if there is a frame for its root -/
def allocate : Action Machine (Option AddressSpace) := do
  return (← Machine.allocateClear).map AddressSpace.mk

/-- the table that the link of `table` for `va` points to; it is made if there is none -/
def descend (va : VirtualAddress) (table : Frame) (level : Level) :
    Attempt Machine MapError Frame := do
  let i := level.index va
  let entry ← Machine.inspect fun mem => mem.entry table i
  if entry.present then return entry.frame
  match ← Machine.allocateClear with
  | some next =>
    Machine.setEntry table i (← PageEntry.table next)
    return next
  | none => Attempt.fail (.outOfMemory va (level.next?.getD .pt))

/-- map the page of `va` to `f` with permissions `p`.  Tables that were made before memory ran out
stay linked. -/
def map (space : AddressSpace) (va : VirtualAddress) (f : Frame) (p : Permissions) :
    Attempt Machine MapError Unit := do
  let va := va.page.base
  if p.present then
    let table ← Level.links.foldlM (descend va) space.root
    Machine.setEntry table (Level.pt.index va) (← PageEntry.leaf f p)
  else
    match ← Machine.inspect fun mem => walk mem va Level.links space.root .userReadWrite with
    | some (table, _) => Machine.setEntry table (Level.pt.index va) .empty
    | none => return

/-- map a page; there has to be memory for the tables -/
def mapOrPanic (space : AddressSpace) (va : VirtualAddress) (f : Frame) (p : Permissions) :
    Action Machine Unit := do
  match ← (space.map va f p).outcome with
  | .ok () => return
  | .error e => Action.panic (.mapping va e)

end AddressSpace

end PagedKernel
