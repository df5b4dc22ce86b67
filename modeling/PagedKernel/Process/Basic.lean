import PagedKernel.Paging.AddressSpace
import PagedKernel.Registers

/-!
# Processes

The process table: a fixed number of slots, each free or holding a process.

* `Process`                  a slot
* `ProcessTable n`           `n` slots; slot 0 belongs to the kernel
* `ProcessTable.get?`        the slot of a pid
* `ProcessTable.update`      changes the slot of a pid
* `ProcessTable.firstFree?`  the slot that the next fork takes
-/

namespace PagedKernel

/-- the number of a process, which is the number of its slot -/
abbrev Pid := Nat

inductive ProcessState where
  /-- the slot holds no process -/
  | free
  | runnable
  /-- stopped by a refused access; it keeps its slot and its memory -/
  | broken
  deriving DecidableEq, Inhabited

def ProcessState.name : ProcessState → String
  | free => "Free"
  | runnable => "Runnable"
  | broken => "Broken"

/-- a slot of the process table -/
structure Process where
  pid : Pid
  state : ProcessState := .free
  space : Option AddressSpace := none
  /-- the registers as they were saved last -/
  registers : Registers := {}
  deriving DecidableEq, Inhabited

def Process.isRunnable (p : Process) : Bool :=
  p.state == .runnable

/-- whether a process can be put into the slot -/
def Process.isVacant (p : Process) : Bool :=
  p.state == .free && p.space.isNone

/-- the slots of all processes -/
structure ProcessTable (n : Nat) where
  slots : Vector Process n

namespace ProcessTable

variable {n : Nat}

/-- every slot free -/
def empty (n : Nat) : ProcessTable n :=
  ⟨Vector.ofFn fun i => { pid := i.val }⟩

instance : Inhabited (ProcessTable n) := ⟨empty n⟩

def get? (t : ProcessTable n) (pid : Pid) : Option Process :=
  t.slots[pid]?

/-- the slot of a pid that is known to have one -/
def get (t : ProcessTable n) (pid : Pid) : Except Panic Process :=
  match t.get? pid with
  | some p => .ok p
  | none => .error .outOfRange

/-- change the slot of a pid; a pid without a slot changes nothing -/
def update (t : ProcessTable n) (pid : Pid) (change : Process → Process) : ProcessTable n :=
  ⟨⟨t.slots.toArray.modify pid change, by simp⟩⟩

/-- the address space of a process -/
def space? (t : ProcessTable n) (pid : Pid) : Option AddressSpace :=
  (t.get? pid).bind Process.space

def toList (t : ProcessTable n) : List Process :=
  t.slots.toList

/-- the vacant slot of the lowest number, the kernel's slot apart -/
def firstFree? (t : ProcessTable n) : Option Pid :=
  ((t.toList.drop 1).find? Process.isVacant).map Process.pid

end ProcessTable

end PagedKernel
