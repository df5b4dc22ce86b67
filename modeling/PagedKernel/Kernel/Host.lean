import PagedKernel.Kernel.View

/-!
# The host

What surrounds the kernel: it runs processes, owns the timer, knows where an access was refused, and
may ask the kernel to stop.  The answers it will give are data, and it keeps a record of everything
it was asked.

* `HostCall`            what the kernel asks of the host
* `Host`                its answers and its record
* `Host.running?`       the process that control was handed to last
* `Host.count`          how often something was asked
-/

namespace PagedKernel

/-- what the kernel asks of the host -/
inductive HostCall where
  /-- run a process with these registers in this address space -/
  | activate (pid : Pid) (registers : Registers) (space : AddressSpace)
  /-- the timer interrupt has been dealt with -/
  | ackTimer
  /-- where an access was refused last; with the answer -/
  | faultAddress (va : VirtualAddress)
  /-- whether to stop; with the answer -/
  | abortPoll (answer : Bool)
  /-- show a view of memory, which the host lists; `none` if it cannot list what is mapped -/
  | showMemory (view : Option ViewSummary)
  deriving DecidableEq, Inhabited

namespace HostCall

def isActivate : HostCall → Bool
  | activate .. => true
  | _ => false

def isAckTimer : HostCall → Bool
  | ackTimer => true
  | _ => false

def isFaultAddress : HostCall → Bool
  | faultAddress _ => true
  | _ => false

def isAbortPoll : HostCall → Bool
  | abortPoll _ => true
  | _ => false

def isShowMemory : HostCall → Bool
  | showMemory _ => true
  | _ => false

/-- the process, registers and address space of an activation -/
def activation? : HostCall → Option (Pid × Registers × AddressSpace)
  | activate pid registers space => some (pid, registers, space)
  | _ => none

/-- the view that is shown, if the host can list it -/
def view? : HostCall → Option ViewSummary
  | showMemory view => view
  | _ => none

end HostCall

/-- the surroundings of the kernel -/
structure Host where
  /-- where an access was refused last -/
  faultAddress : VirtualAddress := ⟨0⟩
  /-- how many more polls the host lets pass before it asks the kernel to stop; `none` if it never
  does -/
  abortAfter : Option Nat := none
  /-- what the kernel has asked, the latest first -/
  calls : List HostCall := []
  deriving DecidableEq, Inhabited

namespace Host

/-- add to the record -/
def record (h : Host) (call : HostCall) : Host :=
  { h with calls := call :: h.calls }

/-- ask whether to stop -/
def pollAbort (h : Host) : Bool × Host :=
  match h.abortAfter with
  | none => (false, h.record (.abortPoll false))
  | some 0 => (true, h.record (.abortPoll true))
  | some (n + 1) => (false, { h.record (.abortPoll false) with abortAfter := some n })

/-- the host counts a poll, and asks the kernel to stop if none is to pass any more -/
theorem pollAbort_eq (h : Host) :
    h.pollAbort = (decide (h.abortAfter = some 0),
      { h.record (.abortPoll (decide (h.abortAfter = some 0))) with
        abortAfter := h.abortAfter.map (· - 1) }) := by
  obtain ⟨faultAddress, _ | _ | n, calls⟩ := h <;> rfl

/-- how often something was asked -/
def count (h : Host) (p : HostCall → Bool) : Nat :=
  h.calls.countP p

/-- the process that control was handed to last, and how -/
def running? (h : Host) : Option (Pid × Registers × AddressSpace) :=
  h.calls.findSome? HostCall.activation?

/-- the view that the host listed last -/
def lastView? (h : Host) : Option ViewSummary :=
  h.calls.findSome? HostCall.view?

/-- how often control passed from one process to another -/
def switches (h : Host) : Nat :=
  let pids := (h.calls.filterMap HostCall.activation?).map Prod.fst
  ((pids.zip (pids.drop 1)).filter fun (later, earlier) => later ≠ earlier).length

end Host

end PagedKernel
