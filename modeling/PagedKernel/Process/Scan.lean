import PagedKernel.Process.Basic

/-!
# Going round the process table

The order in which slots are looked at: the slot after a given one first, then round the table, and
the given one last.

* `scanOrder slots after take`  the first `take` slots in that order
* `scanFind`                    the first slot in that order for which there is an answer
* `nextRunnable`                the process that runs next
-/

namespace PagedKernel

/-- the slot that is looked at in step `step` (the first step is 1) -/
def scanAt (slots : Nat) (after : Pid) (step : Nat) : Except Panic Pid :=
  if after + step < 0x10000000000000000 then .ok ((after + step) % slots) else .error .overflow

/-- the first `take` slots of the order after `after` -/
def scanOrder (slots : Nat) (after : Pid) (take : Nat) : Except Panic (List Pid) :=
  (List.range (min take slots)).mapM fun i => scanAt slots after (i + 1)

/-- the answer for the first of the slots in `steps` that has one -/
def scanFindFrom {α : Type} (slots : Nat) (after : Pid) (answer : Pid → Option α) :
    List Nat → Except Panic (Option α)
  | [] => .ok none
  | step :: later => do
    match answer (← scanAt slots after step) with
    | some a => return some a
    | none => scanFindFrom slots after answer later

/-- the answer for the first slot in the order after `after` that has one -/
def scanFind {α : Type} (slots : Nat) (after : Pid) (answer : Pid → Option α) :
    Except Panic (Option α) :=
  scanFindFrom slots after answer ((List.range slots).map (· + 1))

/-- the first runnable process in the order after `after` -/
def nextRunnable {n : Nat} (t : ProcessTable n) (after : Pid) : Except Panic (Option Pid) :=
  scanFind n after fun pid =>
    match t.get? pid with
    | some p => if p.isRunnable then some pid else none
    | none => none

end PagedKernel
