import PagedKernel.Proofs.Kernel.Reachable

/-!
# Requests

A kernel is asked for one operation after the other.  Before each the host decides what it will
answer when it is asked itself.

* `Answer`, `Operation.answer`   all that comes of an operation, errors and panics included
* `Request`                      an operation, with the answers that the host has ready
* `Kernel.after`                 the kernel after a row of requests
* `Kernel.answers`               all that it has answered
-/

namespace PagedKernel

/-! ## answers -/

/-- what comes of a computation, without the state that it leaves -/
def answerOf {ε σ α : Type} (x : EStateM ε σ α) (s : σ) : Except ε α :=
  match x s with
  | .ok a _ => .ok a
  | .error e _ => .error e

/-- what comes of an operation -/
inductive Answer where
  | setup (result : Except (Stop SetupError) Unit)
  | dispatch (result : Except (Stop Halt) Dispatch)
  | fork (result : Except (Stop ForkError) Pid)
  | pageAlloc (result : Except (Stop PageAllocError) Unit)
  | teardown (result : Except (Stop Halt) Unit)
  | writeUser (result : Except (Stop UserFault) Unit)
  /-- the bytes before the first refused page, and the fault there -/
  | readUser (result : Except Panic (ByteArray × Option UserFault))

/-- what a kernel answers when it is asked for an operation -/
def Operation.answer (op : Operation) (k : Kernel) : Answer :=
  match op with
  | setup pid image => .setup (answerOf (Kernel.setup pid image) k)
  | boot registry command => .dispatch (answerOf (Kernel.boot registry command) k)
  | run pid => .dispatch (answerOf (Kernel.run pid) k)
  | schedule => .dispatch (answerOf Kernel.schedule k)
  | syscall registers => .dispatch (answerOf (Kernel.syscall registers) k)
  | exception registers => .dispatch (answerOf (Kernel.exception registers) k)
  | fork parent => .fork (answerOf (Kernel.fork parent) k)
  | pageAlloc pid va => .pageAlloc (answerOf (Kernel.pageAlloc pid va) k)
  | teardown pid => .teardown (answerOf (Kernel.teardown pid) k)
  | writeUser pid va bytes => .writeUser (answerOf (Kernel.writeUser pid va bytes) k)
  | readUser pid va length => .readUser (k.readUser pid va length)

/-! ## runs -/

/-- an operation, and the answers that the host will give while it is performed -/
structure Request where
  operation : Operation
  /-- where an access was refused last -/
  faultAddress : VirtualAddress := ⟨0⟩
  /-- how many polls the host lets pass before it asks the kernel to stop -/
  abortAfter : Option Nat := none

namespace Request

/-- the kernel when the request arrives -/
def arrive (r : Request) (k : Kernel) : Kernel :=
  { k with host := { k.host with faultAddress := r.faultAddress, abortAfter := r.abortAfter } }

/-- the kernel that a request leaves, whether it succeeds or fails -/
def perform (r : Request) (k : Kernel) : Kernel := r.operation.perform (r.arrive k)

def answer (r : Request) (k : Kernel) : Answer := r.operation.answer (r.arrive k)

end Request

namespace Kernel

/-- the kernel after a row of requests -/
def after (k : Kernel) (rs : List Request) : Kernel := rs.foldl (fun k r => r.perform k) k

/-- the answers to a row of requests -/
def answers (k : Kernel) : List Request → List Answer
  | [] => []
  | r :: later => r.answer k :: answers (r.perform k) later

variable {k₀ k : Kernel}

/-- requests lead from a reachable kernel to reachable ones -/
theorem Reachable.after (h : Reachable k₀ k) (rs : List Request) : Reachable k₀ (k.after rs) := by
  induction rs generalizing k with
  | nil => exact h
  | cons r later ih => exact ih ((h.host _).operate r.operation)

end Kernel

end PagedKernel
