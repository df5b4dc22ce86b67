import PagedKernel.Panic

/-!
# Computations over a state

* `Action σ α`            a computation over a state `σ` that may panic
* `Attempt σ ε α`         a computation that may panic or fail with an error `ε`
* `Attempt.fail`          the failing attempt
* `Attempt.mapError`      the same attempt with its error told otherwise
* `Attempt.onError`       what to do after an error; a panic is not caught
* `Attempt.outcome`       the error as a value
* `Action.within`         a computation on a part of the state

The state survives a panic and an error alike: what was done before stays done.
-/

namespace PagedKernel

/-- a computation over a state `σ` that may panic -/
abbrev Action (σ α : Type) := EStateM Panic σ α

/-- why an attempt did not succeed -/
inductive Stop (ε : Type) where
  | error (e : ε)
  | panic (p : Panic)
  deriving DecidableEq

/-- a computation over a state `σ` that may panic or fail with an error `ε` -/
abbrev Attempt (σ ε α : Type) := EStateM (Stop ε) σ α

namespace Action

variable {σ τ α : Type}

/-- a pure computation that may panic, run without touching the state -/
@[always_inline, inline]
def ofExcept (x : Except Panic α) : Action σ α := fun s =>
  match x with
  | .ok a => .ok a s
  | .error p => .error p s

/-- stop without an answer -/
@[always_inline, inline]
def panic (p : Panic) : Action σ α := fun s => .error p s

/-- an action as an attempt that never fails -/
@[always_inline, inline]
def toAttempt {ε : Type} (x : Action σ α) : Attempt σ ε α := fun s =>
  match x s with
  | .ok a s => .ok a s
  | .error p s => .error (.panic p) s

instance : MonadLift (Except Panic) (EStateM Panic σ) := ⟨ofExcept⟩

instance {ε : Type} : MonadLift (EStateM Panic σ) (EStateM (Stop ε) σ) := ⟨toAttempt⟩

/-- a computation on a part of the state.  The part is taken out of the state while the computation
runs, so that nothing shares it and it is changed in place. -/
@[always_inline, inline]
def within {ε : Type} [Inhabited τ] (get : σ → τ) (set : τ → σ → σ) (x : EStateM ε τ α) :
    EStateM ε σ α := fun s =>
  let part := get s
  let s := set default s
  match x part with
  | .ok a part => .ok a (set part s)
  | .error e part => .error e (set part s)

end Action

namespace Attempt

variable {σ ε ε' α : Type}

/-- fail with `e` -/
@[always_inline, inline]
def fail (e : ε) : Attempt σ ε α := fun s => .error (.error e) s

/-- a result that may be an error, as an attempt -/
@[always_inline, inline]
def ofResult (r : Except ε α) : Attempt σ ε α := fun s =>
  match r with
  | .ok a => .ok a s
  | .error e => .error (.error e) s

/-- the same attempt with its error told otherwise -/
@[always_inline, inline]
def mapError (x : Attempt σ ε α) (f : ε → ε') : Attempt σ ε' α := fun s =>
  match x s with
  | .ok a s => .ok a s
  | .error (.error e) s => .error (.error (f e)) s
  | .error (.panic p) s => .error (.panic p) s

/-- what to do after an error, from the state that the failed attempt left -/
@[always_inline, inline]
def onError (x : Attempt σ ε α) (handle : ε → Attempt σ ε' α) : Attempt σ ε' α := fun s =>
  match x s with
  | .ok a s => .ok a s
  | .error (.error e) s => handle e s
  | .error (.panic p) s => .error (.panic p) s

/-- the error as a value -/
@[always_inline, inline]
def outcome (x : Attempt σ ε α) : Action σ (Except ε α) := fun s =>
  match x s with
  | .ok a s => .ok (.ok a) s
  | .error (.error e) s => .ok (.error e) s
  | .error (.panic p) s => .error p s

/-- the value of an option; without one the attempt fails with `e` -/
@[always_inline, inline]
def orFail (x : Option α) (e : ε) : Attempt σ ε α := fun s =>
  match x with
  | some a => .ok a s
  | none => .error (.error e) s

end Attempt

end PagedKernel
