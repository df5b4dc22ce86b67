import PagedKernel.Proofs.EndsAlike

/-!
# Computations that respect a relation

From related states such a computation gives the same answer, or stops for the same reason, and
leaves related states.  Nothing that it does depends on what the relation leaves open.

* `Together R x y s t`   two runs with the same answer that leave states related by `R`
* `Respects R x`         any two runs of `x` from related states
* `Respects.bind`, `Respects.read`, …   one rule for each combinator
-/

namespace PagedKernel

/-- both computations end with the same answer or for the same reason, and leave related states -/
def Together {ε σ α : Type} (R : σ → σ → Prop) (x y : EStateM ε σ α) (s t : σ) : Prop :=
  EndAlike NoneLost x y s t (fun a b s' t' => a = b ∧ R s' t') fun _ => R

/-- from related states the computation does the same, and leaves related states -/
def Respects {ε σ α : Type} (R : σ → σ → Prop) (x : EStateM ε σ α) : Prop :=
  ∀ s t, R s t → Together R x x s t

theorem noneLost_eq {ε : Type} : (NoneLost : Stop ε → Prop) = Lost fun _ => False := by
  funext e
  cases e <;> rfl

variable {ε ε' σ α β : Type} {R : σ → σ → Prop}

namespace Respects

theorem pure (a : α) : Respects R (pure a : EStateM ε σ α) := fun _ _ h => ⟨rfl, h⟩

theorem modify {f : σ → σ} (hf : ∀ s t, R s t → R (f s) (f t)) :
    Respects R (modify f : EStateM ε σ PUnit) := fun s t h => ⟨rfl, hf s t h⟩

theorem stop (e : ε) : Respects R (fun s => .error e s : EStateM ε σ α) :=
  fun _ _ h => .inr (.inr ⟨rfl, h⟩)

theorem bind {x : EStateM ε σ α} {f : α → EStateM ε σ β} (hx : Respects R x)
    (hf : ∀ a, Respects R (f a)) : Respects R (x >>= f) := fun s t h => by
  refine EndAlike.bind (hx s t h) ?_
  rintro a _ s' t' ⟨rfl, h'⟩
  exact hf a s' t' h'

/-- what is read of the state is the same in related states -/
theorem read {f : σ → EStateM ε σ α} (hsame : ∀ s t, R s t → f s = f t)
    (hf : ∀ s, Respects R (f s)) : Respects R (get >>= f) := fun s t h => by
  refine EndAlike.bind_ok s t rfl rfl ?_
  rw [hsame s t h]
  exact hf t s t h

theorem ite {c : Prop} [Decidable c] {x y : EStateM ε σ α} (hx : Respects R x)
    (hy : Respects R y) : Respects R (if c then x else y) := fun s t h =>
  EndAlike.ite Iff.rfl (fun _ => hx s t h) fun _ => hy s t h

/-- a pure answer, or a pure panic -/
theorem ofExcept (x : Except Panic α) : Respects R (Action.ofExcept x : Action σ α) := by
  cases x with
  | ok a => exact pure a
  | error p => exact stop p

theorem lift {x : Action σ α} (hx : Respects R x) :
    Respects R (liftM x : Attempt σ ε α) := fun s t h => EndAlike.lift (hx s t h)

theorem liftExcept (x : Except Panic α) : Respects R (liftM x : Attempt σ ε α) := by
  cases x with
  | ok a => exact pure a
  | error p => exact stop (Stop.panic p)

theorem fail (e : ε) : Respects R (Attempt.fail e : Attempt σ ε α) := stop (Stop.error e)

theorem ofResult (r : Except ε α) : Respects R (Attempt.ofResult r : Attempt σ ε α) := by
  cases r with
  | ok a => exact pure a
  | error e => exact fail e

theorem orFail (x : Option α) (e : ε) : Respects R (Attempt.orFail x e : Attempt σ ε α) := by
  cases x with
  | some a => exact pure a
  | none => exact fail e

theorem onError {x : Attempt σ ε α} {g : ε → Attempt σ ε' α} (hx : Respects R x)
    (hg : ∀ e, Respects R (g e)) : Respects R (x.onError g) := fun s t h => by
  have hboth := hx s t h
  unfold Together at hboth ⊢
  rw [noneLost_eq] at hboth ⊢
  refine EndAlike.onError hboth (fun _ _ hn => hn.elim) (fun _ _ hn => hn.elim)
    (fun e s' t' h' => ?_) fun _ _ _ h' => h'
  rw [← noneLost_eq]
  exact hg e s' t' h'

theorem mapError {x : Attempt σ ε α} (hx : Respects R x) (f : ε → ε') :
    Respects R (x.mapError f) := fun s t h =>
  onError (g := fun e => Attempt.fail (f e)) hx (fun e => fail (f e)) s t h

/-- the error as a value -/
theorem outcome {x : Attempt σ ε α} (hx : Respects R x) : Respects R x.outcome := fun s t h =>
  EndAlike.outcome (hx s t h) (fun _ _ _ _ h => ⟨congrArg Except.ok h.1, h.2⟩)
    (fun _ _ _ h => ⟨rfl, h⟩) fun _ _ _ h => h

theorem forM {γ : Type} {act : γ → EStateM ε σ PUnit} (h : ∀ c, Respects R (act c))
    (xs : List γ) : Respects R (xs.forM act) := by
  induction xs with
  | nil => exact pure _
  | cons c rest ih => exact (h c).bind fun _ => ih

theorem forSteps {act : UInt64 → EStateM ε σ Unit} (h : ∀ w, Respects R (act w))
    (start stop : UInt64) : Respects R (PagedKernel.forSteps start stop act) := by
  rw [forSteps_eq]
  exact forM h _

theorem forPages {act : VirtualAddress → EStateM ε σ Unit} (h : ∀ w, Respects R (act w))
    (va stop : VirtualAddress) : Respects R (va.forPages stop act) :=
  forSteps (fun w => h ⟨w⟩) _ _

end Respects

end PagedKernel
