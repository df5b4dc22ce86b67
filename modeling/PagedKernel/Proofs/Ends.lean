import PagedKernel.Action
import PagedKernel.Address.Arithmetic

/-!
# How a computation ends

`Ends x s Q E` says how the computation `x` ends when it starts in the state `s`: with an answer
and a state that satisfy `Q`, or stopped, with a reason and a state that satisfy `E`.

* `Ends.bind`, `Ends.mono`   one step after another; a weaker claim
* `Fails E`, `Errs E`        the reasons that are errors, and no panic; or panics as well
* `Ends.forM`, `Ends.forPages`   loops over a list and over pages, with an invariant for each place

A computation of this library is run by the lemma of its combinator; the lemmas with `iff` in their
statement are for rewriting.
-/

namespace PagedKernel

/-- how a computation that starts in `s` ends -/
def Ends {ε σ α : Type} (x : EStateM ε σ α) (s : σ) (Q : α → σ → Prop) (E : ε → σ → Prop) : Prop :=
  match x s with
  | .ok a s' => Q a s'
  | .error e s' => E e s'

/-- an attempt that stops with an error as `E` says; it does not panic -/
def Fails {ε σ : Type} (E : ε → σ → Prop) : Stop ε → σ → Prop
  | .error e, s => E e s
  | .panic _, _ => False

/-- an attempt that stops with an error as `E` says, or panics -/
def Errs {ε σ : Type} (E : ε → σ → Prop) : Stop ε → σ → Prop
  | .error e, s => E e s
  | .panic _, _ => True

/-- a computation that does not panic -/
def Never {ε σ : Type} : ε → σ → Prop := fun _ _ => False

section
variable {ε ε' σ τ α β : Type} {s : σ}

theorem ok_bind {a : α} {f : α → Except ε β} : (Except.ok a >>= f) = f a := rfl

theorem ok_pure {a : α} : (pure a : Except ε α) = .ok a := rfl

theorem Fails.mono {E E' : ε → σ → Prop} (h : ∀ e s, E e s → E' e s) :
    ∀ e s, Fails E e s → Fails E' e s := by
  intro e s he
  cases e with
  | error e => exact h e s he
  | panic p => exact he

theorem Errs.mono {E E' : ε → σ → Prop} (h : ∀ e s, E e s → E' e s) :
    ∀ e s, Errs E e s → Errs E' e s := by
  intro e s he
  cases e with
  | error e => exact h e s he
  | panic p => trivial

theorem Ends.mono {x : EStateM ε σ α} {Q Q' : α → σ → Prop} {E E' : ε → σ → Prop}
    (h : Ends x s Q E) (hQ : ∀ a s', Q a s' → Q' a s') (hE : ∀ e s', E e s' → E' e s') :
    Ends x s Q' E' := by
  unfold Ends at *
  split at h
  · exact hQ _ _ h
  · exact hE _ _ h

/-- a weaker claim, where the run itself is known -/
theorem Ends.mono_eq {x : EStateM ε σ α} {Q Q' : α → σ → Prop} {E E' : ε → σ → Prop}
    (h : Ends x s Q E) (hQ : ∀ a s', x s = .ok a s' → Q a s' → Q' a s')
    (hE : ∀ e s', x s = .error e s' → E e s' → E' e s') : Ends x s Q' E' := by
  unfold Ends at *
  split at h
  · next hx => exact hQ _ _ hx h
  · next hx => exact hE _ _ hx h

theorem ends_congr {x y : EStateM ε σ α} {Q : α → σ → Prop} {E : ε → σ → Prop} (h : x s = y s) :
    Ends x s Q E ↔ Ends y s Q E := by
  unfold Ends
  rw [h]

theorem Ends.and {x : EStateM ε σ α} {Q Q' : α → σ → Prop} {E E' : ε → σ → Prop}
    (h : Ends x s Q E) (h' : Ends x s Q' E') :
    Ends x s (fun a t => Q a t ∧ Q' a t) (fun e t => E e t ∧ E' e t) := by
  unfold Ends at *
  split at h
  · next hx => rw [hx] at h'; exact ⟨h, h'⟩
  · next hx => rw [hx] at h'; exact ⟨h, h'⟩

/-- what holds of all answers and states, and of all reasons to stop -/
theorem Ends.of_forall {x : EStateM ε σ α} {Q : α → σ → Prop} {E : ε → σ → Prop}
    (hQ : ∀ a t, Q a t) (hE : ∀ e t, E e t) : Ends x s Q E := by
  unfold Ends
  split
  · exact hQ _ _
  · exact hE _ _

theorem Ends.ok {x : EStateM ε σ α} {Q : α → σ → Prop} {E : ε → σ → Prop} (h : Ends x s Q E)
    {a : α} {s' : σ} (hx : x s = .ok a s') : Q a s' := by
  unfold Ends at h
  rw [hx] at h
  exact h

theorem Ends.error {x : EStateM ε σ α} {Q : α → σ → Prop} {E : ε → σ → Prop} (h : Ends x s Q E)
    {e : ε} {s' : σ} (hx : x s = .error e s') : E e s' := by
  unfold Ends at h
  rw [hx] at h
  exact h

/-- a computation that nothing stops has an answer -/
theorem Ends.exists_ok {x : EStateM ε σ α} {Q : α → σ → Prop} (h : Ends x s Q Never) :
    ∃ a s', x s = .ok a s' ∧ Q a s' := by
  unfold Ends at h
  split at h
  · next hx => exact ⟨_, _, hx, h⟩
  · exact h.elim

/-- a computation that has no answer is stopped -/
theorem Ends.exists_error {x : EStateM ε σ α} {E : ε → σ → Prop}
    (h : Ends x s (fun _ _ => False) E) : ∃ e s', x s = .error e s' ∧ E e s' := by
  unfold Ends at h
  split at h
  · exact h.elim
  · next hx => exact ⟨_, _, hx, h⟩

/-! ## sequences -/

theorem ends_pure {a : α} {Q : α → σ → Prop} {E : ε → σ → Prop} :
    Ends (pure a) s Q E ↔ Q a s := Iff.rfl

theorem ends_bind {x : EStateM ε σ α} {f : α → EStateM ε σ β} {Q : β → σ → Prop}
    {E : ε → σ → Prop} :
    Ends (x >>= f) s Q E ↔ Ends x s (fun a s' => Ends (f a) s' Q E) E := by
  unfold Ends
  simp only [bind, EStateM.bind]
  cases x s <;> rfl

theorem bind_of_ok {x : EStateM ε σ α} {f : α → EStateM ε σ β} {a : α} {s' : σ}
    (h : x s = .ok a s') : (x >>= f) s = f a s' := by
  show EStateM.bind x f s = _
  rw [EStateM.bind, h]

theorem bind_of_error {x : EStateM ε σ α} {f : α → EStateM ε σ β} {e : ε} {s' : σ}
    (h : x s = .error e s') : (x >>= f) s = .error e s' := by
  show EStateM.bind x f s = _
  rw [EStateM.bind, h]

theorem Ends.bind {x : EStateM ε σ α} {f : α → EStateM ε σ β} {P : α → σ → Prop}
    {Q : β → σ → Prop} {E : ε → σ → Prop} (h : Ends x s P E)
    (hf : ∀ a s', P a s' → Ends (f a) s' Q E) : Ends (x >>= f) s Q E :=
  ends_bind.2 (h.mono hf fun _ _ he => he)

theorem ends_get {Q : σ → σ → Prop} {E : ε → σ → Prop} :
    Ends (get : EStateM ε σ σ) s Q E ↔ Q s s := Iff.rfl

theorem ends_modify {f : σ → σ} {Q : PUnit → σ → Prop} {E : ε → σ → Prop} :
    Ends (modify f : EStateM ε σ PUnit) s Q E ↔ Q ⟨⟩ (f s) := Iff.rfl

theorem ends_ite {c : Prop} [Decidable c] {x y : EStateM ε σ α} {Q : α → σ → Prop}
    {E : ε → σ → Prop} :
    Ends (if c then x else y) s Q E ↔ (c → Ends x s Q E) ∧ (¬ c → Ends y s Q E) := by
  by_cases h : c <;> simp [h]

/-! ## the combinators -/

theorem ends_ofExcept {x : Except Panic α} {Q : α → σ → Prop} {E : Panic → σ → Prop} {a : α}
    (h : x = .ok a) : Ends (Action.ofExcept x : Action σ α) s Q E ↔ Q a s := by
  subst h
  rfl

theorem ends_panic {p : Panic} {Q : α → σ → Prop} {E : Panic → σ → Prop} :
    Ends (Action.panic p : Action σ α) s Q E ↔ E p s := Iff.rfl

theorem ends_toAttempt {x : Action σ α} {Q : α → σ → Prop} {E : Stop ε → σ → Prop} :
    Ends (x.toAttempt : Attempt σ ε α) s Q E ↔ Ends x s Q fun p t => E (.panic p) t := by
  unfold Ends Action.toAttempt
  cases x s <;> rfl

theorem ends_lift {x : Action σ α} {Q : α → σ → Prop} {E : Stop ε → σ → Prop} :
    Ends (liftM x : Attempt σ ε α) s Q E ↔ Ends x s Q fun p t => E (.panic p) t :=
  ends_toAttempt

theorem lift_of_ok {x : Action σ α} {a : α} {s' : σ} (h : x s = .ok a s') :
    (liftM x : Attempt σ ε α) s = .ok a s' := by
  show x.toAttempt s = _
  rw [Action.toAttempt, h]

theorem ends_attemptExcept {x : Except Panic α} {Q : α → σ → Prop} {E : Stop ε → σ → Prop} {a : α}
    (h : x = .ok a) : Ends (liftM x : Attempt σ ε α) s Q E ↔ Q a s := by
  subst h
  rfl

theorem ends_attemptExcept_error {x : Except Panic α} {Q : α → σ → Prop} {E : Stop ε → σ → Prop}
    {p : Panic} (h : x = .error p) : Ends (liftM x : Attempt σ ε α) s Q E ↔ E (.panic p) s := by
  subst h
  rfl

theorem ends_fail {e : ε} {Q : α → σ → Prop} {E : Stop ε → σ → Prop} :
    Ends (Attempt.fail e : Attempt σ ε α) s Q E ↔ E (.error e) s := Iff.rfl

theorem ends_ofResult_ok {a : α} {Q : α → σ → Prop} {E : Stop ε → σ → Prop} :
    Ends (Attempt.ofResult (.ok a) : Attempt σ ε α) s Q E ↔ Q a s := Iff.rfl

theorem ends_ofResult_error {e : ε} {Q : α → σ → Prop} {E : Stop ε → σ → Prop} :
    Ends (Attempt.ofResult (.error e) : Attempt σ ε α) s Q E ↔ E (.error e) s := Iff.rfl

theorem ends_orFail_some {a : α} {e : ε} {Q : α → σ → Prop} {E : Stop ε → σ → Prop} :
    Ends (Attempt.orFail (some a) e : Attempt σ ε α) s Q E ↔ Q a s := Iff.rfl

theorem ends_orFail_none {e : ε} {Q : α → σ → Prop} {E : Stop ε → σ → Prop} :
    Ends (Attempt.orFail none e : Attempt σ ε α) s Q E ↔ E (.error e) s := Iff.rfl

theorem Attempt.mapError_bind (x : Attempt σ ε α) (f : α → Attempt σ ε β) (g : ε → ε') :
    Attempt.mapError (x >>= f) g = x.mapError g >>= fun a => (f a).mapError g := by
  funext s
  simp only [bind, EStateM.bind, Attempt.mapError]
  rcases x s with _ | ⟨_ | _, _⟩ <;> rfl

theorem Attempt.mapError_lift (x : Action σ α) (g : ε → ε') :
    Attempt.mapError (liftM x : Attempt σ ε α) g = liftM x := by
  funext s
  show Attempt.mapError x.toAttempt g s = x.toAttempt s
  unfold Attempt.mapError Action.toAttempt
  cases x s <;> rfl

theorem ends_mapError {x : Attempt σ ε α} {f : ε → ε'} {Q : α → σ → Prop}
    {E : Stop ε' → σ → Prop} :
    Ends (x.mapError f) s Q E ↔
      Ends x s Q fun e t =>
        match e with
        | .error e => E (.error (f e)) t
        | .panic p => E (.panic p) t := by
  unfold Ends Attempt.mapError
  rcases x s with _ | ⟨_ | _, _⟩ <;> rfl

theorem ends_onError {x : Attempt σ ε α} {g : ε → Attempt σ ε' α} {Q : α → σ → Prop}
    {E : Stop ε' → σ → Prop} :
    Ends (x.onError g) s Q E ↔
      Ends x s Q fun e t =>
        match e with
        | .error e => Ends (g e) t Q E
        | .panic p => E (.panic p) t := by
  unfold Ends Attempt.onError
  rcases x s with _ | ⟨_ | _, _⟩ <;> rfl

theorem ends_outcome {x : Attempt σ ε α} {Q : Except ε α → σ → Prop} {E : Panic → σ → Prop} :
    Ends x.outcome s Q E ↔
      Ends x s (fun a t => Q (.ok a) t) fun e t =>
        match e with
        | .error e => Q (.error e) t
        | .panic p => E p t := by
  unfold Ends Attempt.outcome
  rcases x s with _ | ⟨_ | _, _⟩ <;> rfl

theorem ends_within [Inhabited τ] {get : σ → τ} {set : τ → σ → σ} {x : EStateM ε τ α}
    {Q : α → σ → Prop} {E : ε → σ → Prop} (hset : ∀ a b t, set a (set b t) = set a t) :
    Ends (Action.within get set x) s Q E ↔
      Ends x (get s) (fun a t => Q a (set t s)) fun e t => E e (set t s) := by
  unfold Ends Action.within
  simp only [hset]
  cases x (get s) <;> rfl

theorem Ends.mapError {x : Attempt σ ε α} {f : ε → ε'} {Q : α → σ → Prop} {E : ε → σ → Prop}
    {F : ε' → σ → Prop} (h : Ends x s Q (Fails E)) (hE : ∀ e t, E e t → F (f e) t) :
    Ends (x.mapError f) s Q (Fails F) := by
  rw [ends_mapError]
  refine h.mono (fun _ _ hq => hq) fun e t he => ?_
  cases e with
  | error e => exact hE e t he
  | panic p => exact he

theorem Ends.mapErrs {x : Attempt σ ε α} {f : ε → ε'} {Q : α → σ → Prop} {E : ε → σ → Prop}
    {F : ε' → σ → Prop} (h : Ends x s Q (Errs E)) (hE : ∀ e t, E e t → F (f e) t) :
    Ends (x.mapError f) s Q (Errs F) := by
  rw [ends_mapError]
  refine h.mono (fun _ _ hq => hq) fun e t he => ?_
  cases e with
  | error e => exact hE e t he
  | panic p => trivial

theorem Ends.onError {x : Attempt σ ε α} {g : ε → Attempt σ ε' α} {Q : α → σ → Prop}
    {E : ε → σ → Prop} {E' : Stop ε' → σ → Prop} (h : Ends x s Q (Fails E))
    (hE : ∀ e t, E e t → Ends (g e) t Q E') : Ends (x.onError g) s Q E' := by
  rw [ends_onError]
  refine h.mono (fun _ _ hq => hq) fun e t he => ?_
  cases e with
  | error e => exact hE e t he
  | panic p => exact False.elim he

/-! ## loops -/

/-- a loop over words keeps an invariant that speaks of the words behind it -/
theorem Ends.forStepsFrom {act : UInt64 → EStateM ε σ Unit} {E : ε → σ → Prop}
    (I : Nat → σ → Prop) (start : UInt64) (n : Nat)
    (step : ∀ i, i < n → ∀ t, I i t →
      Ends (act (start + 4096 * UInt64.ofNat i)) t (fun _ t' => I (i + 1) t') E)
    (k : Nat) (hk : k ≤ n) (h : I k s) :
    Ends (PagedKernel.forStepsFrom act (start + 4096 * UInt64.ofNat k) (n - k)) s
      (fun _ t => I n t) E := by
  induction hd : n - k generalizing k s with
  | zero =>
    have : k = n := by omega
    subst this
    exact h
  | succ d ih =>
    have next : start + 4096 * UInt64.ofNat k + 4096 = start + 4096 * UInt64.ofNat (k + 1) := by
      rw [UInt64.ofNat_add, UInt64.mul_add, UInt64.add_assoc]
      rfl
    rw [PagedKernel.forStepsFrom, next]
    refine (step k (by omega) s h).bind fun _ t ht => ?_
    exact ih (k + 1) (by omega) ht (by omega)

theorem Ends.forSteps {act : UInt64 → EStateM ε σ Unit} {E : ε → σ → Prop} {start stop : UInt64}
    (I : Nat → σ → Prop) (h : I 0 s)
    (step : ∀ i, i < stepCount start stop → ∀ t, I i t →
      Ends (act (start + 4096 * UInt64.ofNat i)) t (fun _ t' => I (i + 1) t') E) :
    Ends (PagedKernel.forSteps start stop act) s (fun _ t => I (stepCount start stop) t) E := by
  have := Ends.forStepsFrom I start (stepCount start stop) step 0 (Nat.zero_le _) h
  rw [Nat.sub_zero] at this
  have zero : start + 4096 * UInt64.ofNat 0 = start := UInt64.add_zero start
  rw [zero] at this
  exact this

/-- a loop over a list, with an invariant that speaks of what is left of it -/
theorem Ends.forM {act : α → EStateM ε σ PUnit} {E : ε → σ → Prop} (I : List α → σ → Prop)
    (step : ∀ x rest t, I (x :: rest) t → Ends (act x) t (fun _ t' => I rest t') E) (xs : List α)
    (h : I xs s) : Ends (xs.forM act) s (fun _ t => I [] t) E := by
  induction xs generalizing s with
  | nil => exact ends_pure.2 h
  | cons x rest ih =>
    show Ends (act x >>= fun _ => rest.forM act) s _ E
    exact (step x rest s h).bind fun _ t ht => ih ht

/-- the words of a loop from one page up to another -/
theorem toNat_step {start stop : UInt64} {a b i : Nat} (hstart : start.toNat = 4096 * a)
    (hstop : stop.toNat = 4096 * b) (hi : i < stepCount start stop) :
    a + i < b ∧ (start + 4096 * UInt64.ofNat i).toNat = 4096 * (a + i) := by
  have hlt := stop.toNat_lt
  rw [stepCount, hstart, hstop] at hi
  refine ⟨by omega, ?_⟩
  rw [UInt64.toNat_add, UInt64.toNat_mul, UInt64.toNat_ofNat', hstart]
  simp only [UInt64.reduceToNat]
  omega

/-- the page of an aligned word -/
theorem page_of_aligned {w : UInt64} {n : Nat} (hw : w.toNat = 4096 * n) :
    (Address.mk w : VirtualAddress).page.number.toNat = n ∧
      (Address.mk w : VirtualAddress).isAligned = true := by
  constructor
  · show (w / 4096).toNat = n
    rw [UInt64.toNat_div, hw]
    simp only [UInt64.reduceToNat]
    omega
  · rw [Address.isAligned, beq_iff_eq, Address.offset, ← UInt64.toNat_inj, UInt64.toNat_mod, hw]
    simp only [UInt64.reduceToNat]
    omega

/-- a loop over aligned words, with an invariant that speaks of page numbers -/
theorem Ends.forStepsAligned {act : UInt64 → EStateM ε σ Unit} {E : ε → σ → Prop}
    {start stop : UInt64} {a b : Nat} (hstart : start.toNat = 4096 * a)
    (hstop : stop.toNat = 4096 * b) (hle : a ≤ b) (I : Nat → σ → Prop) (h : I a s)
    (step : ∀ n w t, a ≤ n → n < b → w.toNat = 4096 * n → I n t →
      Ends (act w) t (fun _ t' => I (n + 1) t') E) :
    Ends (PagedKernel.forSteps start stop act) s (fun _ t => I b t) E := by
  have hcount : stepCount start stop = b - a := by
    rw [stepCount, hstart, hstop]
    omega
  have hloop : Ends (PagedKernel.forSteps start stop act) s
      (fun _ t => I (a + stepCount start stop) t) E :=
    Ends.forSteps (fun i t => I (a + i) t) h fun i hi t ht => by
      obtain ⟨hlt, hword⟩ := toNat_step hstart hstop hi
      exact step (a + i) _ t (Nat.le_add_right a i) hlt hword ht
  have hend : a + (b - a) = b := by omega
  rw [hcount, hend] at hloop
  exact hloop

/-- a loop over the pages from that of an address on -/
theorem Ends.forPages {act : VirtualAddress → EStateM ε σ Unit} {E : ε → σ → Prop}
    {va stop : VirtualAddress} {a b : Nat} (hstart : va.page.number.toNat = a)
    (hstop : stop.value.toNat = 4096 * b) (hle : a ≤ b) (I : Nat → σ → Prop) (h : I a s)
    (step : ∀ n w t, a ≤ n → n < b → w.page.number.toNat = n → w.isAligned = true → I n t →
      Ends (act w) t (fun _ t' => I (n + 1) t') E) :
    Ends (va.forPages stop act) s (fun _ t => I b t) E := by
  have hbase : va.page.base.value.toNat = 4096 * a := by
    rw [va.page.toNat_base, hstart, Nat.mul_comm]
  refine Ends.forStepsAligned hbase hstop hle I h fun n w t h₁ h₂ hw ht => ?_
  obtain ⟨hpage, haligned⟩ := page_of_aligned hw
  exact step n ⟨w⟩ t h₁ h₂ hpage haligned ht

end

end PagedKernel
