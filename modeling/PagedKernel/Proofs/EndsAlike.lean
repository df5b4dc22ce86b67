import PagedKernel.Proofs.Ends

/-!
# How two computations end

`EndAlike lost x y s t Q E` says that the computation `x` from the state `s` and the computation `y`
from the state `t` end alike: both with an answer, and then `Q` holds of the answers and the states,
or both stopped for one reason, and then `E` holds of it and of the states.  A run that stops for a
reason in `lost` is not looked at any further.

* `EndAlike.of_ends`             what two computations do that are known one by one
* `EndAlike.and_ends`            what is known of each is known of both
* `EndAlike.bind`, `EndAlike.mono`, …   one rule for each combinator
* `EndAlike.forM`, `EndAlike.forPages`   loops that go on together
-/

namespace PagedKernel

/-- two computations end alike, unless one of them is lost -/
def EndAlike {ε σ τ α β : Type} (lost : ε → Prop) (x : EStateM ε σ α) (y : EStateM ε τ β) (s : σ)
    (t : τ) (Q : α → β → σ → τ → Prop) (E : ε → σ → τ → Prop) : Prop :=
  match x s, y t with
  | .ok a s', .ok b t' => Q a b s' t'
  | .error e s', .error e' t' => lost e ∨ lost e' ∨ e = e' ∧ E e s' t'
  | .error e _, .ok _ _ => lost e
  | .ok _ _, .error e' _ => lost e'

/-- no run is lost -/
def NoneLost {ε : Type} : ε → Prop := fun _ => False

/-- the runs that stop with an error as `L` says are lost -/
def Lost {ε : Type} (L : ε → Prop) : Stop ε → Prop
  | .error e => L e
  | .panic _ => False

section

variable {ε ε' σ τ α α' β β' : Type} {s : σ} {t : τ} {lost : ε → Prop} {x : EStateM ε σ α}
  {y : EStateM ε τ β} {Q Q' : α → β → σ → τ → Prop} {E E' : ε → σ → τ → Prop}

namespace EndAlike

/-! ## two runs that are known -/

/-- two computations of which each is known; it is left to compare how they end -/
theorem of_ends {Q₁ : α → σ → Prop} {E₁ : ε → σ → Prop} {Q₂ : β → τ → Prop} {E₂ : ε → τ → Prop}
    (hx : Ends x s Q₁ E₁) (hy : Ends y t Q₂ E₂)
    (ok : ∀ a s' b t', Q₁ a s' → Q₂ b t' → Q a b s' t')
    (stopped : ∀ e s' e' t', E₁ e s' → E₂ e' t' → lost e ∨ lost e' ∨ e = e' ∧ E e s' t')
    (first : ∀ e s' b t', E₁ e s' → Q₂ b t' → lost e)
    (second : ∀ a s' e t', Q₁ a s' → E₂ e t' → lost e) : EndAlike lost x y s t Q E := by
  unfold EndAlike
  unfold Ends at hx hy
  cases hxs : x s <;> cases hyt : y t <;> rw [hxs] at hx <;> rw [hyt] at hy
  · exact ok _ _ _ _ hx hy
  · exact second _ _ _ _ hx hy
  · exact first _ _ _ _ hx hy
  · exact stopped _ _ _ _ hx hy

/-- two computations that succeed, or are lost -/
theorem of_ends_lost {Q₁ : α → σ → Prop} {E₁ : ε → σ → Prop} {Q₂ : β → τ → Prop}
    {E₂ : ε → τ → Prop} (hx : Ends x s Q₁ E₁) (hy : Ends y t Q₂ E₂)
    (ok : ∀ a s' b t', Q₁ a s' → Q₂ b t' → Q a b s' t') (first : ∀ e s', E₁ e s' → lost e)
    (second : ∀ e t', E₂ e t' → lost e) : EndAlike lost x y s t Q E :=
  of_ends hx hy ok (fun e s' _ _ he _ => .inl (first e s' he)) (fun e s' _ _ he _ => first e s' he)
    fun _ _ e t' _ he => second e t' he

/-- the first computation is lost -/
theorem of_lost_left {e : ε} {s' : σ} (hx : x s = .error e s') (he : lost e) :
    EndAlike lost x y s t Q E := by
  unfold EndAlike
  rw [hx]
  cases y t with
  | ok _ _ => exact he
  | error _ _ => exact .inl he

/-- the second computation is lost -/
theorem of_lost_right {e : ε} {t' : τ} (hy : y t = .error e t') (he : lost e) :
    EndAlike lost x y s t Q E := by
  unfold EndAlike
  rw [hy]
  cases x s with
  | ok _ _ => exact he
  | error _ _ => exact .inr (.inl he)

theorem mono (h : EndAlike lost x y s t Q E) (hQ : ∀ a b s' t', Q a b s' t' → Q' a b s' t')
    (hE : ∀ e s' t', E e s' t' → E' e s' t') : EndAlike lost x y s t Q' E' := by
  unfold EndAlike at *
  cases hx : x s <;> cases hy : y t <;> rw [hx, hy] at h
  · exact hQ _ _ _ _ h
  · exact h
  · exact h
  · exact h.imp id (Or.imp id fun h => ⟨h.1, hE _ _ _ h.2⟩)

/-- what is known of each computation is known of both -/
theorem and_ends (h : EndAlike lost x y s t Q E) {Q₁ : α → σ → Prop} {E₁ : ε → σ → Prop}
    {Q₂ : β → τ → Prop} {E₂ : ε → τ → Prop} (hx : Ends x s Q₁ E₁) (hy : Ends y t Q₂ E₂) :
    EndAlike lost x y s t (fun a b s' t' => Q a b s' t' ∧ Q₁ a s' ∧ Q₂ b t')
      fun e s' t' => E e s' t' ∧ E₁ e s' ∧ E₂ e t' := by
  unfold EndAlike at *
  unfold Ends at hx hy
  cases hxs : x s <;> cases hyt : y t <;> rw [hxs, hyt] at h <;> rw [hxs] at hx <;> rw [hyt] at hy
  · exact ⟨h, hx, hy⟩
  · exact h
  · exact h
  · rcases h with h | h | ⟨rfl, h⟩
    · exact .inl h
    · exact .inr (.inl h)
    · exact .inr (.inr ⟨rfl, h, hx, hy⟩)

theorem ok (h : EndAlike lost x y s t Q E) {a : α} {b : β} {s' : σ} {t' : τ} (hx : x s = .ok a s')
    (hy : y t = .ok b t') : Q a b s' t' := by
  unfold EndAlike at h
  rw [hx, hy] at h
  exact h

theorem stopped (h : EndAlike lost x y s t Q E) {e e' : ε} {s' : σ} {t' : τ}
    (hx : x s = .error e s') (hy : y t = .error e' t') :
    lost e ∨ lost e' ∨ e = e' ∧ E e s' t' := by
  unfold EndAlike at h
  rw [hx, hy] at h
  exact h

/-- only the first computation stopped -/
theorem first (h : EndAlike lost x y s t Q E) {e : ε} {b : β} {s' : σ} {t' : τ}
    (hx : x s = .error e s') (hy : y t = .ok b t') : lost e := by
  unfold EndAlike at h
  rw [hx, hy] at h
  exact h

/-- only the second computation stopped -/
theorem second (h : EndAlike lost x y s t Q E) {a : α} {e : ε} {s' : σ} {t' : τ}
    (hx : x s = .ok a s') (hy : y t = .error e t') : lost e := by
  unfold EndAlike at h
  rw [hx, hy] at h
  exact h

/-- one of the computations is lost, or both end alike -/
theorem lost_or (h : EndAlike lost x y s t Q E) :
    (∃ e s', x s = .error e s' ∧ lost e) ∨ (∃ e t', y t = .error e t' ∧ lost e) ∨
      EndAlike NoneLost x y s t Q E := by
  cases hx : x s with
  | ok a s' =>
    cases hy : y t with
    | ok b t' =>
      refine .inr (.inr ?_)
      unfold EndAlike
      rw [hx, hy]
      exact h.ok hx hy
    | error e t' => exact .inr (.inl ⟨e, t', rfl, h.second hx hy⟩)
  | error e s' =>
    cases hy : y t with
    | ok b t' => exact .inl ⟨e, s', rfl, h.first hx hy⟩
    | error e' t' =>
      refine (h.stopped hx hy).imp (fun he => ⟨e, s', rfl, he⟩)
        (Or.imp (fun he => ⟨e', t', rfl, he⟩) fun he => ?_)
      unfold EndAlike
      rw [hx, hy]
      exact .inr (.inr he)

/-! ## sequences -/

theorem pure {a : α} {b : β} (h : Q a b s t) :
    EndAlike lost (pure a) (pure b) s t Q E := h

theorem bind {f : α → EStateM ε σ α'} {g : β → EStateM ε τ β'} {R : α' → β' → σ → τ → Prop}
    (h : EndAlike lost x y s t Q E)
    (hf : ∀ a b s' t', Q a b s' t' → EndAlike lost (f a) (g b) s' t' R E) :
    EndAlike lost (x >>= f) (y >>= g) s t R E := by
  unfold EndAlike at h
  cases hx : x s with
  | ok a s' =>
    cases hy : y t with
    | ok b t' =>
      rw [hx, hy] at h
      have hrest := hf a b s' t' h
      unfold EndAlike at hrest ⊢
      rw [bind_of_ok hx, bind_of_ok hy]
      exact hrest
    | error e' t' =>
      rw [hx, hy] at h
      unfold EndAlike
      rw [bind_of_ok hx, bind_of_error hy]
      cases f a s' with
      | ok _ _ => exact h
      | error _ _ => exact .inr (.inl h)
  | error e s' =>
    cases hy : y t with
    | ok b t' =>
      rw [hx, hy] at h
      unfold EndAlike
      rw [bind_of_error hx, bind_of_ok hy]
      cases g b t' with
      | ok _ _ => exact h
      | error _ _ => exact .inl h
    | error e' t' =>
      rw [hx, hy] at h
      unfold EndAlike
      rw [bind_of_error hx, bind_of_error hy]
      exact h

/-- computations that come down to others, from other states -/
theorem of_eq {x' : EStateM ε σ α} {y' : EStateM ε τ β} {s' : σ} {t' : τ} (hx : x s = x' s')
    (hy : y t = y' t') (h : EndAlike lost x' y' s' t' Q E) : EndAlike lost x y s t Q E := by
  unfold EndAlike at *
  rw [hx, hy]
  exact h

/-- two steps of which each is known -/
theorem bind_ok {f : α → EStateM ε σ α'} {g : β → EStateM ε τ β'} {R : α' → β' → σ → τ → Prop}
    {a : α} {b : β} (s' : σ) (t' : τ) (hx : x s = .ok a s') (hy : y t = .ok b t')
    (h : EndAlike lost (f a) (g b) s' t' R E) :
    EndAlike lost (x >>= f) (y >>= g) s t R E :=
  of_eq (bind_of_ok hx) (bind_of_ok hy) h

theorem ite {c d : Prop} [Decidable c] [Decidable d] {x' : EStateM ε σ α} {y' : EStateM ε τ β}
    (hcd : c ↔ d) (hpos : c → EndAlike lost x y s t Q E)
    (hneg : ¬ c → EndAlike lost x' y' s t Q E) :
    EndAlike lost (if c then x else x') (if d then y else y') s t Q E := by
  by_cases hc : c
  · rw [if_pos hc, if_pos (hcd.1 hc)]
    exact hpos hc
  · rw [if_neg hc, if_neg (mt hcd.2 hc)]
    exact hneg hc

/-! ## the combinators -/

theorem lift {lost : Stop ε → Prop} {x : Action σ α} {y : Action τ β}
    {E : Stop ε → σ → τ → Prop}
    (h : EndAlike (fun p => lost (.panic p)) x y s t Q fun p => E (.panic p)) :
    EndAlike lost (liftM x : Attempt σ ε α) (liftM y : Attempt τ ε β) s t Q E := by
  show EndAlike lost x.toAttempt y.toAttempt s t Q E
  unfold EndAlike Action.toAttempt at *
  cases hx : x s <;> cases hy : y t <;> rw [hx, hy] at h
  · exact h
  · exact h
  · exact h
  · exact h.imp id (Or.imp id fun h => ⟨congrArg _ h.1, h.2⟩)

theorem fail {lost : Stop ε → Prop} {e : ε} {E : Stop ε → σ → τ → Prop} (h : E (.error e) s t) :
    EndAlike lost (Attempt.fail e : Attempt σ ε α) (Attempt.fail e : Attempt τ ε β) s t Q E :=
  .inr (.inr ⟨rfl, h⟩)

/-- two options of which both have a value, or neither -/
theorem bind_orFail {lost : Stop ε → Prop} {γ δ : Type} {c? : Option γ} {d? : Option δ} {e : ε}
    {f : γ → Attempt σ ε α} {g : δ → Attempt τ ε β} {E : Stop ε → σ → τ → Prop}
    (hsame : c?.isSome = d?.isSome)
    (some : ∀ c d, c? = some c → d? = some d → EndAlike lost (f c) (g d) s t Q E)
    (none : c? = none → d? = none → E (.error e) s t) :
    EndAlike lost (Attempt.orFail c? e >>= f) (Attempt.orFail d? e >>= g) s t Q E := by
  cases hc : c? <;> cases hd : d? <;> rw [hc, hd] at hsame
  · exact .inr (.inr ⟨rfl, none hc hd⟩)
  · cases hsame
  · cases hsame
  · exact some _ _ hc hd

/-- an error is dealt with; who is lost stays lost -/
theorem onError {L : ε → Prop} {L' : ε' → Prop} {x : Attempt σ ε α} {y : Attempt τ ε β}
    {f : ε → Attempt σ ε' α} {g : ε → Attempt τ ε' β} {E : Stop ε → σ → τ → Prop}
    {E' : Stop ε' → σ → τ → Prop} (h : EndAlike (Lost L) x y s t Q E)
    (first : ∀ e s', L e → ∃ e' s'', f e s' = .error e' s'' ∧ Lost L' e')
    (second : ∀ e t', L e → ∃ e' t'', g e t' = .error e' t'' ∧ Lost L' e')
    (error : ∀ e s' t', E (.error e) s' t' → EndAlike (Lost L') (f e) (g e) s' t' Q E')
    (panic : ∀ p s' t', E (.panic p) s' t' → E' (.panic p) s' t') :
    EndAlike (Lost L') (x.onError f) (y.onError g) s t Q E' := by
  have hleft : ∀ e s', x s = .error (.error e) s' → L e →
      EndAlike (Lost L') (x.onError f) (y.onError g) s t Q E' := by
    intro e s' hx he
    obtain ⟨e', s'', hf, he'⟩ := first e s' he
    have hstop : x.onError f s = .error e' s'' := by
      rw [Attempt.onError, hx]
      exact hf
    exact of_lost_left hstop he'
  have hright : ∀ e t', y t = .error (.error e) t' → L e →
      EndAlike (Lost L') (x.onError f) (y.onError g) s t Q E' := by
    intro e t' hy he
    obtain ⟨e', t'', hg, he'⟩ := second e t' he
    have hstop : y.onError g t = .error e' t'' := by
      rw [Attempt.onError, hy]
      exact hg
    exact of_lost_right hstop he'
  rcases hx : x s with ⟨a, s'⟩ | ⟨e | p, s'⟩ <;> rcases hy : y t with ⟨b, t'⟩ | ⟨e' | p', t'⟩
  · unfold EndAlike Attempt.onError
    rw [hx, hy]
    exact h.ok hx hy
  · exact hright e' t' hy (h.second hx hy)
  · exact (h.second hx hy).elim
  · exact hleft e s' hx (h.first hx hy)
  · rcases h.stopped hx hy with he | he | ⟨⟨⟩, he⟩
    · exact hleft e s' hx he
    · exact hright e' t' hy he
    · refine of_eq ?_ ?_ (error e s' t' he)
      · rw [Attempt.onError, hx]
      · rw [Attempt.onError, hy]
  · rcases h.stopped hx hy with he | he | ⟨⟨⟩, -⟩
    · exact hleft e s' hx he
    · exact he.elim
  · exact (h.first hx hy).elim
  · rcases h.stopped hx hy with he | he | ⟨⟨⟩, -⟩
    · exact he.elim
    · exact hright e' t' hy he
  · rcases h.stopped hx hy with he | he | ⟨⟨⟩, he⟩
    · exact he.elim
    · exact he.elim
    · unfold EndAlike Attempt.onError
      rw [hx, hy]
      exact .inr (.inr ⟨rfl, panic p s' t' he⟩)

/-- errors as values -/
theorem outcome {x : Attempt σ ε α} {y : Attempt τ ε β} {E : Stop ε → σ → τ → Prop}
    {R : Except ε α → Except ε β → σ → τ → Prop} {E' : Panic → σ → τ → Prop}
    (h : EndAlike NoneLost x y s t Q E) (ok : ∀ a b s' t', Q a b s' t' → R (.ok a) (.ok b) s' t')
    (error : ∀ e s' t', E (.error e) s' t' → R (.error e) (.error e) s' t')
    (panic : ∀ p s' t', E (.panic p) s' t' → E' p s' t') :
    EndAlike NoneLost x.outcome y.outcome s t R E' := by
  unfold EndAlike Attempt.outcome at *
  rcases hx : x s with ⟨a, s'⟩ | ⟨e | p, s'⟩ <;> rcases hy : y t with ⟨b, t'⟩ | ⟨e' | p', t'⟩ <;>
    rw [hx, hy] at h
  · exact ok _ _ _ _ h
  · exact h.elim
  · exact h.elim
  · exact h.elim
  · obtain ⟨⟨⟩, he⟩ := (h.resolve_left id).resolve_left id
    exact error _ _ _ he
  · obtain ⟨⟨⟩, -⟩ := (h.resolve_left id).resolve_left id
  · exact h.elim
  · obtain ⟨⟨⟩, -⟩ := (h.resolve_left id).resolve_left id
  · obtain ⟨⟨⟩, he⟩ := (h.resolve_left id).resolve_left id
    exact .inr (.inr ⟨rfl, panic _ _ _ he⟩)

theorem mapError {L : ε → Prop} {L' : ε' → Prop} {f : ε → ε'} {x : Attempt σ ε α}
    {y : Attempt τ ε β} {E : Stop ε → σ → τ → Prop} {E' : Stop ε' → σ → τ → Prop}
    (h : EndAlike (Lost L) x y s t Q E) (hlost : ∀ e, L e → L' (f e))
    (hE : ∀ e s' t', E (.error e) s' t' → E' (.error (f e)) s' t')
    (hP : ∀ p s' t', E (.panic p) s' t' → E' (.panic p) s' t') :
    EndAlike (Lost L') (x.mapError f) (y.mapError f) s t Q E' :=
  onError (f := fun e => Attempt.fail (f e)) (g := fun e => Attempt.fail (f e)) h
    (fun e s' he => ⟨_, s', rfl, hlost e he⟩) (fun e t' he => ⟨_, t', rfl, hlost e he⟩)
    (fun e s' t' he => .inr (.inr ⟨rfl, hE e s' t' he⟩)) hP

theorem within {σ' τ' : Type} [Inhabited σ] [Inhabited τ] {get : σ' → σ} {set : σ → σ' → σ'}
    {get' : τ' → τ} {set' : τ → τ' → τ'} {s : σ'} {t : τ'} {Q : α → β → σ' → τ' → Prop}
    {E : ε → σ' → τ' → Prop} (hset : ∀ a b s, set a (set b s) = set a s)
    (hset' : ∀ a b t, set' a (set' b t) = set' a t)
    (h : EndAlike lost x y (get s) (get' t) (fun a b m m' => Q a b (set m s) (set' m' t))
      fun e m m' => E e (set m s) (set' m' t)) :
    EndAlike lost (Action.within get set x) (Action.within get' set' y) s t Q E := by
  unfold EndAlike at *
  unfold Action.within
  cases hx : x (get s) <;> cases hy : y (get' t) <;> rw [hx, hy] at h <;>
    simp only [hx, hy, hset, hset'] <;> exact h

/-! ## loops -/

/-- a loop over a list, with an invariant that speaks of what is left of it -/
theorem forM {γ : Type} {f : γ → EStateM ε σ PUnit} {g : γ → EStateM ε τ PUnit}
    (I : σ → τ → Prop) (xs : List γ)
    (step : ∀ c ∈ xs, ∀ s t, I s t → EndAlike lost (f c) (g c) s t (fun _ _ => I) E)
    (h : I s t) : EndAlike lost (xs.forM f) (xs.forM g) s t (fun _ _ => I) E := by
  induction xs generalizing s t with
  | nil => exact h
  | cons c rest ih =>
    show EndAlike lost (f c >>= fun _ => rest.forM f) (g c >>= fun _ => rest.forM g) s t _ E
    refine (step c List.mem_cons_self s t h).bind fun _ _ s' t' h' => ?_
    exact ih (fun d hd => step d (List.mem_cons_of_mem c hd)) h'

theorem forSteps {f : UInt64 → EStateM ε σ Unit} {g : UInt64 → EStateM ε τ Unit}
    {start stop : UInt64} {a b : Nat} (I : σ → τ → Prop) (hstart : start.toNat = 4096 * a)
    (hstop : stop.toNat = 4096 * b)
    (step : ∀ n w s t, a ≤ n → n < b → w.toNat = 4096 * n → I s t →
      EndAlike lost (f w) (g w) s t (fun _ _ => I) E) (h : I s t) :
    EndAlike lost (PagedKernel.forSteps start stop f) (PagedKernel.forSteps start stop g) s t
      (fun _ _ => I) E := by
  rw [forSteps_eq, forSteps_eq]
  refine forM I _ (fun w hw s t hst => ?_) h
  obtain ⟨i, hi, rfl⟩ := List.mem_map.1 hw
  obtain ⟨hlt, hword⟩ := toNat_step hstart hstop (List.mem_range.1 hi)
  exact step (a + i) _ s t (Nat.le_add_right a i) hlt hword hst

theorem forPages {f : VirtualAddress → EStateM ε σ Unit} {g : VirtualAddress → EStateM ε τ Unit}
    {va stop : VirtualAddress} {b : Nat} (I : σ → τ → Prop) (hstop : stop.value.toNat = 4096 * b)
    (step : ∀ (w : VirtualAddress) s t, va.page.number.toNat ≤ w.page.number.toNat →
      w.page.number.toNat < b → I s t → EndAlike lost (f w) (g w) s t (fun _ _ => I) E)
    (h : I s t) : EndAlike lost (va.forPages stop f) (va.forPages stop g) s t (fun _ _ => I) E := by
  have hbase : va.page.base.value.toNat = 4096 * va.page.number.toNat := by
    rw [va.page.toNat_base, Nat.mul_comm]
  refine forSteps I hbase hstop (fun n w s t h₁ h₂ hw hst => ?_) h
  obtain ⟨rfl, -⟩ := page_of_aligned hw
  exact step ⟨w⟩ s t h₁ h₂ hst

end EndAlike

end

end PagedKernel
