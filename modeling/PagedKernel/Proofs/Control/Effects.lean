import PagedKernel.Proofs.Control.Calls

/-!
# What an operation does to the processes

* `Turned.of_setup`, `Turned.of_fork`, `Turned.of_teardown`   requests
* `Fills`                      programs are loaded one after another
* `Operation.exists_effect`    every operation is made of turns, and of handing over control
-/

namespace PagedKernel

variable {k : Kernel} {op : Operation} {pid q : Nat} {r : Registers} {t : ProcessTable slotCount}

/-! ## requests -/

theorem effect_of_turned {ε α : Type} {x : Attempt Kernel ε α}
    (h : Ends x k (fun _ k' => Turned k op k') (Errs fun _ k' => Turned k op k'))
    (hgo : Outcome.of (fun _ => .succeeded) (x k) ≠ .panicked) :
    Effect k op (.of (fun _ => .succeeded) (x k)) (PagedKernel.leave x k).control :=
  Ends.outcome (P := fun o k' => Effect k op o k'.control)
    (h.mono (fun _ _ h => h.ended (.inl rfl)) (Errs.mono fun _ _ h => h.ended (.inr rfl))) hgo

theorem effect_of_dispatched {x : Attempt Kernel Halt Dispatch}
    (h : Ends x k (Dispatched k op) (Failed k op))
    (hgo : Outcome.of .dispatched (x k) ≠ .panicked) :
    Effect k op (.of .dispatched (x k)) (PagedKernel.leave x k).control :=
  Ends.outcome (P := fun o k' => Effect k op o k'.control) h hgo

theorem Calm.turned {ε α : Type} {x : Attempt Kernel ε α} (h : Calm x) (hc : op.contexts k = []) :
    Ends x k (fun _ k' => Turned k op k') (Errs fun _ k' => Turned k op k') :=
  (h k).mono (fun _ _ h => .of_eq hc h) fun e _ h => by
    cases e with
    | panic e => trivial
    | error e => exact .of_eq hc h

theorem Turned.of_setup (pid : Pid) (image : ProgramImage) :
    Ends (Kernel.setup pid image) k (fun _ k' => Turned k (.setup pid image) k')
      (Errs fun _ k' => Turned k (.setup pid image) k') := by
  refine (Control.ends_setup pid image).mono_eq (fun _ k' heq h => ?_) fun e k' heq h => ?_
  · obtain ⟨hzero, ⟨p, hp, hvacant⟩, s, hk'⟩ := h
    have hc : (Operation.setup pid image).contexts k
        = [(pid, some (Registers.entry image.entry.value k.layout.virtualSize))] := by
      rw [Operation.contexts, Kernel.setupContexts, heq]
    refine ⟨_, .of_update (fun q hq => ?_) fun p' hp' => ?_, hk'⟩
    · rw [hc]
      exact lookup_of_ne hq
    · obtain rfl := Option.some.inj (hp.symm.trans hp')
      refine .loaded p s _ hzero hvacant ⟨rfl, ?_⟩ ?_
      · rw [Operation.outcome, heq]
        rfl
      · rw [hc]
        exact lookup_self
  · have hc : (Operation.setup pid image).contexts k = [] := by
      rw [Operation.contexts, Kernel.setupContexts, heq]
    cases e with
    | panic e => trivial
    | error e =>
      obtain ⟨t, ht, hk'⟩ := h
      exact ⟨t, .of_retains hc ht, hk'⟩

theorem Turned.of_fork (ho : Orderly k.control) (parent : Pid) :
    Ends (Kernel.fork parent) k (fun _ k' => Turned k (.fork parent) k')
      (Errs fun _ k' => Turned k (.fork parent) k') := by
  refine (Control.ends_fork parent ho.numbered).mono_eq (fun child k' heq h => ?_)
    fun e k' heq h => ?_
  · obtain ⟨hfree, p, s, hp, hspace, hk'⟩ := h
    have hlowest : k.processes.IsLowestFree child := ho.isLowestFree hfree
    have hc : (Operation.fork parent).contexts k
        = Kernel.forkContexts parent child p.registers := by
      rw [Operation.contexts, hp, heq]
    have hloads : (Operation.fork parent).Loads k child := by
      refine ⟨hlowest, ?_⟩
      rw [Operation.outcome, heq]
      rfl
    refine turned_of_fork ho hp hspace hlowest hloads hc
      (hk'.trans (Control.change_congr fun p' hp' => ?_))
    have hne := ho.ne_of_space hlowest hp hspace
    obtain rfl := Option.some.inj
      (hp.symm.trans ((ProcessTable.get?_update_of_ne _ hne.symm).symm.trans hp'))
    rfl
  · have hc : (Operation.fork parent).contexts k = [] := by
      rw [Operation.contexts, heq]
      cases k.processes.get? parent <;> rfl
    cases e with
    | panic e => trivial
    | error e =>
      obtain ⟨t, ht, hk'⟩ := h
      exact ⟨t, .of_retains hc ht, hk'⟩

theorem Turned.of_teardown (pid : Pid) :
    Ends (Kernel.teardown pid) k (fun _ k' => Turned k (.teardown pid) k')
      (Errs fun _ k' => Turned k (.teardown pid) k') := by
  refine (Control.ends_teardown pid).mono_eq (fun _ k' heq h => ?_) fun e k' heq h => ?_
  · have hc : (Operation.teardown pid).contexts k = [(pid, none)] := by
      rw [Operation.contexts, heq]
    exact turned_of_vacated h.1 rfl hc h.2
  · have hc : (Operation.teardown pid).contexts k = [] := by
      rw [Operation.contexts, heq]
    cases e with
    | panic e => trivial
    | error e =>
      rcases h with ⟨-, h⟩ | ⟨⟨fe, rfl⟩, ⟨p, hp, hspace⟩, h⟩
      · exact .of_eq hc h
      · refine ⟨_, .of_update (fun q _ => by rw [hc]; rfl) fun p' hp' => ?_, h⟩
        obtain rfl := Option.some.inj (hp.symm.trans hp')
        exact .stranded p p.registers ⟨rfl, fe, k', heq⟩ hspace

/-! ## programs -/

/-- what loading programs one after another does to a slot: it is kept, or was vacant, and a program
may be loaded into it -/
inductive Filled (contexts : List (Pid × Option Registers)) (q : Pid) : Process → Process → Prop
  | untouched (p) (hc : contexts.lookup q = none) : Filled contexts q p p
  | vacant (p r) (hp : p.isVacant = true) : Filled contexts q p { p with registers := r }
  | loaded (p s r) (hq : q ≠ 0) (hp : p.isVacant = true)
      (hc : contexts.lookup q = some (some r)) :
      Filled contexts q p { p with space := some s, state := .runnable, registers := r }

/-- programs were loaded into `t`, which has become `t'` -/
def Fills (contexts : List (Pid × Option Registers)) (t t' : ProcessTable slotCount) : Prop :=
  ∀ q p, t.get? q = some p → ∃ p', t'.get? q = some p' ∧ Filled contexts q p p'

theorem Fills.of_retains (h : k.processes.Retains t) : Fills [] k.processes t := by
  intro q p hp
  rcases h q with hsame | ⟨p', r, hp', hvacant, hslot⟩
  · exact ⟨p, hsame.trans hp, .untouched p rfl⟩
  · obtain rfl := Option.some.inj (hp.symm.trans hp')
    exact ⟨_, hslot, .vacant p r hvacant⟩

theorem Fills.cons {contexts : List (Pid × Option Registers)} {t t' : ProcessTable slotCount}
    {s : AddressSpace} {p : Process} (hzero : pid ≠ 0) (hp : t.get? pid = some p)
    (hvacant : p.isVacant = true)
    (h : Fills contexts (t.update pid fun p =>
      { p with space := some s, state := .runnable, registers := r }) t') :
    Fills ((pid, some r) :: contexts) t t' := by
  intro q p₁ hp₁
  by_cases hq : q = pid
  · subst hq
    obtain rfl := Option.some.inj (hp.symm.trans hp₁)
    have hlookup : List.lookup q ((q, some r) :: contexts) = some (some r) := by
      rw [List.lookup_cons, beq_self_eq_true]
    obtain ⟨p', hp', hfilled⟩ := h q _ (ProcessTable.get?_update_self _ hp)
    refine ⟨p', hp', ?_⟩
    -- the slot is not vacant any more
    cases hfilled with
    | untouched hc => exact .loaded p s r hzero hvacant hlookup
    | vacant r' hv => cases hv
    | loaded s' r' hq hv hc => cases hv
  · have hlookup : List.lookup q ((pid, some r) :: contexts) = contexts.lookup q := by
      rw [List.lookup_cons, beq_eq_false_iff_ne.2 hq]
    obtain ⟨p', hp', hfilled⟩ := h q p₁ ((ProcessTable.get?_update_of_ne _ hq).trans hp₁)
    refine ⟨p', hp', ?_⟩
    cases hfilled with
    | untouched hc => exact .untouched p₁ (hlookup.trans hc)
    | vacant r' hv => exact .vacant p₁ r' hv
    | loaded s' r' hq hv hc => exact .loaded p₁ s' r' hq hv (hlookup.trans hc)

theorem setupAllContexts_cons {image : ProgramImage} {later : List ProgramImage} {k₁ : Kernel}
    (h : Kernel.setup pid image k = .ok () k₁) :
    Kernel.setupAllContexts pid (image :: later) k
      = (pid, some (Registers.entry image.entry.value k.layout.virtualSize))
        :: Kernel.setupAllContexts (pid + 1) later k₁ := by
  rw [Kernel.setupAllContexts, Kernel.setupContexts, h]
  rfl

theorem setupAllContexts_error {image : ProgramImage} {later : List ProgramImage} {k₁ : Kernel}
    {e : Stop SetupError} (h : Kernel.setup pid image k = .error e k₁) :
    Kernel.setupAllContexts pid (image :: later) k = [] := by
  rw [Kernel.setupAllContexts, Kernel.setupContexts, h]
  rfl

theorem bounds_of_lookup {images : List ProgramImage} {x : Option Registers}
    (h : (Kernel.setupAllContexts pid images k).lookup q = some x) :
    pid ≤ q ∧ q < pid + images.length := by
  induction images generalizing pid k with
  | nil => cases h
  | cons image later ih =>
    rw [List.length_cons]
    cases hsetup : Kernel.setup pid image k with
    | ok a k₁ =>
      rw [setupAllContexts_cons hsetup, List.lookup_cons] at h
      by_cases hq : q = pid
      · omega
      · rw [beq_eq_false_iff_ne.2 hq] at h
        have hbounds := ih h
        omega
    | error e k₁ =>
      rw [setupAllContexts_error hsetup] at h
      cases h

/-- programs are loaded one after another, until one cannot be -/
theorem ends_setupAll (pid : Pid) (images : List ProgramImage) (k : Kernel) :
    Ends (Kernel.setupAll pid images) k
      (fun _ k' => ∃ t, Fills (Kernel.setupAllContexts pid images k) k.processes t ∧
        k'.control = { k.control with processes := t })
      (Errs fun _ k' => ∃ t, Fills (Kernel.setupAllContexts pid images k) k.processes t ∧
        k'.control = { k.control with processes := t }) := by
  induction images generalizing pid k with
  | nil => exact ends_pure.2 ⟨_, .of_retains .refl, rfl⟩
  | cons image later ih =>
    rw [Kernel.setupAll, ends_bind, ends_onError]
    refine (Control.ends_setup pid image).mono_eq (fun _ k₁ heq h₁ => ?_) fun e k₁ heq h₁ => ?_
    · obtain ⟨hzero, ⟨p, hp, hvacant⟩, s, hk₁⟩ := h₁
      have hrest : ∀ k' : Kernel,
          (∃ t, Fills (Kernel.setupAllContexts (pid + 1) later k₁) k₁.processes t ∧
            k'.control = { k₁.control with processes := t }) →
          ∃ t, Fills (Kernel.setupAllContexts pid (image :: later) k) k.processes t ∧
            k'.control = { k.control with processes := t } := by
        rintro k' ⟨t, ht, hk'⟩
        rw [show k₁.processes = _ from congrArg Control.processes hk₁] at ht
        rw [setupAllContexts_cons heq]
        exact ⟨t, .cons hzero hp hvacant ht,
          hk'.trans (congrArg (fun c => { c with processes := t }) hk₁)⟩
      exact (ih (pid + 1) k₁).mono (fun _ k' h => hrest k' h) (Errs.mono fun _ k' h => hrest k' h)
    · cases e with
      | panic e => trivial
      | error e =>
        obtain ⟨t, ht, hk₁⟩ := h₁
        rw [setupAllContexts_error heq]
        have hkept : ∀ k' : Kernel, k'.control = k₁.control → ∃ t, Fills [] k.processes t ∧
            k'.control = { k.control with processes := t } := fun k' h =>
          ⟨t, .of_retains ht, h.trans hk₁⟩
        show Ends (liftM (Kernel.report _ _ _) >>= fun _ => Attempt.fail _) k₁ _ _
        refine (Calm.lift (Calm.report _ _ _)).ends (fun _ k₂ h₂ => ends_fail.2 (hkept k₂ h₂))
          fun e k₂ h₂ => ?_
        cases e with
        | panic e => trivial
        | error e => exact hkept k₂ h₂

/-- programs are loaded, and the first of them runs -/
theorem Control.ends_boot (registry : ProgramRegistry) (command : Option String) :
    Ends (Kernel.boot registry command) k (Dispatched k (.boot registry command))
      (Failed k (.boot registry command)) := by
  unfold Kernel.boot
  rw [ends_bind]
  cases hchosen : Kernel.chosen registry command with
  | error e =>
    have hc : (Operation.boot registry command).contexts k = [] := by
      rw [Operation.contexts, hchosen]
    exact ends_ofResult_error.2 ((Turned.of_eq hc rfl).failed _)
  | ok images =>
    rw [ends_ofResult_ok]
    refine ends_ite.2 ⟨fun hmany => ?_, fun hfew => ?_⟩
    · have hc : (Operation.boot registry command).contexts k = [] := by
        rw [Operation.contexts, hchosen]
        exact if_pos hmany
      exact ends_fail.2 ((Turned.of_eq hc rfl).failed _)
    · have hc : (Operation.boot registry command).contexts k
          = Kernel.setupAllContexts 1 images k := by
        rw [Operation.contexts, hchosen]
        exact if_neg hfew
      have hturned : ∀ k' : Kernel, (∃ t,
          Fills (Kernel.setupAllContexts 1 images k) k.processes t ∧
            k'.control = { k.control with processes := t }) →
          Turned k (.boot registry command) k' := by
        rintro k' ⟨t, ht, hk'⟩
        refine ⟨t, fun q p hp => ?_, hk'⟩
        obtain ⟨p', hp', hfilled⟩ := ht q p hp
        refine ⟨p', hp', ?_⟩
        cases hfilled with
        | untouched hlookup => exact .untouched p (hc ▸ hlookup)
        | vacant r hv => exact .vacant p r hv
        | loaded s r hq hv hlookup =>
          obtain ⟨hfirst, hlast⟩ := bounds_of_lookup hlookup
          rw [Nat.add_comm] at hlast
          exact .loaded p s r hq hv ⟨images, hchosen, hfirst, Nat.le_of_lt_succ hlast⟩
            (hc ▸ hlookup)
      rw [ends_bind]
      refine (ends_setupAll 1 images k).mono (fun _ k₁ h₁ => ?_) fun e k₁ h₁ => ?_
      · refine (hturned k₁ h₁).ends ((Control.ends_run 1).mono (fun _ _ h => ?_)
          (Errs.mono fun _ _ h => ?_))
        · exact ⟨h.2, False.elim, fun _ hnot => absurd trivial hnot⟩
        · exact ⟨h.1, False.elim, fun _ hnot => absurd trivial hnot⟩
      · cases e with
        | panic e => trivial
        | error e => exact (hturned k₁ h₁).failed _

/-! ## all operations -/

theorem Operation.exists_effect (op : Operation) (ho : Orderly k.control) (hdue : op.Delivered k)
    (hgo : op.Completes k) : Effect k op (op.outcome k) (op.perform k).control := by
  cases op with
  | setup pid image => exact effect_of_turned (Turned.of_setup pid image) hgo
  | boot registry command => exact effect_of_dispatched (Control.ends_boot registry command) hgo
  | run pid =>
    have hturned : Turned k (.run pid) k := .of_eq rfl rfl
    refine effect_of_dispatched (hturned.ends ((Control.ends_run pid).mono (fun _ _ h => ?_)
      (Errs.mono fun _ _ h => ?_))) hgo
    · exact ⟨h.2, False.elim, fun _ hnot => absurd trivial hnot⟩
    · exact ⟨h.1, False.elim, fun _ hnot => absurd trivial hnot⟩
  | schedule =>
    have hturned : Turned k .schedule k := .of_eq rfl rfl
    exact effect_of_dispatched (hturned.ends_schedule ho trivial) hgo
  | syscall r => exact effect_of_dispatched (Control.ends_syscall ho hdue r) hgo
  | exception r => exact effect_of_dispatched (Control.ends_exception ho r) hgo
  | fork parent => exact effect_of_turned (Turned.of_fork ho parent) hgo
  | pageAlloc pid va => exact effect_of_turned ((Calm.pageAlloc pid va).turned rfl) hgo
  | teardown pid => exact effect_of_turned (Turned.of_teardown pid) hgo
  | writeUser pid va bytes => exact effect_of_turned ((Calm.writeUser pid va bytes).turned rfl) hgo
  | readUser pid va length =>
    have hturned : Turned k (.readUser pid va length) k := .of_eq rfl rfl
    unfold Completes at hgo
    rw [outcome] at hgo ⊢
    split at hgo
    · exact hturned.ended (.inl rfl)
    · exact absurd rfl hgo

/-- the turns of an operation, how it ends, and which process is the current one then -/
theorem Operation.effect (op : Operation) (ho : Orderly k.control) (hdue : op.Delivered k)
    (hgo : op.Completes k) :
    Evolves k op (op.perform k).processes ∧
      Ended { k.control with processes := (op.perform k).processes } (op.outcome k)
        (op.perform k).control ∧
      Moves op { k.control with processes := (op.perform k).processes } (op.outcome k)
        (op.perform k).control := by
  obtain ⟨t, hevolves, hended, hmoves⟩ := op.exists_effect ho hdue hgo
  have ht : (op.perform k).processes = t := hended.processes hgo
  rw [ht]
  exact ⟨hevolves, hended, hmoves⟩

end PagedKernel
