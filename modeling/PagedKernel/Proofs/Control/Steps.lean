import PagedKernel.Kernel.Entry
import PagedKernel.Proofs.Kernel.Schedule

/-!
# What the steps of the kernel decide

Which process runs next, and with which registers, is decided by a small part of the kernel's state.
Here is said what each step does to that part, on every machine and in every state.

* `Control`                    the process table, the current process and the record of activations
* `Calm`                       a computation that leaves all of it alone
* `ProcessTable.Retains`       a table keeps its processes
* `Control.HandsOver`, `Control.Balks`   control is handed over, or is not as something is amiss
* `Control.ends_setup`, `Control.ends_fork`, `Control.ends_teardown`   the life of a process
* `Control.ends_run`, `Control.ends_schedule`   handing over control
-/

namespace PagedKernel

/-- what the kernel decides by -/
structure Control where
  config : KernelConfig
  processes : ProcessTable slotCount
  current : Pid
  /-- whom control was handed to, the latest first, with the registers and the address space -/
  activations : List (Pid × Registers × AddressSpace)

/-- the part of the kernel that decides -/
def Kernel.control (k : Kernel) : Control where
  config := k.config
  processes := k.processes
  current := k.current
  activations := k.host.calls.filterMap HostCall.activation?

namespace Control

/-- a slot changes -/
def change (c : Control) (pid : Pid) (f : Process → Process) : Control :=
  { c with processes := c.processes.update pid f }

variable {c : Control} {pid : Nat} {f g : Process → Process}

theorem change_change : (c.change pid f).change pid g = c.change pid fun p => g (f p) :=
  congrArg (fun t => { c with processes := t }) (ProcessTable.update_update f g)

theorem change_comm {q : Nat} (h : q ≠ pid) :
    (c.change pid f).change q g = (c.change q g).change pid f :=
  congrArg (fun t => { c with processes := t }) (ProcessTable.update_comm f g h)

theorem change_congr (h : ∀ p, c.processes.get? pid = some p → g p = f p) :
    c.change pid g = c.change pid f :=
  congrArg (fun t => { c with processes := t }) (ProcessTable.update_congr h)

end Control

/-! ## computations that leave control alone -/

/-- a computation that leaves control alone, however it ends -/
def Calm {ε α : Type} (x : EStateM ε Kernel α) : Prop :=
  ∀ k, Ends x k (fun _ k' => k'.control = k.control) fun _ k' => k'.control = k.control

namespace Calm

variable {ε ε' α β : Type}

theorem pure (a : α) : Calm (pure a : EStateM ε Kernel α) := fun _ => ends_pure.2 rfl

theorem get : Calm (get : EStateM ε Kernel Kernel) := fun _ => ends_get.2 rfl

theorem fail (e : ε) : Calm (Attempt.fail e : Attempt Kernel ε α) := fun _ => ends_fail.2 rfl

theorem modify {f : Kernel → Kernel} (h : ∀ k, (f k).control = k.control) :
    Calm (modify f : EStateM ε Kernel PUnit) := fun k => ends_modify.2 (h k)

theorem bind {x : EStateM ε Kernel α} {f : α → EStateM ε Kernel β} (hx : Calm x)
    (hf : ∀ a, Calm (f a)) : Calm (x >>= f) := by
  intro k
  rw [ends_bind]
  refine (hx k).mono (fun a k₁ h₁ => ?_) fun _ _ he => he
  refine (hf a k₁).mono (fun _ k' h' => h'.trans h₁) fun _ k' h' => h'.trans h₁

theorem ite {p : Prop} [Decidable p] {x y : EStateM ε Kernel α} (hx : Calm x) (hy : Calm y) :
    Calm (if p then x else y) := by
  split
  · exact hx
  · exact hy

theorem lift {x : Action Kernel α} (hx : Calm x) : Calm (liftM x : Attempt Kernel ε α) := fun k =>
  ends_lift.2 ((hx k).mono (fun _ _ h => h) fun _ _ h => h)

theorem ofExcept (x : Except Panic α) : Calm (Action.ofExcept x : Action Kernel α) := by
  intro k
  cases x <;> rfl

theorem liftExcept (x : Except Panic α) : Calm (liftM x : Attempt Kernel ε α) := by
  intro k
  cases x <;> rfl

theorem orFail (x : Option α) (e : ε) : Calm (Attempt.orFail x e : Attempt Kernel ε α) := by
  intro k
  cases x <;> rfl

theorem mapError {x : Attempt Kernel ε α} {f : ε → ε'} (hx : Calm x) : Calm (x.mapError f) := by
  intro k
  rw [ends_mapError]
  refine (hx k).mono (fun _ _ h => h) fun e _ h => ?_
  cases e <;> exact h

theorem onMachine (x : EStateM ε Machine α) : Calm (Kernel.onMachine x) := fun _ =>
  Kernel.ends_onMachine.2 (Ends.of_forall (fun _ _ => rfl) fun _ _ => rfl)

theorem inspect (question : Memory → Except Panic α) : Calm (Kernel.inspect question) := by
  intro k
  unfold Ends Kernel.inspect
  cases question k.machine.toMemory <;> rfl

theorem report (severity : Severity) (target message : String) :
    Calm (Kernel.report severity target message) := onMachine _

theorem process (pid : Pid) : Calm (Kernel.process pid) := get.bind fun _ => ofExcept _

theorem tell {call : HostCall} (h : call.activation? = none) : Calm (Kernel.tell call) :=
  modify fun k => congrArg (fun calls => { k.control with activations := calls })
    (List.filterMap_cons_none h)

theorem forSteps {act : UInt64 → EStateM ε Kernel Unit} (h : ∀ w, Calm (act w))
    (start stop : UInt64) : Calm (PagedKernel.forSteps start stop act) := by
  unfold PagedKernel.forSteps
  generalize stepCount start stop = n
  induction n generalizing start with
  | zero => exact pure ()
  | succ n ih => exact (h start).bind fun _ => ih (start + 4096)

theorem showMemory : Calm Kernel.showMemory :=
  get.bind fun _ => (ofExcept _).bind fun _ => modify fun _ => rfl

theorem pollAbort : Calm Kernel.pollAbort := by
  intro k
  show Kernel.control { k with host := k.host.pollAbort.2 } = k.control
  rw [Host.pollAbort_eq]
  rfl

theorem checkAbort : Calm Kernel.checkAbort :=
  (lift pollAbort).bind fun _ => ite ((lift (report _ _ _)).bind fun _ => fail _) (pure ())

theorem waitFor (rounds : UInt32) (left : Nat) : Calm (Kernel.waitFor rounds left) := by
  induction left generalizing rounds with
  | zero => exact fun _ => rfl
  | succ left ih =>
    refine checkAbort.bind fun _ => get.bind fun k => ?_
    have hrest : Calm (if (k.config.idleLimit.any fun limit => limit.rounds ≤ rounds + 1) = true
      then do
        Kernel.report .debug "kernel::scheduler"
          ("idle after " ++ toString (rounds + 1).toNat ++ " rounds")
        return .idle
      else Kernel.waitFor (rounds + 1) left : Attempt Kernel Halt Dispatch) :=
      ite ((lift (report _ _ _)).bind fun _ => pure _) (ih _)
    exact ite (((lift (report _ _ _)).bind fun _ => (lift showMemory).bind fun _ => hrest)) hrest

theorem checkKernelPages (pid : Pid) (space : AddressSpace) :
    Calm (Kernel.checkKernelPages pid space) := by
  have hpage : ∀ va, Calm (Kernel.checkKernelPage pid space va) := fun va =>
    (lift (inspect _)).bind fun _ => ite (pure ()) ((lift (report _ _ _)).bind fun _ => fail _)
  exact get.bind fun _ => (liftExcept _).bind fun _ =>
    (forSteps (fun w => hpage ⟨w⟩) _ _).bind fun _ => hpage _

theorem decodeTrap (r : Registers) : Calm (Kernel.decodeTrap r) :=
  get.bind fun _ => ite ((tell rfl).bind fun _ => pure _) (pure _)

theorem panicMessage (pid : Pid) (va : VirtualAddress) : Calm (Kernel.panicMessage pid va) := by
  refine ite (pure none) ((process pid).bind fun p => ?_)
  cases p.space with
  | none => exact pure none
  | some s => exact (inspect _).bind fun _ => pure _

theorem pageAlloc (pid : Pid) (va : VirtualAddress) : Calm (Kernel.pageAlloc pid va) :=
  get.bind fun _ => ite (fail _) ((orFail _ _).bind fun _ => (onMachine _).mapError)

theorem writeUser (pid : Pid) (va : VirtualAddress) (bytes : ByteArray) :
    Calm (Kernel.writeUser pid va bytes) :=
  get.bind fun _ => (orFail _ _).bind fun _ => onMachine _

/-- a calm computation is followed by another -/
theorem ends {x : EStateM ε Kernel α} {f : α → EStateM ε Kernel β} {k : Kernel}
    {Q : β → Kernel → Prop} {E : ε → Kernel → Prop} (hx : Calm x)
    (hf : ∀ a k', k'.control = k.control → Ends (f a) k' Q E)
    (he : ∀ e k', k'.control = k.control → E e k') : Ends (x >>= f) k Q E :=
  ends_bind.2 ((hx k).mono hf he)

end Calm

/-! ## the life of a process -/

/-- `t'` has the processes of `t`; it may have other registers in slots that are vacant -/
def ProcessTable.Retains {n : Nat} (t t' : ProcessTable n) : Prop :=
  ∀ q, t'.get? q = t.get? q ∨
    ∃ p r, t.get? q = some p ∧ p.isVacant = true ∧ t'.get? q = some { p with registers := r }

theorem ProcessTable.Retains.refl {n : Nat} {t : ProcessTable n} : t.Retains t := fun _ => .inl rfl

theorem ProcessTable.retains_update {n : Nat} {t : ProcessTable n} {pid : Nat} {p : Process}
    {change : Process → Process} {r : Registers} (hp : t.get? pid = some p)
    (hvacant : p.isVacant = true) (h : change p = { p with registers := r }) :
    t.Retains (t.update pid change) := by
  intro q
  by_cases hq : q = pid
  · subst hq
    exact .inr ⟨p, r, hp, hvacant, (get?_update_self change hp).trans (congrArg some h)⟩
  · exact .inl (get?_update_of_ne change hq)

theorem ProcessTable.Retains.runs {n : Nat} {t t' : ProcessTable n} {q : Nat} (h : t.Retains t')
    (hruns : t.Runs q) : t'.Runs q := by
  obtain ⟨p, hp, hrun⟩ := hruns
  rcases h q with hsame | ⟨p', r, hp', -, hslot⟩
  · exact ⟨p, hsame.trans hp, hrun⟩
  · obtain rfl := Option.some.inj (hp.symm.trans hp')
    exact ⟨_, hslot, hrun⟩

theorem ProcessTable.Retains.result {n : Nat} {t t' : ProcessTable n} {pid : Nat} {value : UInt64}
    (h : t.Retains t') :
    (t.update pid fun p => { p with registers := p.registers.result value }).Retains
      (t'.update pid fun p => { p with registers := p.registers.result value }) := by
  intro q
  rw [get?_update, get?_update]
  split
  · rcases h q with hsame | ⟨p, r, hp, hvacant, hslot⟩
    · exact .inl (congrArg (Option.map _) hsame)
    · refine .inr ⟨_, r.result value, congrArg (Option.map _) hp, hvacant, ?_⟩
      rw [hslot]
      rfl
  · exact h q

namespace Control

variable {k : Kernel} {pid parent : Nat}

theorem ends_process {Q : Process → Kernel → Prop}
    (h : ∀ p, k.processes.get? pid = some p → Q p k) :
    Ends (Kernel.process pid) k Q fun _ _ => True := by
  cases hp : k.processes.get? pid with
  | some p => exact (Kernel.ends_process hp).2 (h p hp)
  | none =>
    unfold Kernel.process ProcessTable.get
    rw [ends_bind, ends_get, hp]
    trivial

theorem ends_setProcess {Q : Unit → Kernel → Prop} {E : Panic → Kernel → Prop}
    {f : Process → Process} (h : ∀ k', k'.control = k.control.change pid f → Q () k') :
    Ends (Kernel.setProcess pid f) k Q E := h _ rfl

theorem ends_changeProcess {Q : Unit → Kernel → Prop} {f : Process → Process}
    (h : ∀ k', k'.control = k.control.change pid f → Q () k') :
    Ends (Kernel.changeProcess pid f) k Q fun _ _ => True :=
  (Calm.process pid).ends
    (fun _ _ hk' => h _ (congrArg (fun c => change c pid f) hk')) fun _ _ _ => trivial

/-- a slot is given back; if a frame is found to be counted wrongly it has lost its address space -/
theorem ends_freeProcess (pid : Pid) :
    Ends (Kernel.freeProcess pid) k
      (fun _ k' => k'.control = k.control.change pid Process.vacated)
      (Errs fun _ k' => (∃ p, k.processes.get? pid = some p ∧ p.space.isSome = true) ∧
        k'.control = k.control.change pid fun p => { p with space := none }) := by
  unfold Kernel.freeProcess
  rw [ends_bind, ends_lift]
  refine ends_process fun p hp => ?_
  cases hspace : p.space with
  | none =>
    rw [ends_lift]
    refine ends_setProcess fun k₁ h₁ => h₁.trans (change_congr fun p' hp' => ?_)
    obtain rfl := Option.some.inj (hp.symm.trans hp')
    rw [Process.vacated, ← hspace]
  | some s =>
    dsimp only
    rw [ends_bind, ends_lift]
    refine ends_setProcess fun k₁ h₁ => ?_
    rw [ends_bind, ends_get]
    refine (Calm.onMachine _).ends (fun _ k₂ h₂ => ?_) fun e k₂ h₂ => ?_
    · rw [ends_lift]
      refine ends_setProcess fun k₃ h₃ => ?_
      rw [h₃, h₂, h₁, change_change]
      rfl
    · cases e with
      | panic e => trivial
      | error e => exact ⟨⟨p, hp, by rw [hspace]; rfl⟩, h₂.trans h₁⟩

/-- a new address space is filled for a slot, or the slot is given back -/
theorem ends_fillSpace {ε : Type} (pid : Pid) (space : AddressSpace) (ofFrame : FrameError → ε)
    (fillIn : Layout → Attempt Machine ε Unit) :
    Ends (Kernel.fillSpace pid space ofFrame fillIn) k
      (fun _ k' => k'.control = k.control.change pid fun p => { p with space := some space })
      (Errs fun _ k' => k'.control = k.control.change pid Process.vacated ∨
        k'.control = k.control.change pid fun p => { p with space := none }) := by
  unfold Kernel.fillSpace
  rw [ends_bind, ends_lift]
  refine ends_changeProcess fun k₁ h₁ => ?_
  rw [ends_bind, ends_get, ends_onError]
  refine ((Calm.onMachine _) k₁).mono (fun _ k₂ h₂ => h₂.trans h₁) fun e k₂ h₂ => ?_
  cases e with
  | panic e => trivial
  | error e =>
    have hk₂ := h₂.trans h₁
    show Ends ((Kernel.freeProcess pid).mapError ofFrame >>= fun _ => Attempt.fail e) k₂ _ _
    rw [ends_bind]
    refine ((ends_freeProcess pid).mapErrs (F := fun _ k' =>
      k'.control = k.control.change pid fun p => { p with space := none })
      fun _ k₃ h₃ => ?_).mono (fun _ k₃ h₃ => ends_fail.2 (.inl ?_)) (Errs.mono fun _ _ => .inr)
    · rw [h₃.2, hk₂, change_change]
    · rw [h₃, hk₂, change_change]
      rfl

/-- all processes are kept, and nothing else has changed -/
def Retained (c c' : Control) : Prop :=
  ∃ t, c.processes.Retains t ∧ c' = { c with processes := t }

theorem Retained.of_eq {c c' : Control} (h : c' = c) : Retained c c' := ⟨c.processes, .refl, h⟩

/-- a vacant slot is given back as it was -/
theorem retained_of_fillSpace {k' : Kernel} {p : Process} (hp : k.processes.get? pid = some p)
    (hvacant : p.isVacant = true) (h : k'.control = k.control.change pid Process.vacated ∨
      k'.control = k.control.change pid fun p => { p with space := none }) :
    Retained k.control k'.control := by
  obtain ⟨hfree, hnone⟩ := Process.isVacant_iff.1 hvacant
  rcases h with h | h
  · refine ⟨_, ProcessTable.retains_update (r := {}) hp hvacant ?_, h⟩
    rw [Process.vacated, ← hfree, ← hnone]
  · refine ⟨_, ProcessTable.retains_update (r := p.registers) hp hvacant ?_, h⟩
    rw [← hnone]

/-- a program is loaded into a vacant slot, or all processes are kept as they were -/
theorem ends_setup (pid : Pid) (image : ProgramImage) :
    Ends (Kernel.setup pid image) k
      (fun _ k' => pid ≠ 0 ∧ (∃ p, k.processes.get? pid = some p ∧ p.isVacant = true) ∧
        ∃ s, k'.control = k.control.change pid fun p =>
          { p with
            space := some s
            state := .runnable
            registers := Registers.entry image.entry.value k.layout.virtualSize })
      (Errs fun _ k' => Retained k.control k'.control) := by
  unfold Kernel.setup
  rw [ends_bind, ends_get]
  dsimp only
  refine ends_ite.2 ⟨fun _ => ends_fail.2 (.of_eq rfl), fun hzero => ?_⟩
  rw [ends_bind]
  cases hp : k.processes.get? pid with
  | none => exact ends_orFail_none.2 (.of_eq rfl)
  | some p =>
    rw [ends_orFail_some]
    refine ends_ite.2 ⟨fun _ => ends_fail.2 (.of_eq rfl), fun hvacant => ?_⟩
    rw [Bool.not_eq_true', Bool.not_eq_false] at hvacant
    refine (Calm.onMachine _).ends (fun space? k₁ h₁ => ?_) fun e k₁ h₁ => ?_
    · rw [ends_bind]
      cases space? with
      | none => exact ends_orFail_none.2 (.of_eq h₁)
      | some space =>
        have hslot : k₁.processes.get? pid = some p :=
          (congrArg (fun c => c.processes.get? pid) h₁).trans hp
        rw [ends_orFail_some, ends_bind]
        refine (ends_fillSpace pid space _ _).mono (fun _ k₂ h₂ => ?_)
          (Errs.mono fun _ k₂ h₂ => ?_)
        · have hlayout : k₂.layout = k.layout :=
            congrArg (fun c => c.config.layout) (h₂.trans (congrArg (change · pid _) h₁))
          rw [ends_bind, ends_get, ends_bind, ends_lift]
          refine ends_setProcess fun k₃ h₃ => ?_
          rw [ends_lift]
          refine (Calm.report _ _ _ _).mono (fun _ k₄ h₄ => ?_) fun _ _ _ => trivial
          refine ⟨hzero, ⟨p, rfl, hvacant⟩, space, ?_⟩
          rw [h₄, h₃, h₂, h₁, change_change, hlayout]
        · rw [← h₁]
          exact retained_of_fillSpace hslot hvacant h₂
    · cases e with
      | panic e => trivial
      | error e => exact .of_eq h₁

/-- a process is duplicated into the first vacant slot, or all processes are kept as they were -/
theorem ends_fork (parent : Pid)
    (hnumbered : ∀ pid p, k.processes.get? pid = some p → p.pid = pid) :
    Ends (Kernel.fork parent) k
      (fun child k' => k.processes.firstFree? = some child ∧
        ∃ p s, k.processes.get? parent = some p ∧ p.space.isSome = true ∧
          k'.control = (k.control.change child fun c =>
            { c with
              space := some s
              state := .runnable
              registers := p.registers.result 0 }).change parent fun p =>
                { p with registers := p.registers.result (UInt64.ofNat child) })
      (Errs fun _ k' => Retained k.control k'.control) := by
  unfold Kernel.fork
  rw [ends_bind, ends_get]
  dsimp only
  rw [ends_bind]
  cases hs : k.processes.space? parent with
  | none => exact ends_orFail_none.2 (.of_eq rfl)
  | some source =>
    rw [ends_orFail_some, ends_bind]
    cases hfree : k.processes.firstFree? with
    | none => exact ends_orFail_none.2 (.of_eq rfl)
    | some child =>
      obtain ⟨p, hp, hvacant, -⟩ := ProcessTable.firstFree?_some hnumbered hfree
      obtain ⟨p₀, hp₀, hspace₀⟩ := ProcessTable.get?_of_space? hs
      have hne : parent ≠ child := by
        rintro rfl
        obtain rfl := Option.some.inj (hp.symm.trans hp₀)
        cases (Process.isVacant_iff.1 hvacant).2.symm.trans hspace₀
      rw [ends_orFail_some]
      refine (Calm.onMachine _).ends (fun space? k₁ h₁ => ?_) fun e k₁ h₁ => ?_
      · rw [ends_bind]
        cases space? with
        | none => exact ends_orFail_none.2 (.of_eq h₁)
        | some target =>
          have hprocesses : k₁.processes = k.processes := congrArg Control.processes h₁
          rw [ends_orFail_some, ends_bind]
          refine (ends_fillSpace child target _ _).mono (fun _ k₂ h₂ => ?_)
            (Errs.mono fun _ k₂ h₂ => ?_)
          · rw [h₁] at h₂
            have hparent : k₂.processes.get? parent = some p₀ := by
              have hslots := congrArg (fun c => c.processes.get? parent) h₂
              exact hslots.trans ((ProcessTable.get?_update_of_ne _ hne).trans hp₀)
            rw [ends_bind, ends_lift]
            refine ends_process fun p₁ hp₁ => ?_
            obtain rfl := Option.some.inj (hparent.symm.trans hp₁)
            rw [ends_bind, ends_lift]
            refine ends_changeProcess fun k₃ h₃ => ?_
            rw [ends_bind, ends_lift]
            refine ends_changeProcess fun k₄ h₄ => ?_
            rw [ends_bind, ends_lift]
            refine (Calm.report _ _ _ _).mono (fun _ k₅ h₅ => ends_pure.2 ?_) fun _ _ _ => trivial
            refine ⟨rfl, p₀, target, hp₀, by rw [hspace₀]; rfl, ?_⟩
            rw [h₅, h₄, h₃, h₂, change_change]
          · rw [← h₁]
            exact retained_of_fillSpace (hprocesses ▸ hp) hvacant h₂
      · cases e with
        | panic e => trivial
        | error e => exact .of_eq h₁

/-- a slot is given back; if a frame is found to be counted wrongly it has lost its address space -/
theorem ends_teardown (pid : Pid) :
    Ends (Kernel.teardown pid) k
      (fun _ k' => pid ≠ 0 ∧ k'.control = k.control.change pid Process.vacated)
      (Errs fun e k' => (pid = 0 ∨ slotCount ≤ pid) ∧ k'.control = k.control ∨
        (∃ fe, e = .frame fe) ∧ (∃ p, k.processes.get? pid = some p ∧ p.space.isSome = true) ∧
          k'.control = k.control.change pid fun p => { p with space := none }) := by
  unfold Kernel.teardown
  dsimp only
  refine ends_ite.2 ⟨fun hout => ends_fail.2 (.inl ⟨hout, rfl⟩), fun hin => ?_⟩
  rw [ends_bind]
  refine ((ends_freeProcess pid).mapErrs (F := fun e k' =>
    (pid = 0 ∨ slotCount ≤ pid) ∧ k'.control = k.control ∨
    (∃ fe, e = .frame fe) ∧ (∃ p, k.processes.get? pid = some p ∧ p.space.isSome = true) ∧
      k'.control = k.control.change pid fun p => { p with space := none })
    fun fe k₁ h₁ => .inr ⟨⟨fe, rfl⟩, h₁⟩).mono (fun _ k₁ h₁ => ?_) fun _ _ h => h
  rw [ends_bind, ends_get, ends_lift]
  refine (Calm.report _ _ _ _).mono (fun _ k₂ h₂ => ?_) fun _ _ _ => trivial
  exact ⟨fun hzero => hin (.inl hzero), h₂.trans h₁⟩

/-! ## handing over control -/

/-- control is handed over to a process that can run, with its registers and its address space; or
nobody can run, and nothing changes -/
def HandsOver (c : Control) (d : Dispatch) (c' : Control) : Prop :=
  match d with
  | .run pid => ∃ p s, c.processes.get? pid = some p ∧ p.isRunnable = true ∧ p.space = some s ∧
      c' = { c with current := pid, activations := (pid, p.registers, s) :: c.activations }
  | .idle => c' = c ∧ ∀ pid, ¬ c.processes.Runs pid

/-- control is not handed over; another process may have become the current one -/
def Balks (c c' : Control) : Prop :=
  c' = c ∨ ∃ pid < slotCount, c' = { c with current := pid }

theorem ends_run (pid : Pid) :
    Ends (Kernel.run pid) k (fun d k' => d = .run pid ∧ HandsOver k.control d k'.control)
      (Errs fun _ k' => Balks k.control k'.control ∧
        (k'.current = k.current ∨ k'.current = pid)) := by
  unfold Kernel.run
  rw [ends_bind, ends_get]
  dsimp only
  rw [ends_bind]
  cases hspace : ((k.processes.get? pid).filter Process.isRunnable).bind Process.space with
  | none => exact ends_orFail_none.2 ⟨.inl rfl, .inl rfl⟩
  | some s =>
    obtain ⟨p, hfilter, hs⟩ := Option.bind_eq_some_iff.1 hspace
    obtain ⟨hp, hrun⟩ := Option.filter_eq_some_iff.1 hfilter
    rw [ends_orFail_some, ends_bind, ends_modify]
    refine (Calm.checkKernelPages pid s).ends (fun _ k₁ h₁ => ?_) fun e k₁ h₁ => ?_
    · rw [ends_bind, ends_lift]
      refine ends_process fun p₁ hp₁ => ?_
      obtain rfl := Option.some.inj (hp.symm.trans
        ((congrArg (fun c => c.processes.get? pid) h₁).symm.trans hp₁))
      rw [ends_bind, ends_lift, Kernel.ends_tell]
      refine ends_pure.2 ⟨rfl, p, s, hp, hrun, hs, ?_⟩
      exact congrArg (fun c => { c with activations := (pid, p.registers, s) :: c.activations }) h₁
    · cases e with
      | panic e => trivial
      | error e =>
        exact ⟨.inr ⟨pid, ProcessTable.lt_of_get? hp, h₁⟩, .inr (congrArg Control.current h₁)⟩

theorem ends_waitFor_idle (rounds : UInt32) (left : Nat) :
    Ends (Kernel.waitFor rounds left) k (fun d _ => d = .idle) fun _ _ => True := by
  induction left generalizing k rounds with
  | zero => trivial
  | succ left ih =>
    rw [Kernel.waitFor]
    refine Calm.checkAbort.ends (fun _ k₁ _ => ?_) fun _ _ _ => trivial
    refine Calm.get.ends (fun config k₂ _ => ?_) fun _ _ _ => trivial
    have hrest : ∀ k₃ : Kernel, Ends
        (if (config.config.idleLimit.any fun limit => limit.rounds ≤ rounds + 1) = true then do
          Kernel.report .debug "kernel::scheduler"
            ("idle after " ++ toString (rounds + 1).toNat ++ " rounds")
          return .idle
        else Kernel.waitFor (rounds + 1) left : Attempt Kernel Halt Dispatch) k₃
        (fun d _ => d = .idle) fun _ _ => True := by
      intro k₃
      refine ends_ite.2 ⟨fun _ => ?_, fun _ => ih _⟩
      exact (Calm.lift (Calm.report _ _ _)).ends (fun _ _ _ => ends_pure.2 rfl) fun _ _ _ => trivial
    refine ends_ite.2 ⟨fun _ => ?_, fun _ => hrest k₂⟩
    refine (Calm.lift (Calm.report _ _ _)).ends (fun _ k₃ _ => ?_) fun _ _ _ => trivial
    exact (Calm.lift Calm.showMemory).ends (fun _ k₄ _ => hrest k₄) fun _ _ _ => trivial

theorem ends_schedule (hcurrent : k.current < slotCount) :
    Ends Kernel.schedule k
      (fun d k' => HandsOver k.control d k'.control ∧
        ∀ pid, d = .run pid → nextRunnable k.processes k.current = .ok (some pid))
      (Errs fun _ k' => Balks k.control k'.control) := by
  rcases Kernel.schedule_cases hcurrent with ⟨pid, -, heq, hrun⟩ | ⟨hnone, hwait⟩
  · rw [ends_congr hrun]
    refine (ends_run pid).mono (fun d k' hk' => ⟨hk'.2, fun pid' hd => ?_⟩)
      (Errs.mono fun _ _ he => he.1)
    obtain rfl := Dispatch.run.inj (hk'.1.symm.trans hd)
    exact heq
  · rw [ends_congr hwait]
    have hidle : Ends (Kernel.waitFor 0 k.idlePolls) k (fun d _ => d = .idle) fun _ _ => True :=
      ends_waitFor_idle _ _
    refine ((Calm.waitFor _ _ k).and hidle).mono (fun d k' hk' => ?_) fun e k' he => ?_
    · obtain ⟨hk', rfl⟩ := hk'
      exact ⟨⟨hk', hnone⟩, nofun⟩
    · cases e with
      | panic e => trivial
      | error e => exact .inl he.1

theorem ends_resume_self (hruns : k.processes.Runs k.current) :
    Ends Kernel.resume k
      (fun d k' => HandsOver k.control d k'.control ∧ k'.current = k.current)
      (Errs fun _ k' => Balks k.control k'.control ∧ k'.current = k.current) := by
  have hresume := (Kernel.resume_cases hruns.lt).resolve_right fun hnot => hnot.1 hruns
  rw [ends_congr hresume.2]
  refine (ends_run k.current).mono (fun d k' hk' => ?_) (Errs.mono fun _ k' he => ?_)
  · obtain ⟨rfl, hover⟩ := hk'
    refine ⟨hover, ?_⟩
    obtain ⟨p', s, -, -, -, hk'⟩ := hover
    exact congrArg Control.current hk'
  · exact ⟨he.1, he.2.elim id id⟩

theorem ends_resume_next (hcurrent : k.current < slotCount)
    (hruns : ¬ k.processes.Runs k.current) :
    Ends Kernel.resume k
      (fun d k' => HandsOver k.control d k'.control ∧
        ∀ pid, d = .run pid → nextRunnable k.processes k.current = .ok (some pid))
      (Errs fun _ k' => Balks k.control k'.control) := by
  have hresume := (Kernel.resume_cases hcurrent).resolve_left fun hrun => hruns hrun.1
  exact (ends_congr hresume.2).2 (ends_schedule hcurrent)

end Control

end PagedKernel
