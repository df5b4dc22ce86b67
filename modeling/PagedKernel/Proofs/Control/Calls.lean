import PagedKernel.Proofs.Control.Operations

/-!
# What an entry decides

* `Turned`                     all turns of an operation are done
* `Gave`                       a process got other registers, and all others are kept
* `Control.ends_syscall`       a system call has the effect that is said of it
* `Control.ends_exception`     so has an interrupt
-/

namespace PagedKernel

variable {k k' k₁ : Kernel} {op : Operation} {pid q : Nat} {r : Registers}

/-! ## how an operation goes on after its turns -/

/-- all turns of an operation are done -/
def Turned (k : Kernel) (op : Operation) (k' : Kernel) : Prop :=
  ∃ t, Evolves k op t ∧ k'.control = { k.control with processes := t }

/-- control was handed over after the turns of an operation -/
def Dispatched (k : Kernel) (op : Operation) (d : Dispatch) (k' : Kernel) : Prop :=
  Effect k op (.dispatched d) k'.control

/-- an operation had its turns, and failed -/
def Failed (k : Kernel) (op : Operation) : Stop Halt → Kernel → Prop :=
  Errs fun _ k' => Effect k op .failed k'.control

namespace Turned

theorem of_eq (hc : op.contexts k = []) (h : k'.control = k.control) : Turned k op k' :=
  ⟨_, .refl hc, h⟩

theorem current (h : Turned k op k') : k'.current = k.current := by
  obtain ⟨t, -, hk'⟩ := h
  exact congrArg Control.current hk'

theorem congr {k'' : Kernel} (h : Turned k op k') (heq : k''.control = k'.control) :
    Turned k op k'' := by
  obtain ⟨t, ht, hk'⟩ := h
  exact ⟨t, ht, heq.trans hk'⟩

theorem ended {o : Outcome} (h : Turned k op k') (ho : o = .succeeded ∨ o = .failed) :
    Effect k op o k'.control := by
  obtain ⟨t, ht, hk'⟩ := h
  rw [hk']
  refine ⟨t, ht, ?_, ?_⟩
  · rcases ho with rfl | rfl
    · rfl
    · exact .inl rfl
  · refine ⟨fun _ pid hrun => ?_, fun _ _ => rfl⟩
    subst hrun
    rcases ho with ho | ho <;> cases ho

theorem failed (h : Turned k op k') (e : Stop Halt) : Failed k op e k' := by
  cases e with
  | error e => exact h.ended (.inr rfl)
  | panic e => trivial

theorem ends {next : Attempt Kernel Halt Dispatch} (h : Turned k op k')
    (hnext : Ends next k'
      (fun d k'' => Control.HandsOver k'.control d k''.control ∧
        Moves op k'.control (.dispatched d) k''.control)
      (Errs fun _ k'' => Control.Balks k'.control k''.control ∧
        Moves op k'.control .failed k''.control)) :
    Ends next k' (Dispatched k op) (Failed k op) := by
  obtain ⟨t, ht, hk'⟩ := h
  rw [hk'] at hnext
  exact hnext.mono (fun _ _ h => ⟨t, ht, h⟩) (Errs.mono fun _ _ h => ⟨t, ht, h⟩)

theorem ends_schedule (h : Turned k op k') (ho : Orderly k.control) (hs : op.Schedules) :
    Ends Kernel.schedule k' (Dispatched k op) (Failed k op) := by
  refine h.ends ((Control.ends_schedule (h.current.trans_lt ho.current)).mono (fun d k'' hk'' => ?_)
    (Errs.mono fun _ k'' he => ?_))
  · exact ⟨hk''.1, fun _ pid hrun => hk''.2 pid (Outcome.dispatched.inj hrun),
      fun hnot => absurd hs hnot⟩
  · exact ⟨he, nofun, fun hnot => absurd hs hnot⟩

theorem ends_resume (h : Turned k op k') (hruns : k'.processes.Runs k.current)
    (hs : ¬ op.Schedules) : Ends Kernel.resume k' (Dispatched k op) (Failed k op) := by
  rw [← h.current] at hruns
  refine h.ends ((Control.ends_resume_self hruns).mono (fun d k'' hk'' => ?_)
    (Errs.mono fun _ k'' he => ?_))
  · exact ⟨hk''.1, fun hyes => absurd hyes hs, fun _ _ => hk''.2⟩
  · exact ⟨he.1, fun hyes => absurd hyes hs, fun _ _ => he.2⟩

theorem ends_resume_next (h : Turned k op k') (ho : Orderly k.control)
    (hruns : ¬ k'.processes.Runs k.current) (hs : op.Schedules) :
    Ends Kernel.resume k' (Dispatched k op) (Failed k op) := by
  rw [← h.current] at hruns
  refine h.ends ((Control.ends_resume_next (h.current.trans_lt ho.current) hruns).mono
    (fun d k'' hk'' => ?_) (Errs.mono fun _ k'' he => ?_))
  · exact ⟨hk''.1, fun _ pid hrun => hk''.2 pid (Outcome.dispatched.inj hrun),
      fun hnot => absurd hs hnot⟩
  · exact ⟨he, nofun, fun hnot => absurd hs hnot⟩

end Turned

/-- `pid` got the registers `r`, and all other processes are kept -/
def Gave (k : Kernel) (pid : Pid) (r : Registers) (k' : Kernel) : Prop :=
  ∃ t, (k.control.give pid r).processes.Retains t ∧
    k'.control = { k.control with processes := t }

namespace Gave

theorem of_eq (h : k'.control = k.control.give pid r) : Gave k pid r k' :=
  ⟨_, .refl, h⟩

theorem congr {k'' : Kernel} (h : Gave k pid r k') (heq : k''.control = k'.control) :
    Gave k pid r k'' := by
  obtain ⟨t, ht, hk'⟩ := h
  exact ⟨t, ht, heq.trans hk'⟩

theorem result {k'' : Kernel} {value : UInt64} (h : Gave k pid r k')
    (heq : k''.control = k'.control.change pid fun p =>
      { p with registers := p.registers.result value }) :
    Gave k pid (r.result value) k'' := by
  obtain ⟨t, ht, hk'⟩ := h
  rw [hk'] at heq
  refine ⟨_, ?_, heq⟩
  have hgive : (k.control.give pid (r.result value)).processes
      = (k.control.give pid r).processes.update pid fun p =>
          { p with registers := p.registers.result value } :=
    (ProcessTable.update_update (fun p => { p with registers := r })
      fun p => { p with registers := p.registers.result value }).symm
  rw [hgive]
  exact ht.result

theorem turned (h : Gave k pid r k') (hc : op.contexts k = [(pid, some r)]) : Turned k op k' := by
  obtain ⟨t, ht, hk'⟩ := h
  exact ⟨t, .of_retains_update hc ht, hk'⟩

theorem runs (h : Gave k pid r k') (hruns : k.processes.Runs q) : k'.processes.Runs q := by
  obtain ⟨t, ht, hk'⟩ := h
  rw [show k'.processes = t from congrArg Control.processes hk']
  have hstate : ∀ p : Process, ({ p with registers := r } : Process).state = p.state := fun _ => rfl
  exact ht.runs ((ProcessTable.runs_update hstate).2 hruns)

theorem ends_resume (h : Gave k k.current r k') (hc : op.contexts k = [(k.current, some r)])
    (hruns : k.processes.Runs k.current) (hs : ¬ op.Schedules) :
    Ends Kernel.resume k' (Dispatched k op) (Failed k op) :=
  (h.turned hc).ends_resume (h.runs hruns) hs

end Gave

/-! ## system calls -/

/-- the current process gets its result, and it or the next one goes on -/
theorem ends_answer {next : Attempt Kernel Halt Dispatch} {value : UInt64}
    (hk₁ : Gave k k.current r k₁)
    (hnext : ∀ k₂, Gave k k.current (r.result value) k₂ →
      Ends next k₂ (Dispatched k op) (Failed k op)) :
    Ends (do
        Kernel.setResult k.current value
        next : Attempt Kernel Halt Dispatch) k₁ (Dispatched k op) (Failed k op) := by
  rw [ends_bind, ends_lift]
  exact (Control.ends_setResult (Q := fun _ k₂ => Ends next k₂ (Dispatched k op) (Failed k op))
    fun k₂ h₂ => hnext k₂ (hk₁.result h₂)).mono (fun _ _ h => h) fun _ _ _ => trivial

theorem ends_getPid (hruns : k.processes.Runs k.current) (hs : ¬ op.Schedules)
    (hk₁ : Gave k k.current r k₁)
    (hc : op.contexts k = Kernel.callContexts r k.current k₁ .getPid) :
    Ends (Kernel.serve k.current .getPid) k₁ (Dispatched k op) (Failed k op) :=
  ends_answer hk₁ fun _ h => h.ends_resume hc hruns hs

theorem ends_yield (ho : Orderly k.control) (hs : op.Schedules) (hk₁ : Gave k k.current r k₁)
    (hc : op.contexts k = Kernel.callContexts r k.current k₁ .yield) :
    Ends (Kernel.serve k.current .yield) k₁ (Dispatched k op) (Failed k op) :=
  ends_answer hk₁ fun _ h => (h.turned hc).ends_schedule ho hs

theorem ends_panicCall {va : VirtualAddress} (hk₁ : Gave k k.current r k₁)
    (hc : op.contexts k = Kernel.callContexts r k.current k₁ (.panic va)) :
    Ends (Kernel.serve k.current (.panic va)) k₁ (Dispatched k op) (Failed k op) := by
  have hfailed := fun (e : Stop Halt) (k' : Kernel) (h : k'.control = k₁.control) =>
    ((hk₁.congr h).turned hc).failed e
  refine (Calm.lift (Calm.panicMessage _ _)).ends (fun _ k₂ h₂ => ?_) hfailed
  exact (Calm.lift (Calm.report _ _ _)).ends
    (fun _ k₃ h₃ => ends_fail.2 (hfailed _ k₃ (h₃.trans h₂)))
    fun e k₃ h₃ => hfailed e k₃ (h₃.trans h₂)

/-- a process is told that its call failed, and goes on -/
theorem ends_refusal {severity : Severity} {target message : String}
    (hruns : k.processes.Runs k.current) (hs : ¬ op.Schedules) (hk₁ : Gave k k.current r k₁)
    (hc : op.contexts k = [(k.current, some (r.result Registers.failed))]) :
    Ends (do
        Kernel.report severity target message
        Kernel.setResult k.current Registers.failed
        Kernel.resume : Attempt Kernel Halt Dispatch) k₁ (Dispatched k op) (Failed k op) := by
  rw [ends_bind, ends_lift]
  exact (Calm.report _ _ _ k₁).mono
    (fun _ k₂ h₂ => ends_answer (hk₁.congr h₂) fun _ h => h.ends_resume hc hruns hs)
    fun _ _ _ => trivial

theorem ends_pageAllocCall {va : VirtualAddress} (hruns : k.processes.Runs k.current)
    (hs : ¬ op.Schedules) (hk₁ : Gave k k.current r k₁)
    (hc : op.contexts k = Kernel.callContexts r k.current k₁ (.pageAlloc va)) :
    Ends (Kernel.serve k.current (.pageAlloc va)) k₁ (Dispatched k op) (Failed k op) := by
  show Ends (Kernel.pageAllocCall k.current va) k₁ _ _
  unfold Kernel.pageAllocCall
  rw [ends_bind, ends_lift, ends_outcome]
  refine (Calm.pageAlloc k.current va k₁).mono_eq (fun _ k₂ heq h₂ => ?_) fun e k₂ heq h₂ => ?_
  · rw [Kernel.callContexts, heq] at hc
    exact ends_answer (hk₁.congr h₂) fun _ h => h.ends_resume hc hruns hs
  · have hk₂ := hk₁.congr h₂
    rw [Kernel.callContexts, heq] at hc
    cases e with
    | panic e => trivial
    | error e =>
      cases e with
      | memory e =>
        cases e with
        | frame fe => exact ends_fail.2 ((hk₂.turned hc).failed _)
        | outOfMemory => exact ends_refusal hruns hs hk₂ hc
      | _ => exact ends_refusal hruns hs hk₂ hc

theorem turned_of_fork {child : Nat} {space : AddressSpace} {parent : Process}
    (ho : Orderly k.control) (hparent : k.processes.get? pid = some parent)
    (hspace : parent.space.isSome = true) (hlowest : k.processes.IsLowestFree child)
    (hloads : op.Loads k child) (hc : op.contexts k = Kernel.forkContexts pid child r)
    (hk₁ : k₁.control = (k.control.change child fun c =>
      { c with space := some space, state := .runnable, registers := r.result 0 }).give pid
        (r.result (UInt64.ofNat child))) : Turned k op k₁ := by
  have hne := ho.ne_of_space hlowest hparent hspace
  obtain ⟨⟨c, hchild, hfree, hzero⟩, -⟩ := hlowest
  refine ⟨_, fun q p hp => ?_, hk₁⟩
  by_cases hq : q = child
  · subst hq
    obtain rfl := Option.some.inj (hp.symm.trans hchild)
    refine ⟨_, (ProcessTable.get?_update_of_ne _ hne).trans (ProcessTable.get?_update_self _ hp),
      .loaded p space _ hzero (ho.isVacant hp hfree) hloads ?_⟩
    rw [hc, Kernel.forkContexts, List.lookup_cons, beq_self_eq_true]
  · have hp₁ := (ProcessTable.get?_update_of_ne (fun c =>
      { c with space := some space, state := .runnable, registers := r.result 0 }) hq).trans hp
    have hlookup : (op.contexts k).lookup q
        = List.lookup q [(pid, some (r.result (UInt64.ofNat child)))] := by
      rw [hc, Kernel.forkContexts, List.lookup_cons, beq_eq_false_iff_ne.2 hq]
    by_cases hq' : q = pid
    · subst hq'
      exact ⟨_, ProcessTable.get?_update_self _ hp₁, .replied p _ (hlookup.trans lookup_self)⟩
    · exact ⟨p, (ProcessTable.get?_update_of_ne _ hq').trans hp₁,
        .untouched p (hlookup.trans (lookup_of_ne hq'))⟩

theorem ends_forkCall (ho : Orderly k.control) (hruns : k.processes.Runs k.current)
    (hs : ¬ op.Schedules) (hloads : ∀ q, k.processes.IsLowestFree q → op.Loads k q)
    (hk₁ : k₁.control = k.control.give k.current r)
    (hc : op.contexts k = Kernel.callContexts r k.current k₁ .fork) :
    Ends (Kernel.serve k.current .fork) k₁ (Dispatched k op) (Failed k op) := by
  have hprocesses : k₁.processes =
      k.processes.update k.current fun p => { p with registers := r } :=
    congrArg Control.processes hk₁
  have ho₁ : Orderly k₁.control := by
    rw [hk₁]
    exact ho.give k.current r
  show Ends (Kernel.forkCall k.current) k₁ _ _
  unfold Kernel.forkCall
  rw [ends_bind, ends_lift, ends_outcome]
  refine (Control.ends_fork k.current ho₁.numbered).mono_eq (fun child k₂ heq h₂ => ?_)
    fun e k₂ heq h₂ => ?_
  · obtain ⟨hfree, p, s, hp, hspace, hk₂⟩ := h₂
    have hlowest₁ : k₁.processes.IsLowestFree child := ho₁.isLowestFree hfree
    rw [hprocesses] at hp hlowest₁
    obtain ⟨p₀, hp₀, rfl⟩ := ProcessTable.exists_of_update hp
    rw [Kernel.callContexts, heq] at hc
    have hlowest := ProcessTable.IsLowestFree.of_update
      (f := fun p => { p with registers := r }) (fun _ => rfl) hlowest₁
    have hne := ho.ne_of_space hlowest hp₀ hspace
    have hk₂' : k₂.control = (k.control.change child fun c =>
        { c with space := some s, state := .runnable, registers := r.result 0 }).give k.current
          (r.result (UInt64.ofNat child)) := by
      rw [hk₂, hk₁, Control.give, Control.change_comm hne, Control.change_change]
      rfl
    have hturned := turned_of_fork ho hp₀ hspace hlowest (hloads child hlowest) hc hk₂'
    refine hturned.ends_resume ?_ hs
    -- the parent has other registers than before, and the same state
    obtain ⟨p, hcurrent, hrun⟩ := hruns
    rw [show k₂.processes = _ from congrArg Control.processes hk₂']
    exact ⟨_, ProcessTable.get?_update_self _
      ((ProcessTable.get?_update_of_ne _ hne.symm).trans hcurrent), hrun⟩
  · rw [Kernel.callContexts, heq] at hc
    cases e with
    | panic e => trivial
    | error e =>
      have hk₂ : Gave k k.current r k₂ := by
        rw [hk₁] at h₂
        exact h₂
      cases e with
      | memory e =>
        cases e with
        | frame fe => exact ends_fail.2 ((hk₂.turned hc).failed _)
        | outOfMemory => exact ends_refusal hruns hs hk₂ hc
      | _ => exact ends_refusal hruns hs hk₂ hc

theorem turned_of_vacated (hzero : pid ≠ 0) (hfrees : op.Frees k pid)
    (hc : op.contexts k = [(pid, none)]) (hk₁ : k₁.control = k.control.change pid Process.vacated) :
    Turned k op k₁ :=
  ⟨_, .of_update (fun q hq => by rw [hc]; exact lookup_of_ne hq)
    fun p _ => .left p hzero hfrees, hk₁⟩

/-- the process leaves.  If a frame is found to be counted wrongly it has lost its address space -/
theorem ends_exitCall (ho : Orderly k.control) (hruns : k.processes.Runs k.current)
    (hs : op.Schedules) (hfrees : op.Frees k k.current)
    (hmiscounts : ∀ e k₂, Kernel.teardown k.current k₁ = .error (.error (.frame e)) k₂ →
      op.Miscounts k k.current)
    (hk₁ : k₁.control = k.control.give k.current r)
    (hc : op.contexts k = Kernel.callContexts r k.current k₁ .exit) :
    Ends (Kernel.serve k.current .exit) k₁ (Dispatched k op) (Failed k op) := by
  have hother : ∀ q, q ≠ k.current → (op.contexts k).lookup q = none := fun q hq => by
    rw [hc]
    exact lookup_of_ne hq
  show Ends (Kernel.teardown k.current >>= fun _ => Kernel.schedule) k₁ _ _
  rw [ends_bind]
  refine (Control.ends_teardown k.current).mono_eq (fun _ k₂ heq h₂ => ?_) fun e k₂ heq h₂ => ?_
  · obtain ⟨hzero, hk₂⟩ := h₂
    rw [hk₁, Control.give, Control.change_change] at hk₂
    exact (turned_of_vacated hzero hfrees hc hk₂).ends_schedule ho hs
  · cases e with
    | panic e => trivial
    | error e =>
      rcases h₂ with ⟨hzero | hge, -⟩ | ⟨⟨fe, rfl⟩, ⟨p', hp', hspace⟩, hk₂⟩
      · exact absurd hzero (ho.ne_zero hruns)
      · exact absurd hge (Nat.not_le.2 ho.current)
      · have hprocesses := congrArg Control.processes hk₁
        rw [hk₁, Control.give, Control.change_change] at hk₂
        refine Turned.failed ⟨_, .of_update hother fun p hp => ?_, hk₂⟩ _
        obtain rfl := Option.some.inj (hp'.symm.trans
          ((congrArg (fun t => t.get? k.current) hprocesses).trans
            (ProcessTable.get?_update_self _ hp)))
        exact .stranded p r (hmiscounts fe k₂ heq) hspace

/-- a system call of the current process -/
theorem Control.ends_syscall (ho : Orderly k.control) (hruns : k.processes.Runs k.current)
    (r : Registers) :
    Ends (Kernel.syscall r) k (Dispatched k (.syscall r)) (Failed k (.syscall r)) := by
  rw [Kernel.syscall_eq, ends_bind]
  refine (Control.ends_enter r).mono_eq (fun x k₁ heq h₁ => ?_) fun e k₁ heq h₁ => ?_
  · obtain ⟨pid, call⟩ := x
    obtain ⟨rfl, hcall, hk₁⟩ := h₁
    have hc : (Operation.syscall r).contexts k = Kernel.callContexts r k.current k₁ call := by
      rw [Operation.contexts, heq]
    have hgave := Gave.of_eq hk₁
    have hrax := Syscall.rax_of_decode hcall
    have hstays : call.number ≠ .yield → call.number ≠ .exit →
        ¬ (Operation.syscall r).Schedules := by
      have hinj : ∀ c c' : CallNumber, c.value = c'.value → c = c' := by
        intro c c'
        cases c <;> cases c' <;> first | exact fun _ => rfl | (intro h; exact absurd h (by decide))
      rintro hyield hexit (h | h)
      · exact hyield (hinj _ _ (hrax.symm.trans h))
      · exact hexit (hinj _ _ (hrax.symm.trans h))
    cases call with
    | getPid => exact ends_getPid hruns (hstays nofun nofun) hgave hc
    | yield => exact ends_yield ho (.inl hrax) hgave hc
    | panic va => exact ends_panicCall hgave hc
    | pageAlloc va => exact ends_pageAllocCall hruns (hstays nofun nofun) hgave hc
    | fork => exact ends_forkCall ho hruns (hstays nofun nofun) (fun q hq => ⟨hq, hrax⟩) hk₁ hc
    | exit =>
      refine ends_exitCall ho hruns (.inr hrax) ⟨rfl, hrax⟩ (fun e k₂ hmiss => ?_) hk₁ hc
      refine ⟨⟨rfl, hrax⟩, e, k₂, ?_⟩
      have hbind : (Kernel.teardown k.current >>= fun _ => Kernel.schedule) k₁
          = .error (.error (.frame e)) k₂ := bind_of_error hmiss
      rw [Kernel.syscall_eq]
      exact (bind_of_ok heq).trans hbind
  · have hc : (Operation.syscall r).contexts k = [(k.current, some r)] := by
      rw [Operation.contexts, heq]
    cases e with
    | panic e => trivial
    | error e => exact ((Gave.of_eq h₁).turned hc).failed _

/-! ## interrupts -/

theorem ends_timerTick (ho : Orderly k.control) (hs : op.Schedules) (h : Turned k op k₁) :
    Ends Kernel.timerTick k₁ (Dispatched k op) (Failed k op) := by
  unfold Kernel.timerTick
  refine Calm.get.ends (fun k' k₂ h₂ => ?_) fun e k₂ h₂ => (h.congr h₂).failed e
  have h := h.congr h₂
  refine (Calm.liftExcept _).ends (fun ticks k₃ h₃ => ?_) fun e k₃ h₃ => (h.congr h₃).failed e
  have h := h.congr h₃
  refine (Calm.modify (f := fun k => { k with ticks }) fun _ => rfl).ends (fun _ k₄ h₄ => ?_)
    fun e k₄ h₄ => (h.congr h₄).failed e
  have h := h.congr h₄
  refine (Calm.lift (Calm.tell rfl)).ends (fun _ k₅ h₅ => ?_) fun e k₅ h₅ => (h.congr h₅).failed e
  exact (h.congr h₅).ends_schedule ho hs

/-- a process that made an access that was refused cannot run any more -/
theorem ends_userFault {rip : UInt64} {va : VirtualAddress} {code : FaultCode}
    (ho : Orderly k.control) (hfaults : code.user = true → op.Faults)
    (hs : op.Faults → op.Schedules) (hk₁ : k₁.control = k.control.give k.current r)
    (hc : op.contexts k = [(k.current, some r)]) :
    Ends (Kernel.pageFault k.current rip va code >>= fun _ => Kernel.resume) k₁
      (Dispatched k op) (Failed k op) := by
  have hfailed := fun (e : Stop Halt) (k' : Kernel) (h : k'.control = k₁.control) =>
    ((Gave.of_eq (h.trans hk₁)).turned hc).failed e
  rw [ends_bind]
  unfold Kernel.pageFault
  refine ends_ite.2 ⟨fun huser => ?_, fun _ => ?_⟩
  · refine (Calm.lift (Calm.report _ _ _)).ends (fun _ k₂ h₂ => ?_) hfailed
    rw [ends_lift]
    refine (Control.ends_changeProcess (Q := fun _ k₃ => Ends Kernel.resume k₃ (Dispatched k op)
      (Failed k op)) fun k₃ h₃ => ?_).mono (fun _ _ h => h) fun _ _ _ => trivial
    rw [h₂, hk₁, Control.give, Control.change_change] at h₃
    refine Turned.ends_resume_next ⟨_, .of_update (fun q hq => ?_) fun p _ => ?_, h₃⟩ ho ?_
      (hs (hfaults huser))
    · rw [hc]
      exact lookup_of_ne hq
    · exact .broke p r rfl (hfaults huser)
    · rw [show k₃.processes = _ from congrArg Control.processes h₃]
      rintro ⟨p, hp, hrun⟩
      obtain ⟨p₀, -, rfl⟩ := ProcessTable.exists_of_update hp
      cases hrun
  · exact (Calm.lift (Calm.report _ _ _)).ends (fun _ k₂ h₂ => ends_fail.2 (hfailed _ k₂ h₂))
      hfailed

/-- an interrupt that arrived while the current process ran -/
theorem Control.ends_exception (ho : Orderly k.control) (r : Registers) :
    Ends (Kernel.exception r) k (Dispatched k (.exception r)) (Failed k (.exception r)) := by
  have hc : (Operation.exception r).contexts k = [(k.current, some r)] := rfl
  have hturned := fun (k' : Kernel) (h : k'.control = k.control.give k.current r) =>
    (Gave.of_eq h).turned hc
  unfold Kernel.exception
  rw [ends_bind, ends_lift]
  refine (Control.ends_save (r := r) (Q := fun pid k₁ => Ends _ k₁ (Dispatched k (.exception r))
    (Failed k (.exception r))) fun k₁ h₁ => ?_).mono (fun _ _ h => h) fun _ _ _ => trivial
  rw [ends_bind, ends_lift]
  refine (Control.ends_decodeTrap r).mono (fun trap k₂ h₂ => ?_) fun _ _ _ => trivial
  obtain ⟨h₂, va, htrap⟩ := h₂
  have h₂ := h₂.trans h₁
  have hcases : (r.intno = Trap.timerVector ∧ trap = .timer) ∨
      (r.intno = Trap.pageFaultVector ∧ trap = .pageFault va ⟨r.errcode⟩) ∨
        trap = .unexpected r.intno r.errcode := by
    rw [htrap, Trap.decode]
    split
    · next hvector => exact .inl ⟨hvector, rfl⟩
    split
    · next hvector => exact .inr (.inl ⟨hvector, rfl⟩)
    · exact .inr (.inr rfl)
  have hwork : ∀ k₃ : Kernel, k₃.control = k.control.give k.current r → Ends (do
      Kernel.checkAbort
      Kernel.handle k.current r trap) k₃
      (Dispatched k (.exception r)) (Failed k (.exception r)) := by
    intro k₃ h₃
    refine Calm.checkAbort.ends (fun _ k₄ h₄ => ?_)
      fun e k₄ h₄ => (hturned k₄ (h₄.trans h₃)).failed e
    have h₄ := h₄.trans h₃
    rcases hcases with ⟨hvector, rfl⟩ | ⟨hvector, rfl⟩ | rfl
    · exact ends_timerTick ho (.inl hvector) (hturned k₄ h₄)
    · exact ends_userFault ho (fun huser => ⟨hvector, huser⟩) .inr h₄ hc
    · refine (Calm.lift (Calm.report _ _ _)).ends (fun _ k₅ h₅ => ?_)
        fun e k₅ h₅ => (hturned k₅ (h₅.trans h₄)).failed e
      exact ends_fail.2 ((hturned k₅ (h₅.trans h₄)).failed _)
  refine ends_ite.2 ⟨fun _ => ?_, fun _ => hwork k₂ h₂⟩
  rw [ends_bind, ends_lift]
  exact (Calm.showMemory k₂).mono (fun _ k₃ h₃ => hwork k₃ (h₃.trans h₂)) fun _ _ _ => trivial

end PagedKernel
