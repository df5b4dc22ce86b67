import PagedKernel.Proofs.Control.Operations

/-!
# Entries that nothing stops

A kernel whose host never asks for an end serves every entry of a process and hands control on.
Here is said what the work of an entry does to the processes, on such a kernel.

* `Kernel.Unhindered`   nothing stops the kernel
* `Kernel.Unseen`       only the log, the view and the record of the host differ
* `Kernel.HandsOn`      control is handed on
* `Kernel.Served`       what any entry leaves alone: the other processes
* `Kernel.Answered`     the current process has other registers, and all else is as before
* `Kernel.ends_tick`, `Kernel.ends_userFault`, `Kernel.ends_yieldEntry`,
  `Kernel.ends_pageAllocEntry`, `Kernel.ends_forkEntry`, `Kernel.ends_exitEntry`   the entries
-/

namespace PagedKernel

namespace Kernel

variable {k k' k₁ k₂ : Kernel} {pid : Nat} {r : Registers} {d : Dispatch}

/-- nothing stops the kernel: it does not lie at null, it does not wait for ever, and the host never
asks for an end -/
structure Unhindered (k : Kernel) : Prop where
  valid : k.Valid ∅
  layout : k.layout.SparesNull
  limited : k.config.idleLimit ≠ none
  patient : k.host.abortAfter = none

theorem Unhindered.of_config (h : k.Unhindered) (hvalid : k'.Valid ∅)
    (hconfig : k'.config = k.config) (hpatient : k'.host.abortAfter = none) : k'.Unhindered :=
  ⟨hvalid, layout_of_config hconfig ▸ h.layout, hconfig ▸ h.limited, hpatient⟩

/-- only the log, the view and the record of the host differ -/
structure Unseen (k k' : Kernel) : Prop where
  rests : Rests k k'
  current : k'.current = k.current
  ticks : k'.ticks = k.ticks
  patient : k'.host.abortAfter = none

theorem Unseen.unhindered (h : Unseen k k') (hk : k.Unhindered) : k'.Unhindered :=
  hk.of_config (h.rests.valid hk.valid) h.rests.config h.patient

theorem Unseen.of_memory {m : Machine} (h : k.Unhindered) (hm : m.toMemory = k.memory) :
    Unseen k { k with machine := m } :=
  ⟨.of_memory h.valid hm, rfl, rfl, h.patient⟩

/-- control is handed on, or the kernel has waited in vain; nothing else changes -/
structure HandsOn (k : Kernel) (d : Dispatch) (k' : Kernel) : Prop where
  rests : Rests k k'
  ticks : k'.ticks = k.ticks
  patient : k'.host.abortAfter = none
  handed : Control.HandsOver k.control d k'.control

/-! ## handing on control -/

theorem pollAbort_of_none {host : Host} (h : host.abortAfter = none) :
    host.pollAbort.2.abortAfter = none := by
  rw [Host.pollAbort_eq, h]
  rfl

/-- waiting does not make the host ask for an end -/
theorem ends_waitFor_patient (rounds : UInt32) (left : Nat) (h : k.Valid ∅)
    (hpatient : k.host.abortAfter = none) :
    Ends (waitFor rounds left) k (fun _ k' => k'.ticks = k.ticks ∧ k'.host.abortAfter = none)
      fun _ _ => True := by
  induction left generalizing k rounds with
  | zero => trivial
  | succ left ih =>
    have hpoll := pollAbort_of_none hpatient
    have hrest : ∀ k₁ : Kernel, k₁.Valid ∅ → k₁.ticks = k.ticks → k₁.host.abortAfter = none →
        Ends (if (k.config.idleLimit.any fun limit => limit.rounds ≤ rounds + 1) = true then do
            report .debug "kernel::scheduler"
              ("idle after " ++ toString (rounds + 1).toNat ++ " rounds")
            return .idle
          else waitFor (rounds + 1) left : Attempt Kernel Halt Dispatch) k₁
          (fun _ k' => k'.ticks = k.ticks ∧ k'.host.abortAfter = none) fun _ _ => True := by
      intro k₁ h₁ hticks hp
      refine ends_ite.2 ⟨fun _ => ?_, fun _ => ?_⟩
      · rw [ends_bind, ends_lift]
        exact ends_report fun m hm => ends_pure.2 ⟨hticks, hp⟩
      · exact (ih (rounds + 1) h₁ hp).mono (fun _ _ hk' => ⟨hk'.1.trans hticks, hk'.2⟩)
          fun _ _ he => he
    rw [waitFor, ends_bind]
    refine ends_checkAbort (fun _ => ?_) fun _ _ _ => trivial
    have hpolled : Valid { k with host := k.host.pollAbort.2 } ∅ :=
      h.of_eq rfl rfl rfl rfl h.current h.shown
    rw [ends_bind, ends_get]
    refine ends_mayShow hpolled.shown (fun _ => ?_) fun _ m viewer view hm hshown => ?_
    · exact hrest _ hpolled rfl hpoll
    · exact hrest _ (h.of_eq rfl rfl hm rfl h.current hshown) rfl hpoll

namespace Unhindered

theorem ends_run (h : k.Unhindered) (hruns : k.processes.Runs pid) :
    Ends (Kernel.run pid) k (HandsOn k) Never := by
  obtain ⟨p, hp, hrun⟩ := hruns
  have hvalid := h.valid
  obtain ⟨s, hspace⟩ := Option.isSome_iff_exists.1 (hvalid.ready pid p hp hrun)
  have hs := (ProcessTable.space?_of_get? hp).trans hspace
  have hlt := ProcessTable.lt_of_get? hp
  have hchosen : Valid { k with current := pid } ∅ :=
    hvalid.of_eq rfl rfl rfl rfl hlt hvalid.shown
  unfold Kernel.run
  rw [ends_bind, ends_get]
  dsimp only
  rw [ends_bind, hp, Option.filter_some, if_pos hrun, Option.bind_some, hspace, ends_orFail_some,
    ends_bind, ends_modify, ends_bind]
  refine (ends_checkKernelPages hchosen hs).mono (fun _ t ht => ?_)
    fun _ _ he => he.1 h.layout
  obtain ⟨rfl, -⟩ := ht
  rw [ends_bind, ends_lift, ends_process (k := { k with current := pid }) hp, ends_bind,
    ends_lift, ends_tell]
  exact ends_pure.2 ⟨⟨rfl, rfl, rfl, rfl, hlt, hvalid.shown⟩, rfl, h.patient,
    p, s, hp, hrun, hspace, rfl⟩

theorem ends_schedule (h : k.Unhindered) : Ends Kernel.schedule k (HandsOn k) Never := by
  have hvalid := h.valid
  rcases schedule_cases hvalid.current with ⟨next, hfirst, -, heq⟩ | ⟨hnone, heq⟩
  · exact (ends_congr heq).2 (h.ends_run hfirst.holds)
  · rw [ends_congr heq]
    have hwait := ends_waitFor 0 k.idlePolls hvalid fun _ => idlePolls_eq
    refine (hwait.and ((Calm.waitFor 0 k.idlePolls k).and
      (ends_waitFor_patient 0 k.idlePolls hvalid h.patient))).mono (fun d k' hk' => ?_)
      fun e k' he => ?_
    · obtain ⟨⟨hrests, rfl, -⟩, hcontrol, hticks, hpatient⟩ := hk'
      exact ⟨hrests, hticks, hpatient, hcontrol, hnone⟩
    · rcases he.1.2 with ⟨-, i, -, hafter⟩ | ⟨-, hnone⟩
      · exact Option.some_ne_none _ (hafter.symm.trans h.patient)
      · exact h.limited hnone

theorem ends_resume (h : k.Unhindered) : Ends Kernel.resume k (HandsOn k) Never := by
  rcases resume_cases h.valid.current with ⟨hruns, heq⟩ | ⟨-, heq⟩
  · exact (ends_congr heq).2 (h.ends_run hruns)
  · exact (ends_congr heq).2 h.ends_schedule

/-! ## on the way in -/

/-- the host is shown memory and asked whether to stop; it lets the kernel go on -/
theorem ends_look {α : Type} {next : Attempt Kernel Halt α} {Q : α → Kernel → Prop}
    {E : Stop Halt → Kernel → Prop} (h : k.Unhindered)
    (hnext : ∀ k₁, Unseen k k₁ → Ends next k₁ Q E) :
    Ends (do
        Kernel.showMemory
        Kernel.checkAbort
        next : Attempt Kernel Halt α) k Q E := by
  have hvalid := h.valid
  rw [ends_bind, ends_lift]
  refine hvalid.ends_showMemory fun _ viewer view _ hshown => ?_
  rw [ends_bind]
  refine ends_checkAbort (fun _ => ?_) fun heq => ?_
  · exact hnext _ ⟨⟨rfl, rfl, rfl, rfl, hvalid.current, hshown⟩, rfl, rfl,
      pollAbort_of_none h.patient⟩
  · exact absurd (heq.symm.trans h.patient) (Option.some_ne_none 0)

end Unhindered

/-- the registers of the current process are saved -/
def saved (k : Kernel) (r : Registers) : Kernel :=
  { k with processes := k.processes.update k.current fun p => { p with registers := r } }

theorem processes_saved :
    (k.saved r).processes = k.processes.update k.current fun p => { p with registers := r } := rfl

/-- what any entry leaves alone: the other processes, with all that they map -/
structure Served (k k' : Kernel) : Prop where
  unhindered : k'.Unhindered
  config : k'.config = k.config
  current : k'.current = k.current
  spares : ∀ q, q ≠ k.current → k.Loaded {q} → Spares {q} k k'

namespace Served

theorem of_serves (hk : k.Unhindered) (h : Serves k.current k k') : Served k k' :=
  ⟨hk.of_config h.valid h.config (h.host ▸ hk.patient), h.config, h.current,
    fun q hq _ => h.spares {q} fun hin => hq (Finset.mem_singleton.1 hin).symm⟩

theorem of_unseen (hk : k.Unhindered) (h : Unseen k k') : Served k k' :=
  ⟨h.unhindered hk, h.rests.config, h.current, fun _ _ _ => h.rests.spares⟩

theorem of_forks (hk : k.Unhindered) (h : Forks k.current k k') : Served k k' :=
  ⟨hk.of_config h.valid h.config (h.host ▸ hk.patient), h.config, h.current,
    fun q hq hl => h.spares {q} (fun hin => hq (Finset.mem_singleton.1 hin).symm) hl⟩

theorem trans (h : Served k k₁) (h' : Served k₁ k₂) : Served k k₂ :=
  ⟨h'.unhindered, h'.config.trans h.config, h'.current.trans h.current, fun q hq hl =>
    (h.spares q hq hl).trans (h'.spares q (h.current.symm ▸ hq) ((h.spares q hq hl).loaded hl))⟩

theorem saved (hk : k.Unhindered) (r : Registers) : Served k (k.saved r) :=
  of_serves hk (.of_update hk.valid k.current (fun p => { p with registers := r }) (fun _ => rfl)
    (fun _ => rfl) fun p hp hrun => hk.valid.ready _ p hp hrun)

end Served

/-- the current process has the registers `r`, and all other slots are as before -/
structure Answered (k : Kernel) (r : Registers) (k' : Kernel) : Prop where
  served : Served k k'
  ticks : k'.ticks = k.ticks
  retains : (k.saved r).processes.Retains k'.processes

namespace Answered

theorem of_unseen (hk : k.Unhindered) (h : Unseen (k.saved r) k') : Answered k r k' := by
  have hserved := Served.saved hk r
  refine ⟨hserved.trans (.of_unseen hserved.unhindered h), h.ticks, ?_⟩
  rw [h.rests.processes]
  exact .refl

theorem congr (h : Answered k r k₁) (hu : Unseen k₁ k₂) : Answered k r k₂ := by
  refine ⟨h.served.trans (.of_unseen h.served.unhindered hu), hu.ticks.trans h.ticks, ?_⟩
  rw [hu.rests.processes]
  exact h.retains

theorem space? (h : Answered k r k') (q : Pid) :
    k'.processes.space? q = k.processes.space? q := by
  have hsaved : (k.saved r).processes.space? q = k.processes.space? q :=
    ProcessTable.space?_update fun _ => rfl
  rw [← hsaved]
  rcases h.retains q with hsame | ⟨p, r', hp, -, hp'⟩
  · exact ProcessTable.space?_congr hsame
  · rw [ProcessTable.space?_of_get? hp, ProcessTable.space?_of_get? hp']

/-- the slot of the current process, if that can run -/
theorem slot {p : Process} (h : Answered k r k') (hp : k.processes.get? k.current = some p)
    (hrunnable : p.state = .runnable) :
    k'.processes.get? k.current = some { p with registers := r } := by
  have hsaved := ProcessTable.get?_update_self (fun p => { p with registers := r }) hp
  rcases h.retains k.current with hsame | ⟨p', r', hp', hvacant, -⟩
  · exact hsame.trans hsaved
  · obtain rfl := Option.some.inj (hp'.symm.trans hsaved)
    cases hrunnable.symm.trans (Process.isVacant_iff.1 hvacant).1

/-- a slot that was free is free -/
theorem free {q : Nat} {p p' : Process} (h : Answered k r k') (hq : q ≠ k.current)
    (hp : k.processes.get? q = some p) (hfree : p.state = .free)
    (hp' : k'.processes.get? q = some p') : p'.state = .free := by
  have hsaved := (ProcessTable.get?_update_of_ne (fun p => { p with registers := r }) hq).trans hp
  rcases h.retains q with hsame | ⟨p₁, r', hp₁, -, hslot⟩
  · obtain rfl := Option.some.inj (hp'.symm.trans (hsame.trans hsaved))
    exact hfree
  · obtain rfl := Option.some.inj (hp'.symm.trans hslot)
    obtain rfl := Option.some.inj (hp₁.symm.trans hsaved)
    exact hfree

/-- the current process is told the result of its call -/
theorem ends_setResult {α : Type} {next : Attempt Kernel Halt α} {Q : α → Kernel → Prop}
    {E : Stop Halt → Kernel → Prop} {value : UInt64} (h : Answered k r k₁)
    (hcurrent : k.current < slotCount)
    (hnext : ∀ k₂, Answered k (r.result value) k₂ → k₂.memory = k₁.memory → Ends next k₂ Q E) :
    Ends (do
        Kernel.setResult k.current value
        next : Attempt Kernel Halt α) k₁ Q E := by
  unfold Kernel.setResult
  rw [ends_bind, ends_lift, ends_changeProcess hcurrent]
  have hvalid := h.served.unhindered.valid
  have hserves := Serves.of_update hvalid k₁.current
    (fun p => { p with registers := p.registers.result value }) (fun _ => rfl) (fun _ => rfl)
    fun p hp hrun => hvalid.ready _ p hp hrun
  rw [← h.served.current]
  refine hnext _ ⟨h.served.trans (.of_serves h.served.unhindered hserves), h.ticks, ?_⟩ rfl
  have hsaved : (k.saved (r.result value)).processes
      = (k.saved r).processes.update k.current fun p =>
          { p with registers := p.registers.result value } :=
    (ProcessTable.update_update (fun p => { p with registers := r })
      fun p => { p with registers := p.registers.result value }).symm
  rw [hsaved, h.served.current]
  exact h.retains.result

end Answered

/-- the registers are saved, and the kernel comes to the work of a call -/
theorem Unhindered.ends_enter (h : k.Unhindered) {call : Syscall}
    (hcall : Syscall.decode r = .ok call) :
    Ends (enter r) k (fun x k' => x = (k.current, call) ∧ Unseen (k.saved r) k') Never := by
  unfold enter
  rw [ends_bind, ends_lift, ends_save h.valid]
  have hsaved := (Served.saved h r).unhindered
  refine hsaved.ends_look fun k₁ h₁ => ?_
  rw [ends_bind]
  refine ends_decodeCall (fun call' hcall' m hm => ends_pure.2 ⟨?_, ?_⟩)
    fun _ hunknown => nomatch hcall.symm.trans hunknown
  · rw [Except.ok.inj (hcall.symm.trans hcall')]
  · have hrests := h₁.rests
    exact ⟨hrests.trans (.of_memory (hrests.valid hsaved.valid) hm), h₁.current, h₁.ticks,
      h₁.patient⟩

/-- the work of a call begins with the registers saved -/
theorem Unhindered.ends_call {call : Syscall} {Q : Dispatch → Kernel → Prop} (h : k.Unhindered)
    (hcall : Syscall.decode r = .ok call)
    (hwork : ∀ k₁, Unseen (k.saved r) k₁ → Ends (serve k.current call) k₁ Q Never) :
    Ends (Kernel.syscall r) k Q Never := by
  rw [syscall_eq]
  refine (h.ends_enter hcall).bind ?_
  rintro x k₁ ⟨rfl, h₁⟩
  exact hwork k₁ h₁

/-! ## the entries -/

/-- the work of an interrupt that the kernel did not cause begins with the registers saved -/
theorem Unhindered.ends_trap {Q : Dispatch → Kernel → Prop} (h : k.Unhindered)
    (hown : (Trap.decode r k.host.faultAddress).isKernelFault = false)
    (hwork : ∀ k₁, Unseen (k.saved r) k₁ →
      Ends (handle k.current r (Trap.decode r k.host.faultAddress)) k₁ Q Never) :
    Ends (Kernel.exception r) k Q Never := by
  have hsaved := (Served.saved h r).unhindered
  have hvalid := hsaved.valid
  unfold Kernel.exception
  rw [ends_bind, ends_lift, ends_save h.valid, ends_bind, ends_lift]
  refine ends_decodeTrap fun host hhost => ?_
  dsimp only at hhost
  have hasked : Unseen (k.saved r) { k.saved r with host := host } :=
    ⟨⟨rfl, rfl, rfl, rfl, hvalid.current, hvalid.shown⟩, rfl, rfl, hhost.trans h.patient⟩
  refine ends_ite.2 ⟨fun _ => ?_, fun hnot => absurd (congrArg (!·) hown) hnot⟩
  refine (hasked.unhindered hsaved).ends_look fun k₁ h₁ => ?_
  exact hwork k₁ ⟨hasked.rests.trans h₁.rests, h₁.current.trans hasked.current,
    h₁.ticks.trans hasked.ticks, h₁.patient⟩

/-- the timer ticks, and the next process runs -/
theorem ends_tick (h : k.Unhindered) (hticks : k.ticks.toNat + 1 < 2 ^ 64)
    (hr : r.intno = Trap.timerVector) :
    Ends (Kernel.exception r) k (fun d k' => ∃ k₁, Served k k₁ ∧ k₁.ticks = k.ticks + 1 ∧
      k₁.memory = k.memory ∧ k₁.processes = (k.saved r).processes ∧ HandsOn k₁ d k') Never := by
  have hsaved := Served.saved h r
  have hdecode : Trap.decode r k.host.faultAddress = .timer := if_pos hr
  refine h.ends_trap (by rw [hdecode]; rfl) fun k₁ h₁ => ?_
  rw [hdecode]
  have hone : (1 : UInt64).toNat = 1 := rfl
  have hadd : Word.add k₁.ticks 1 = .ok (k₁.ticks + 1) := by
    rw [h₁.ticks]
    exact Word.add_of_lt (by rw [hone]; exact hticks)
  show Ends timerTick k₁ _ _
  unfold timerTick
  rw [ends_bind, ends_get, ends_bind, ends_attemptExcept hadd, ends_bind, ends_modify, ends_bind,
    ends_lift, ends_tell]
  have hserved := hsaved.trans (.of_unseen hsaved.unhindered h₁)
  have hvalid₁ := hserved.unhindered.valid
  have hticked : Served k { k₁ with ticks := k₁.ticks + 1, host := k₁.host.record .ackTimer } :=
    ⟨hserved.unhindered.of_config (hvalid₁.of_eq rfl rfl rfl rfl hvalid₁.current hvalid₁.shown) rfl
      h₁.patient, hserved.config, hserved.current, fun q hq hl =>
      (hserved.spares q hq hl).trans (.of_eq rfl rfl rfl rfl)⟩
  refine hticked.unhindered.ends_schedule.mono (fun d k' hk' => ?_) fun _ _ hn => hn
  exact ⟨_, hticked, congrArg (· + 1) h₁.ticks, h₁.rests.memory, h₁.rests.processes, hk'⟩

/-- the slot of the current process once an access of it was refused: it cannot run any more -/
def broken (k : Kernel) (r : Registers) : ProcessTable slotCount :=
  k.processes.update k.current fun p => { p with registers := r, state := .broken }

/-- an access of the current process was refused: it is broken, and nothing else happens to memory
or to a process -/
theorem ends_userFault (h : k.Unhindered) (hr : r.intno = Trap.pageFaultVector)
    (huser : (FaultCode.mk r.errcode).user = true) :
    Ends (Kernel.exception r) k (fun _ k' => k'.memory = k.memory ∧ k'.processes = k.broken r)
      Never := by
  have hdecode : Trap.decode r k.host.faultAddress
      = .pageFault k.host.faultAddress ⟨r.errcode⟩ := by
    rw [Trap.decode, hr]
    rfl
  have hown : (Trap.decode r k.host.faultAddress).isKernelFault = false := by
    rw [hdecode, Trap.isKernelFault, huser]
    rfl
  refine h.ends_trap hown fun k₁ h₁ => ?_
  rw [hdecode]
  show Ends (pageFault k.current r.rip k.host.faultAddress ⟨r.errcode⟩ >>= fun _ => resume) k₁ _ _
  rw [ends_bind]
  unfold pageFault
  rw [if_pos huser, ends_bind, ends_lift]
  refine ends_report fun m hm => ?_
  rw [ends_lift, ends_changeProcess h.valid.current]
  have hunseen := h₁.unhindered (Served.saved h r).unhindered
  have hlogged := (Unseen.of_memory hunseen hm).unhindered hunseen
  have hserves := Serves.of_update hlogged.valid k.current
    (fun p => { p with state := .broken }) (fun _ => rfl) (fun _ => rfl)
    fun _ _ hrun => nomatch hrun
  have hbroken := hlogged.of_config hserves.valid rfl hlogged.patient
  refine hbroken.ends_resume.mono (fun d k' hk' => ?_) fun _ _ hn => hn
  refine ⟨hk'.rests.memory.trans (hm.trans h₁.rests.memory), hk'.rests.processes.trans ?_⟩
  show k₁.processes.update k.current (fun p => { p with state := .broken }) = k.broken r
  rw [h₁.rests.processes]
  exact ProcessTable.update_update (fun p => { p with registers := r })
    fun p => { p with state := .broken }

/-- a process lets others run -/
theorem ends_yieldEntry (h : k.Unhindered) (hcall : Syscall.decode r = .ok .yield) :
    Ends (Kernel.syscall r) k (fun d k' => ∃ k₁, Answered k (r.result 0) k₁ ∧ HandsOn k₁ d k')
      Never := by
  refine h.ends_call hcall fun k₁ h₁ => ?_
  refine (Answered.of_unseen h h₁).ends_setResult h.valid.current fun k₂ h₂ _ => ?_
  exact h₂.served.unhindered.ends_schedule.mono (fun d k' hk' => ⟨k₂, h₂, hk'⟩) fun _ _ hn => hn

/-- a call fails, and the process that made it goes on -/
theorem Answered.ends_refused {severity : Severity} {target message : String}
    (h₁ : Answered k r k₁) (hcurrent : k.current < slotCount) :
    Ends (do
        report severity target message
        setResult k.current Registers.failed
        resume : Attempt Kernel Halt Dispatch) k₁
      (fun d k' => ∃ k₂, Answered k (r.result Registers.failed) k₂ ∧ HandsOn k₂ d k') Never := by
  rw [ends_bind, ends_lift]
  refine ends_report fun m hm => ?_
  refine (h₁.congr (.of_memory h₁.served.unhindered hm)).ends_setResult hcurrent fun k₂ h₂ _ => ?_
  exact h₂.served.unhindered.ends_resume.mono (fun d k' hk' => ⟨k₂, h₂, hk'⟩)
    fun _ _ hn => hn

/-- the pages of a process answer its call for the page of `va` -/
def Granted (k : Kernel) (pid : Pid) (va : VirtualAddress) : Prop :=
  ∃ s f, k.processes.space? pid = some s ∧
    k.memory.pageAt s.root va.page.number.toNat = some (f, .userReadWrite)

/-- a process gets the page that it asked for, or is told that it does not -/
theorem ends_pageAllocEntry (h : k.Unhindered) {va : VirtualAddress}
    (hcall : Syscall.decode r = .ok (.pageAlloc va)) :
    Ends (Kernel.syscall r) k (fun d k' => ∃ k₁,
      (Answered k (r.result Registers.failed) k₁ ∨
        Answered k (r.result 0) k₁ ∧ k₁.Granted k.current va) ∧ HandsOn k₁ d k') Never := by
  refine h.ends_call hcall fun k₁ hu => ?_
  have h₁ := Answered.of_unseen h hu
  have hcurrent := h.valid.current
  have hserved : ∀ k₂ : Kernel, Serves k.current k₁ k₂ → k₂.processes = k₁.processes →
      Answered k r k₂ := by
    intro k₂ hserves hsame
    rw [← h₁.served.current] at hserves
    refine ⟨h₁.served.trans (.of_serves h₁.served.unhindered hserves), hserves.ticks.trans h₁.ticks,
      ?_⟩
    rw [hsame]
    exact h₁.retains
  have hrefused : ∀ k₂ severity target message, Answered k r k₂ → Ends (do
        report severity target message
        setResult k.current Registers.failed
        resume : Attempt Kernel Halt Dispatch) k₂ (fun d k' => ∃ k₁,
      (Answered k (r.result Registers.failed) k₁ ∨
        Answered k (r.result 0) k₁ ∧ k₁.Granted k.current va) ∧ HandsOn k₁ d k') Never :=
    fun k₂ _ _ _ h₂ => (h₂.ends_refused hcurrent).mono
      (fun _ _ ⟨k₃, h₃, hk'⟩ => ⟨k₃, .inl h₃, hk'⟩) fun _ _ hn => hn
  show Ends (pageAllocCall k.current va) k₁ _ _
  unfold pageAllocCall
  rw [ends_bind, ends_lift, ends_outcome]
  refine (ends_pageAlloc h₁.served.unhindered.valid va).mono (fun _ k₂ hk₂ => ?_)
    fun e k₂ he => ?_
  · obtain ⟨hserves, hsame, -, s, hs, hreplaced⟩ := hk₂
    obtain ⟨f, -, -, hpage, -⟩ := hreplaced.page
    refine (hserved k₂ hserves hsame).ends_setResult hcurrent fun k₃ h₃ hmemory => ?_
    have hspace : k₃.processes.space? k.current = some s := by
      rw [h₃.space?, ← h₁.space?]
      exact hs
    refine h₃.served.unhindered.ends_resume.mono (fun d k' hk' => ?_)
      fun _ _ hn => hn
    exact ⟨k₃, .inr ⟨h₃, s, f, hspace, hmemory ▸ hpage⟩, hk'⟩
  · cases e with
    | panic e => exact he.elim
    | error e =>
      obtain ⟨⟨hwhy, -⟩, hserves, hsame⟩ := he
      have h₂ := hserved k₂ hserves hsame
      cases hwhy <;> exact hrefused _ _ _ _ h₂

/-- `child` was vacant, and is a copy of the current process, whose call it answers -/
structure Forked (k : Kernel) (r : Registers) (child : Pid) (k' : Kernel) : Prop where
  served : Served k k'
  ticks : k'.ticks = k.ticks
  vacant : ∃ p, k.processes.get? child = some p ∧ p.isVacant = true
  processes : ∃ s, k'.processes = (k.processes.update child fun p =>
    { p with space := some s, state := .runnable, registers := r.result 0 }).update k.current
      fun p => { p with registers := r.result (UInt64.ofNat child) }

namespace Forked

variable {child : Nat} {p : Process}

theorem lt (h : Forked k r child k') : child < slotCount := by
  obtain ⟨c, hc, -⟩ := h.vacant
  exact ProcessTable.lt_of_get? hc

/-- a process that can run does not make way for its child -/
theorem ne (h : Forked k r child k') (hp : k.processes.get? k.current = some p)
    (hrunnable : p.state = .runnable) : child ≠ k.current := by
  rintro rfl
  obtain ⟨c, hc, hvacant⟩ := h.vacant
  obtain rfl := Option.some.inj (hp.symm.trans hc)
  cases hrunnable.symm.trans (Process.isVacant_iff.1 hvacant).1

/-- the parent is told the pid of its child -/
theorem slot_parent (h : Forked k r child k') (hp : k.processes.get? k.current = some p)
    (hrunnable : p.state = .runnable) :
    k'.processes.get? k.current = some { p with registers := r.result (UInt64.ofNat child) } := by
  obtain ⟨s, hprocesses⟩ := h.processes
  rw [hprocesses]
  exact ProcessTable.get?_update_self _
    ((ProcessTable.get?_update_of_ne _ (h.ne hp hrunnable).symm).trans hp)

/-- the child can run -/
theorem slot_child (h : Forked k r child k') (hp : k.processes.get? k.current = some p)
    (hrunnable : p.state = .runnable) :
    ∃ c, k'.processes.get? child = some c ∧ c.state = .runnable := by
  obtain ⟨s, hprocesses⟩ := h.processes
  obtain ⟨c, hc, -⟩ := h.vacant
  rw [hprocesses, ProcessTable.get?_update_of_ne _ (h.ne hp hrunnable),
    ProcessTable.get?_update_self _ hc]
  exact ⟨_, rfl, rfl⟩

theorem slot_other {q : Nat} (h : Forked k r child k') (hq : q ≠ k.current) (hchild : q ≠ child) :
    k'.processes.get? q = k.processes.get? q := by
  obtain ⟨s, hprocesses⟩ := h.processes
  rw [hprocesses, ProcessTable.get?_update_of_ne _ hq, ProcessTable.get?_update_of_ne _ hchild]

end Forked

/-- the work of a fork whose parent `k₁` has its registers saved -/
theorem Forked.of_control (h : k.Unhindered) (hu : Unseen (k.saved r) k₁)
    (hruns : k.processes.Runs k.current) {child : Nat} {p : Process} {s : AddressSpace}
    (hforks : Forks k.current k₁ k₂) (hfree : k₁.processes.firstFree? = some child)
    (hp : k₁.processes.get? k.current = some p)
    (hk₂ : k₂.control = (k₁.control.change child fun c =>
      { c with space := some s, state := .runnable, registers := p.registers.result 0 }).change
        k.current fun p => { p with registers := p.registers.result (UInt64.ofNat child) }) :
    Forked k r child k₂ := by
  have h₁ := Answered.of_unseen h hu
  have hvalid₁ := h₁.served.unhindered.valid
  have hprocesses : k₁.processes
      = k.processes.update k.current fun p => { p with registers := r } := hu.rests.processes
  obtain ⟨c, hc, hvacant, -⟩ := ProcessTable.firstFree?_some hvalid₁.numbered hfree
  obtain ⟨p', hp', hrun⟩ := hruns
  -- the parent runs, so it is not the child
  have hne : child ≠ k.current := by
    rintro rfl
    rw [hprocesses, ProcessTable.get?_update_self _ hp'] at hc
    obtain rfl := Option.some.inj hc
    have hfree := (Process.isVacant_iff.1 hvacant).1
    rw [Process.isRunnable, show p'.state = .free from hfree] at hrun
    cases hrun
  rw [hprocesses, ProcessTable.get?_update_self _ hp'] at hp
  obtain rfl := Option.some.inj hp
  rw [hprocesses, ProcessTable.get?_update_of_ne _ hne] at hc
  rw [← h₁.served.current] at hforks
  refine ⟨h₁.served.trans (.of_forks h₁.served.unhindered hforks), hforks.ticks.trans h₁.ticks,
    ⟨c, hc, hvacant⟩, s, ?_⟩
  refine (congrArg Control.processes hk₂).trans ?_
  show (k₁.processes.update child _).update k.current _ = _
  rw [hprocesses, ProcessTable.update_comm _ _ hne, ProcessTable.update_update,
    ← ProcessTable.update_comm _ _ hne]

/-- a process is duplicated, or is told that it is not -/
theorem ends_forkEntry (h : k.Unhindered) (hruns : k.processes.Runs k.current)
    (hcall : Syscall.decode r = .ok .fork) :
    Ends (Kernel.syscall r) k (fun d k' => ∃ k₁,
      (Answered k (r.result Registers.failed) k₁ ∨ ∃ child, Forked k r child k₁) ∧
        HandsOn k₁ d k') Never := by
  refine h.ends_call hcall fun k₁ hu => ?_
  have h₁ := Answered.of_unseen h hu
  have hvalid₁ := h₁.served.unhindered.valid
  have hcurrent := h.valid.current
  show Ends (forkCall k.current) k₁ _ _
  unfold forkCall
  rw [ends_bind, ends_lift, ends_outcome]
  refine ((Kernel.ends_fork hvalid₁).and (Control.ends_fork k.current hvalid₁.numbered)).mono
    (fun child k₂ hk₂ => ?_) fun e k₂ he => ?_
  · obtain ⟨⟨hforks, -⟩, hfree, p, s, hp, -, hcontrol⟩ := hk₂
    have hforked := Forked.of_control h hu hruns hforks hfree hp hcontrol
    exact hforked.served.unhindered.ends_resume.mono
      (fun d k' hk' => ⟨k₂, .inr ⟨child, hforked⟩, hk'⟩) fun _ _ hn => hn
  · cases e with
    | panic e => exact he.1.elim
    | error e =>
      obtain ⟨⟨⟨hwhy, -⟩, hforks, -, -⟩, t, ht, hcontrol⟩ := he
      have hserved := h₁.served.trans (.of_forks h₁.served.unhindered (h₁.served.current ▸ hforks))
      have h₂ : Answered k r k₂ := by
        refine ⟨hserved, hforks.ticks.trans h₁.ticks, ?_⟩
        rw [show k₂.processes = t from congrArg Control.processes hcontrol,
          ← show k₁.processes = (k.saved r).processes from hu.rests.processes]
        exact ht
      have hrefused : ∀ severity target message, Ends (do
          report severity target message
          setResult k.current Registers.failed
          resume : Attempt Kernel Halt Dispatch) k₂ (fun d k' => ∃ k₁,
            (Answered k (r.result Registers.failed) k₁ ∨ ∃ child, Forked k r child k₁) ∧
              HandsOn k₁ d k') Never := fun _ _ _ =>
        (h₂.ends_refused hcurrent).mono (fun _ _ ⟨k₃, h₃, hk'⟩ => ⟨k₃, .inl h₃, hk'⟩)
          fun _ _ hn => hn
      cases hwhy <;> exact hrefused _ _ _

/-- a process leaves -/
theorem ends_exitEntry (h : k.Unhindered) (hruns : k.processes.Runs k.current)
    (hcall : Syscall.decode r = .ok .exit) :
    Ends (Kernel.syscall r) k (fun d k' => ∃ k₁, Served k k₁ ∧ k₁.ticks = k.ticks ∧
      k₁.processes = k.processes.update k.current Process.vacated ∧ HandsOn k₁ d k') Never := by
  refine h.ends_call hcall fun k₁ hu => ?_
  have h₁ := Answered.of_unseen h hu
  show Ends (teardown k.current >>= fun _ => schedule) k₁ _ _
  rw [ends_bind]
  refine ((ends_teardown h₁.served.unhindered.valid).and (Control.ends_teardown k.current)).mono
    (fun _ k₂ hk₂ => ?_) fun e k₂ he => ?_
  · obtain ⟨⟨hserves, -⟩, -, hcontrol⟩ := hk₂
    rw [← h₁.served.current] at hserves
    have hserved := h₁.served.trans (.of_serves h₁.served.unhindered hserves)
    have hprocesses : k₂.processes = k.processes.update k.current Process.vacated := by
      refine (congrArg Control.processes hcontrol).trans ?_
      show k₁.processes.update k.current Process.vacated = _
      rw [show k₁.processes = _ from hu.rests.processes, processes_saved,
        ProcessTable.update_update]
      rfl
    exact hserved.unhindered.ends_schedule.mono (fun d k' hk' => ⟨k₂, hserved,
      hserves.ticks.trans h₁.ticks, hprocesses, hk'⟩) fun _ _ hn => hn
  · cases e with
    | panic e => exact he.1.elim
    | error e =>
      obtain ⟨p, hp, hrun⟩ := hruns
      rcases he.1.1 with hzero | hge
      · obtain ⟨s, hs⟩ := Option.isSome_iff_exists.1 (h.valid.ready _ p hp hrun)
        have hspace := (ProcessTable.space?_of_get? hp).trans hs
        rw [hzero, h.valid.reserved] at hspace
        cases hspace
      · exact absurd hge (Nat.not_le.2 h.valid.current)

end Kernel

end PagedKernel
