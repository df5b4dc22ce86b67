import PagedKernel.Proofs.Kernel.Requests
import PagedKernel.Proofs.Placement.Starved
import PagedKernel.Proofs.View.Concurs

/-!
# The view is advisory

Nobody but the onlooker can tell which process is shown, how often, and since when: two kernels that
differ in nothing else answer alike, turn to the host alike, and differ in nothing else afterwards.

* `Kernel.respects_showMemory`   to show memory is nothing that another kernel would have to do too
* `Kernel.respects_waitFor`      kernels wait alike, however often they show memory
* `Operation.advisory`           every operation comes to the same
* `Kernel.view_advisory`         and so do rows of requests
-/

namespace PagedKernel

namespace Kernel

variable {k k' k₁ k₂ : Kernel} {pid : Pid} {ε α : Type}

/-! ## showing memory -/

theorem Concurs.trans {k₃ : Kernel} (h : Concurs k₁ k₂) (h' : Concurs k₂ k₃) : Concurs k₁ k₃ where
  memory := h.memory.trans h'.memory
  space := h.space.trans h'.space
  processes := h.processes.trans h'.processes
  current := h.current.trans h'.current
  ticks := h.ticks.trans h'.ticks
  layout := h.layout.trans h'.layout
  idleLimit := h.idleLimit.trans h'.idleLimit
  faultAddress := h.faultAddress.trans h'.faultAddress
  abortAfter := h.abortAfter.trans h'.abortAfter
  dealings := h.dealings.trans h'.dealings
  shown₁ := h.shown₁
  shown₂ := h'.shown₂

theorem Concurs.symm (h : Concurs k₁ k₂) : Concurs k₂ k₁ where
  memory := h.memory.symm
  space := h.space.symm
  processes := h.processes.symm
  current := h.current.symm
  ticks := h.ticks.symm
  layout := h.layout.symm
  idleLimit := h.idleLimit.symm
  faultAddress := h.faultAddress.symm
  abortAfter := h.abortAfter.symm
  dealings := h.dealings.symm
  shown₁ := h.shown₂
  shown₂ := h.shown₁

/-- a view is shown, and that is all -/
theorem exists_shown (hshown : k.viewer.shown < slotCount) :
    ∃ k', showMemory k = .ok () k' ∧ Concurs k k' := by
  have hends : Ends showMemory k (fun _ k' => Concurs k k') Never :=
    ends_showMemory hshown fun _ _ _ hviewer _ =>
      ⟨rfl, rfl, rfl, rfl, rfl, rfl, rfl, rfl, rfl, rfl, hshown, hviewer⟩
  obtain ⟨⟨⟩, k', hrun, hconcurs⟩ := hends.exists_ok
  exact ⟨k', hrun, hconcurs⟩

theorem respects_showMemory : Respects Concurs showMemory := by
  intro k₁ k₂ h
  obtain ⟨k₁', hrun₁, h₁⟩ := exists_shown h.shown₁
  obtain ⟨k₂', hrun₂, h₂⟩ := exists_shown h.shown₂
  unfold Together EndAlike
  rw [hrun₁, hrun₂]
  exact ⟨rfl, h₁.symm.trans (h.trans h₂)⟩

/-- with or without a view, a kernel goes on as one that concurs with it -/
theorem exists_mayShow (hshown : k.viewer.shown < slotCount) (c : Prop) [Decidable c]
    (severity : Severity) (target message : String) (x : Attempt Kernel Halt α) :
    ∃ k', Concurs k k' ∧ (if c then liftM (report severity target message) >>= fun _ =>
      liftM showMemory >>= fun _ => x else x) k = x k' := by
  have hself : Concurs k k := ⟨rfl, rfl, rfl, rfl, rfl, rfl, rfl, rfl, rfl, rfl, hshown, hshown⟩
  by_cases hc : c
  · obtain ⟨k₁, hreport, h₁⟩ : ∃ k₁, report severity target message k = .ok () k₁ ∧ Concurs k k₁ :=
      ⟨_, rfl, { hself with memory := rfl }⟩
    obtain ⟨k₂, hrun, h₂⟩ := exists_shown h₁.shown₂
    refine ⟨k₂, h₁.trans h₂, ?_⟩
    rw [if_pos hc, bind_of_ok (lift_of_ok hreport), bind_of_ok (lift_of_ok hrun)]
  · rw [if_neg hc]
    exact ⟨k, hself, rfl⟩

/-- both kernels show memory, or one of them, or none -/
theorem Concurs.mayShow (h : Concurs k₁ k₂) {c₁ c₂ : Prop} [Decidable c₁] [Decidable c₂]
    {severity : Severity} {target message : String} {x₁ x₂ : Attempt Kernel Halt α}
    (hrest : ∀ k₁' k₂', Concurs k₁' k₂' → Together Concurs x₁ x₂ k₁' k₂') :
    Together Concurs
      (if c₁ then liftM (report severity target message) >>= fun _ =>
        liftM showMemory >>= fun _ => x₁ else x₁)
      (if c₂ then liftM (report severity target message) >>= fun _ =>
        liftM showMemory >>= fun _ => x₂ else x₂) k₁ k₂ := by
  obtain ⟨k₁', h₁, hrun₁⟩ := exists_mayShow h.shown₁ c₁ severity target message x₁
  obtain ⟨k₂', h₂, hrun₂⟩ := exists_mayShow h.shown₂ c₂ severity target message x₂
  exact EndAlike.of_eq hrun₁ hrun₂ (hrest k₁' k₂' (h₁.symm.trans (h.trans h₂)))

/-! ## choosing a process -/

theorem respects_waitFor (rounds : UInt32) (left : Nat) :
    Respects Concurs (waitFor rounds left) := by
  induction left generalizing rounds with
  | zero => exact .stop _
  | succ left ih =>
    refine .bind respects_checkAbort fun _ k₁ k₂ h => EndAlike.bind_ok k₁ k₂ rfl rfl ?_
    dsimp only
    rw [h.idleLimit]
    refine h.mayShow fun k₁ k₂ h => EndAlike.ite Iff.rfl (fun _ => ?_) fun _ => ?_
    · exact Respects.bind (.lift (respects_report _ _ _)) (fun _ => .pure _) k₁ k₂ h
    · exact ih (rounds + 1) k₁ k₂ h

theorem respects_schedule : Respects Concurs schedule := by
  refine .read (fun _ _ h => by rw [h.processes, h.current, h.idleLimit, h.abortAfter]) fun k =>
    .bind (.liftExcept _) fun next? => ?_
  cases next? with
  | some pid => exact respects_run
  | none => exact respects_waitFor _ _

theorem respects_resume : Respects Concurs resume :=
  .read (fun _ _ h => by rw [h.current]) fun _ => .bind (.lift (respects_process _)) fun _ =>
    .ite respects_run respects_schedule

/-! ## entries -/

theorem respects_timerTick : Respects Concurs timerTick :=
  .read (fun _ _ h => by rw [h.ticks]) fun _ => .bind (.liftExcept _) fun _ =>
    .bind (.modify fun _ _ h => { h with ticks := rfl }) fun _ =>
      .bind (.lift (respects_tell _)) fun _ => respects_schedule

/-- a process is told that its call failed -/
theorem respects_refused (pid : Pid) (text : String) : Respects Concurs (do
    report .debug "kernel::syscall" text
    setResult pid Registers.failed
    resume : Attempt Kernel Halt Dispatch) :=
  .bind (.lift (respects_report _ _ _)) fun _ => .bind (.lift (respects_setResult _)) fun _ =>
    respects_resume

theorem respects_pageAllocCall (va : VirtualAddress) :
    Respects Concurs (pageAllocCall pid va) := by
  refine .bind (.lift (respects_pageAlloc va).outcome) fun result => ?_
  rcases result with (va | pid | (_ | e)) | ⟨⟩
  · exact respects_refused _ _
  · exact respects_refused _ _
  · exact respects_refused _ _
  · exact .stop _
  · exact .bind (.lift (respects_setResult _)) fun _ => respects_resume

theorem respects_forkCall : Respects Concurs (forkCall pid) := by
  refine .bind (.lift (respects_fork pid).outcome) fun result => ?_
  rcases result with (_ | pid | (_ | e)) | child
  · exact respects_refused _ _
  · exact respects_refused _ _
  · exact respects_refused _ _
  · exact .stop _
  · exact respects_resume

theorem respects_exception (registers : Registers) : Respects Concurs (exception registers) := by
  refine .bind (.lift (respects_save registers)) fun pid =>
    .bind (.lift (respects_decodeTrap registers)) fun trap => ?_
  -- what is done for the trap, whether memory has been shown before or not
  suffices hrest : Respects Concurs _ from
    .ite (.bind (.lift respects_showMemory) fun _ => hrest) hrest
  refine .bind respects_checkAbort fun _ => ?_
  cases trap with
  | timer => exact respects_timerTick
  | pageFault va code => exact .bind (respects_pageFault _ va code) fun _ => respects_resume
  | unexpected vector code => exact .bind (.lift (respects_report _ _ _)) fun _ => .fail _

theorem respects_syscall (registers : Registers) : Respects Concurs (syscall registers) := by
  refine .bind (.lift (respects_save registers)) fun pid =>
    .bind (.lift respects_showMemory) fun _ => .bind respects_checkAbort fun _ =>
      .bind (respects_decodeCall registers) fun call => ?_
  cases call with
  | getPid => exact .bind (.lift (respects_setResult _)) fun _ => respects_resume
  | yield => exact .bind (.lift (respects_setResult _)) fun _ => respects_schedule
  | panic message => exact respects_panicCall message
  | pageAlloc va => exact respects_pageAllocCall va
  | fork => exact respects_forkCall
  | exit => exact .bind respects_teardown fun _ => respects_schedule

end Kernel

/-! ## requests -/

/-- both computations end with the same answer -/
theorem Together.answer_eq {ε σ α : Type} {R : σ → σ → Prop} {x : EStateM ε σ α} {s t : σ}
    (h : Together R x x s t) : answerOf x s = answerOf x t ∧ R (leave x s) (leave x t) := by
  unfold Together EndAlike at h
  unfold answerOf leave
  cases hxs : x s <;> cases hxt : x t <;> rw [hxs, hxt] at h
  · exact ⟨congrArg Except.ok h.1, h.2⟩
  · exact h.elim
  · exact h.elim
  · obtain ⟨rfl, hR⟩ := (h.resolve_left id).resolve_left id
    exact ⟨rfl, hR⟩

/-- concurring kernels answer an operation alike, and concur afterwards -/
theorem Operation.advisory {k₁ k₂ : Kernel} (op : Operation) (h : k₁.Concurs k₂) :
    op.answer k₁ = op.answer k₂ ∧ (op.perform k₁).Concurs (op.perform k₂) := by
  have told : ∀ {ε α : Type} {x : EStateM ε Kernel α} (tell : Except ε α → Answer),
      Together Kernel.Concurs x x k₁ k₂ → tell (answerOf x k₁) = tell (answerOf x k₂) ∧
        (leave x k₁).Concurs (leave x k₂) := fun tell hx =>
    ⟨congrArg tell hx.answer_eq.1, hx.answer_eq.2⟩
  cases op with
  | setup pid image => exact told .setup (Kernel.respects_setup image k₁ k₂ h)
  | boot registry command => exact told .dispatch (Kernel.respects_boot registry command k₁ k₂ h)
  | run pid => exact told .dispatch (Kernel.respects_run k₁ k₂ h)
  | schedule => exact told .dispatch (Kernel.respects_schedule k₁ k₂ h)
  | syscall registers => exact told .dispatch (Kernel.respects_syscall registers k₁ k₂ h)
  | exception registers => exact told .dispatch (Kernel.respects_exception registers k₁ k₂ h)
  | fork parent => exact told .fork (Kernel.respects_fork parent k₁ k₂ h)
  | pageAlloc pid va => exact told .pageAlloc (Kernel.respects_pageAlloc va k₁ k₂ h)
  | teardown pid => exact told .teardown (Kernel.respects_teardown k₁ k₂ h)
  | writeUser pid va bytes => exact told .writeUser (Kernel.respects_writeUser va bytes k₁ k₂ h)
  | readUser pid va length =>
    refine ⟨congrArg Answer.readUser ?_, h⟩
    rw [Kernel.readUser, Kernel.readUser, h.processes, h.memory]

namespace Kernel

variable {k₀ k₁ k₂ : Kernel}

/-- both hosts have the same answers ready -/
theorem Concurs.arrive (h : Concurs k₁ k₂) (r : Request) : Concurs (r.arrive k₁) (r.arrive k₂) :=
  { h with faultAddress := rfl, abortAfter := rfl }

/-- kernels that have just started, and differ in how often memory is shown -/
theorem Concurs.of_started {host : Host} {config : KernelConfig} {hz viewInterval : UInt32}
    (h₁ : start host config = .started k₁)
    (h₂ : start host { config with hz, viewInterval } = .started k₂) : Concurs k₁ k₂ := by
  obtain ⟨mem, machine, space, hmem, hbuild, rfl⟩ := built_of_started h₁
  obtain ⟨_, machine', space', hmem', hbuild', rfl⟩ := built_of_started h₂
  obtain rfl := Except.ok.inj (hmem.symm.trans hmem')
  obtain ⟨rfl, rfl⟩ : space = space' ∧ machine = machine' := by
    cases hbuild.symm.trans hbuild'
    exact ⟨rfl, rfl⟩
  have hzero : 0 < slotCount := by decide
  exact ⟨rfl, rfl, rfl, rfl, rfl, rfl, rfl, rfl, rfl, rfl, hzero, hzero⟩

/-- concurring kernels answer a row of requests alike, and concur all the time -/
theorem Concurs.after (h : Concurs k₁ k₂) (rs : List Request) :
    k₁.answers rs = k₂.answers rs ∧
      ∀ done, done <+: rs → Concurs (k₁.after done) (k₂.after done) := by
  induction rs generalizing k₁ k₂ with
  | nil =>
    refine ⟨rfl, fun done hdone => ?_⟩
    obtain rfl := List.prefix_nil.1 hdone
    exact h
  | cons r later ih =>
    obtain ⟨hanswer, hnext⟩ := r.operation.advisory (h.arrive r)
    obtain ⟨hanswers, hconcurs⟩ := ih hnext
    refine ⟨congrArg₂ List.cons hanswer hanswers, fun done hdone => ?_⟩
    cases done with
    | nil => exact h
    | cons r' done =>
      obtain ⟨rfl, hlater⟩ := List.cons_prefix_cons.1 hdone
      exact hconcurs done hlater

/-- a kernel that operations lead to from one that has just started -/
def IsReachable (k : Kernel) : Prop :=
  ∃ host config k₀, config.layout.Ordered ∧ start host config = .started k₀ ∧ Reachable k₀ k

/-- Of two kernels that differ at most in what they show and log, each answers every row of requests
as the other does.  After each request they have asked the same of the host, views apart, and hold
the same in memory and in the process table. -/
theorem view_advisory (h : Concurs k₁ k₂) (rs : List Request) :
    k₁.answers rs = k₂.answers rs ∧
      ∀ done, done <+: rs → Concurs (k₁.after done) (k₂.after done) :=
  h.after rs

/-- a kernel that shows another process, and more often, forks, loses both processes and waits until
its host stops it -/
theorem view_advisory_waiting : ∃ k₁ k₂ : Kernel, ∃ rs : List Request,
    Concurs k₁ k₂ ∧ k₁.IsReachable ∧ k₁.processes.Runs 1 ∧ k₁.config ≠ k₂.config ∧
      k₁.viewer ≠ k₂.viewer ∧ k₁.answers rs = k₂.answers rs ∧
      ∀ done, done <+: rs → Concurs (k₁.after done) (k₂.after done) := by
  obtain ⟨k₀, k, h₀, hreach, hconfig, hruns, -⟩ :=
    StartedOn.exists_running {} { layout := .withPhysical 0x200000 } rfl
  have hshown := (hreach.valid (by decide) h₀).shown
  obtain ⟨host, config, hlayout, hstart⟩ := h₀
  have hl : config.layout.Ordered := hlayout ▸ Layout.ordered_withPhysical (by decide)
  have hnext : (k.viewer.shown + 1) % slotCount < slotCount := Nat.mod_lt _ (by decide)
  have hconcurs : Concurs k { k with
      config := { k.config with hz := 7, viewInterval := 1 }
      viewer := ⟨(k.viewer.shown + 1) % slotCount, 5⟩ } :=
    ⟨rfl, rfl, rfl, rfl, rfl, rfl, rfl, rfl, rfl, rfl, hshown, hnext⟩
  refine ⟨k, _, [{ operation := .fork 1 }, { operation := .teardown 1 },
      { operation := .teardown 2 }, { operation := .schedule, abortAfter := some 9000 }],
    hconcurs, ⟨host, config, k₀, hl, hstart, hreach⟩, hruns, ?_, ?_,
    view_advisory hconcurs _⟩
  · intro heq
    have hz : k.config.hz = 7 := congrArg KernelConfig.hz heq
    rw [hconfig] at hz
    exact absurd hz (by decide)
  · have hmoves : ∀ n : Nat, n < 16 → n ≠ (n + 1) % 16 := by omega
    exact fun heq => hmoves _ hshown (congrArg Viewer.shown heq)

end Kernel

end PagedKernel
