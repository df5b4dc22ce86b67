import PagedKernel.Kernel.Boot
import PagedKernel.Kernel.Entry
import PagedKernel.Proofs.Process.Table
import PagedKernel.Proofs.View.Logs

/-!
# What does not depend on the view

Two kernels concur when they differ at most in what they show of memory, when and how often, and in
what they log.  Whatever is asked of both, short of an entry that shows memory, comes to the same.

* `Host.dealings`               what the kernel has asked of the host, the views left out
* `Kernel.Concurs`              two kernels that differ in nothing else
* `Kernel.respects_setup`, …    concurring kernels do the same, and concur again
-/

namespace PagedKernel

/-- what the kernel has asked of the host, the views of memory left out -/
def Host.dealings (h : Host) : List HostCall :=
  h.calls.filter fun call => !call.isShowMemory

theorem Host.dealings_record {h₁ h₂ : Host} (h : h₁.dealings = h₂.dealings) (call : HostCall) :
    (h₁.record call).dealings = (h₂.record call).dealings := by
  unfold dealings record at *
  rw [List.filter_cons, List.filter_cons, h]

namespace Kernel

/-- two kernels that differ at most in what they show and have shown, and in what they log -/
structure Concurs (k₁ k₂ : Kernel) : Prop where
  memory : k₁.memory = k₂.memory
  space : k₁.space = k₂.space
  processes : k₁.processes = k₂.processes
  current : k₁.current = k₂.current
  ticks : k₁.ticks = k₂.ticks
  layout : k₁.layout = k₂.layout
  idleLimit : k₁.config.idleLimit = k₂.config.idleLimit
  faultAddress : k₁.host.faultAddress = k₂.host.faultAddress
  abortAfter : k₁.host.abortAfter = k₂.host.abortAfter
  dealings : k₁.host.dealings = k₂.host.dealings
  shown₁ : k₁.viewer.shown < slotCount
  shown₂ : k₂.viewer.shown < slotCount

variable {ε α : Type} {k₁ k₂ : Kernel} {pid : Pid}

/-! ## steps -/

theorem respects_onMachine {x : EStateM ε Machine α} (hx : Respects Machine.SameMemory x) :
    Respects Concurs (onMachine x) := by
  intro k₁ k₂ h
  refine EndAlike.within (fun _ _ _ => rfl) (fun _ _ _ => rfl) ?_
  exact EndAlike.mono (hx k₁.machine k₂.machine h.memory)
    (fun _ _ _ _ h' => ⟨h'.1, { h with memory := h'.2 }⟩) fun _ _ _ h' => { h with memory := h' }

theorem respects_inspect (question : Memory → Except Panic α) :
    Respects Concurs (inspect question) := by
  intro k₁ k₂ h
  unfold Together EndAlike inspect
  rw [show k₁.machine.toMemory = k₂.machine.toMemory from h.memory]
  cases question k₂.machine.toMemory with
  | ok a => exact ⟨rfl, h⟩
  | error p => exact .inr (.inr ⟨rfl, h⟩)

theorem respects_report (severity : Severity) (target message : String) :
    Respects Concurs (report severity target message) :=
  respects_onMachine (Machine.respects_record _ _ _)

theorem respects_process (pid : Pid) : Respects Concurs (process pid) :=
  .read (fun _ _ h => by rw [h.processes]) fun _ => .ofExcept _

theorem respects_setProcess (pid : Pid) (change : Process → Process) :
    Respects Concurs (setProcess pid change) :=
  .modify fun _ _ h =>
    { h with processes := congrArg (fun t => ProcessTable.update t pid change) h.processes }

theorem respects_changeProcess (pid : Pid) (change : Process → Process) :
    Respects Concurs (changeProcess pid change) :=
  (respects_process pid).bind fun _ => respects_setProcess pid change

theorem respects_tell (call : HostCall) : Respects Concurs (tell call) :=
  .modify fun _ _ h => { h with dealings := Host.dealings_record h.dealings call }

/-- both hosts give the same answer -/
theorem respects_pollAbort : Respects Concurs pollAbort := by
  intro k₁ k₂ h
  show k₁.host.pollAbort.1 = k₂.host.pollAbort.1 ∧
    Concurs { k₁ with host := k₁.host.pollAbort.2 } { k₂ with host := k₂.host.pollAbort.2 }
  have hdealings := fun answer => Host.dealings_record h.dealings (.abortPoll answer)
  rw [Host.pollAbort_eq, Host.pollAbort_eq, ← h.abortAfter]
  exact ⟨rfl, { h with abortAfter := rfl, dealings := hdealings _ }⟩

theorem respects_checkAbort : Respects Concurs checkAbort :=
  .bind (.lift respects_pollAbort) fun _ =>
    .ite (.bind (.lift (respects_report _ _ _)) fun _ => .fail _) (.pure _)

/-! ## the life of a process -/

theorem respects_freeProcess : Respects Concurs (freeProcess pid) := by
  refine .bind (.lift (respects_process pid)) fun p => ?_
  cases p.space with
  | none => exact .lift (respects_setProcess _ _)
  | some s =>
    exact .bind (.lift (respects_setProcess _ _)) fun _ =>
      .read (fun _ _ h => by rw [h.layout]) fun _ =>
        .bind (respects_onMachine AddressSpace.respects_free) fun _ =>
          .lift (respects_setProcess _ _)

theorem respects_fillSpace {space : AddressSpace} {ofFrame : FrameError → ε}
    {fillIn : Layout → Attempt Machine ε Unit}
    (hfill : ∀ layout, Respects Machine.SameMemory (fillIn layout)) :
    Respects Concurs (fillSpace pid space ofFrame fillIn) :=
  .bind (.lift (respects_changeProcess _ _)) fun _ =>
    .read (fun _ _ h => by rw [h.layout]) fun k =>
      (respects_onMachine (hfill k.layout)).onError fun _ =>
        .bind (respects_freeProcess.mapError _) fun _ => .fail _

/-- a new address space, or there is no memory for it -/
theorem respects_allocate :
    Respects Concurs (onMachine (liftM AddressSpace.allocate : Attempt Machine ε _)) :=
  respects_onMachine (.lift AddressSpace.respects_allocate)

theorem respects_setup (image : ProgramImage) : Respects Concurs (setup pid image) := by
  refine .read (fun _ _ h => by rw [h.processes, h.space]) fun k => .ite (.stop _)
    (.bind (.orFail _ _) fun slot => .ite (.stop _) (.bind respects_allocate fun space? => ?_))
  refine .bind (.orFail _ _) fun space =>
    .bind (respects_fillSpace fun _ => AddressSpace.respects_load _ _) fun _ => ?_
  exact .read (fun _ _ h => by rw [h.layout]) fun _ =>
    .bind (.lift (respects_setProcess _ _)) fun _ => .lift (respects_report _ _ _)

theorem respects_fork (parent : Pid) : Respects Concurs (fork parent) := by
  refine .read (fun _ _ h => by rw [h.processes]) fun k => .bind (.orFail _ _) fun source =>
    .bind (.orFail _ _) fun child => .bind respects_allocate fun target? =>
      .bind (.orFail _ _) fun target => .bind (respects_fillSpace fun _ => ?_) fun _ => ?_
  · exact (AddressSpace.respects_copyInto target).mapError _
  · exact .bind (.lift (respects_process _)) fun p => .bind (.lift (respects_changeProcess _ _))
      fun _ => .bind (.lift (respects_changeProcess _ _)) fun _ =>
        .bind (.lift (respects_report _ _ _)) fun _ => .pure _

theorem respects_pageAlloc (va : VirtualAddress) : Respects Concurs (pageAlloc pid va) :=
  .read (fun _ _ h => by rw [h.processes, h.layout]) fun _ => .ite (.stop _)
    (.bind (.orFail _ _) fun _ =>
      (respects_onMachine (AddressSpace.respects_replace va)).mapError _)

theorem respects_teardown : Respects Concurs (teardown pid) :=
  .ite (.stop _) (.bind (respects_freeProcess.mapError _) fun _ =>
    .read (fun _ _ h => by rw [freeCount, freeCount, h.memory]) fun _ =>
      .lift (respects_report _ _ _))

theorem respects_writeUser (va : VirtualAddress) (bytes : ByteArray) :
    Respects Concurs (writeUser pid va bytes) :=
  .read (fun _ _ h => by rw [h.processes]) fun _ => .bind (.orFail _ _) fun _ =>
    respects_onMachine (AddressSpace.respects_writeFrom _ _ _ _)

/-! ## handing over control -/

theorem respects_checkKernelPages (space : AddressSpace) :
    Respects Concurs (checkKernelPages pid space) := by
  have hpage : ∀ va, Respects Concurs (checkKernelPage pid space va) := fun va =>
    .bind (.lift (respects_inspect _)) fun _ => .ite (.pure _)
      (.bind (.lift (respects_report _ _ _)) fun _ => .fail _)
  exact .read (fun _ _ h => by rw [h.layout]) fun _ => .bind (.liftExcept _) fun _ =>
    .bind (.forSteps (fun w => hpage ⟨w⟩) _ _) fun _ => hpage _

theorem respects_run : Respects Concurs (run pid) :=
  .read (fun _ _ h => by rw [h.processes]) fun _ => .bind (.orFail _ _) fun space =>
    .bind (.modify fun _ _ h => { h with current := rfl }) fun _ =>
      .bind (respects_checkKernelPages space) fun _ => .bind (.lift (respects_process _)) fun _ =>
        .bind (.lift (respects_tell _)) fun _ => .pure _

/-! ## loading programs -/

theorem respects_setupAll (images : List ProgramImage) (pid : Pid) :
    Respects Concurs (setupAll pid images) := by
  induction images generalizing pid with
  | nil => exact .pure _
  | cons image later ih =>
    exact .bind ((respects_setup image).onError fun _ =>
      .bind (.lift (respects_report _ _ _)) fun _ => .fail _) fun _ => ih _

theorem respects_boot (registry : ProgramRegistry) (command : Option String) :
    Respects Concurs (boot registry command) :=
  .bind (.ofResult _) fun _ => .ite (.stop _)
    (.bind (respects_setupAll _ _) fun _ => respects_run)

/-! ## parts of an entry -/

theorem respects_save (registers : Registers) : Respects Concurs (save registers) :=
  .read (fun _ _ h => by rw [h.current]) fun _ =>
    .bind (respects_changeProcess _ _) fun _ => .pure _

/-- both hosts tell the same address -/
theorem respects_decodeTrap (registers : Registers) : Respects Concurs (decodeTrap registers) :=
  .read (fun _ _ h => by rw [h.faultAddress]) fun _ =>
    .ite (.bind (respects_tell _) fun _ => .pure _) (.pure _)

theorem respects_pageFault (rip : UInt64) (va : VirtualAddress) (code : FaultCode) :
    Respects Concurs (pageFault pid rip va code) :=
  .ite (.bind (.lift (respects_report _ _ _)) fun _ => .lift (respects_changeProcess _ _))
    (.bind (.lift (respects_report _ _ _)) fun _ => .fail _)

theorem respects_setResult (value : UInt64) : Respects Concurs (setResult pid value) :=
  respects_changeProcess _ _

theorem respects_decodeCall (registers : Registers) :
    Respects Concurs (decodeCall pid registers) := by
  unfold decodeCall
  cases Syscall.decode registers with
  | ok call => exact .bind (.lift (respects_report _ _ _)) fun _ => .pure _
  | error e => exact .bind (.lift (respects_report _ _ _)) fun _ => .fail _

theorem respects_panicCall (va : VirtualAddress) : Respects Concurs (panicCall pid va) := by
  have hmessage : Respects Concurs (panicMessage pid va) := by
    refine .ite (.pure _) ((respects_process pid).bind fun p => ?_)
    cases p.space with
    | some space => exact (respects_inspect _).bind fun _ => .pure _
    | none => exact .pure _
  exact .bind (.lift hmessage) fun _ => .bind (.lift (respects_report _ _ _)) fun _ => .fail _

end Kernel

end PagedKernel
