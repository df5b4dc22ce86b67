import PagedKernel.Proofs.Placement.Lifecycle

/-!
# Twins are entered

Whatever is asked of twins they answer alike, or the log of one of them tells of a frame that it
lacked.  A system call may make of the lack an answer for the process; then the log still tells of
it.

* `Kernel.Twins.exception`, …     steps of an entry that twins take together
* `Indifferent size x`            a computation that comes to the same on twins, unless the log
  tells of a lack
* `Indifferent.syscall`           so does a system call
-/

namespace PagedKernel

namespace Kernel

variable {size : UInt64} {k₁ k₂ : Kernel} {pid : Nat} {L : Halt → Prop}

namespace Twins

/-! ## interrupts -/

theorem save (h : Twins size k₁ k₂) (registers : Registers) :
    Lockstep NoneLost size (save registers) (save registers) k₁ k₂ := by
  refine EndAlike.bind_ok k₁ k₂ rfl rfl ?_
  dsimp only
  rw [← h.current]
  exact Lockstep.bind (h.changeProcess_of_runs (fun _ _ => rfl) (fun _ => rfl) fun _ hrun => hrun)
    fun _ _ _ h => .pure h

theorem setResult (h : Twins size k₁ k₂) (pid : Pid) (value : UInt64) :
    Lockstep NoneLost size (setResult pid value) (setResult pid value) k₁ k₂ :=
  h.changeProcess_of_runs (fun _ _ => rfl) (fun _ => rfl) fun _ hrun => hrun

/-- both hosts tell the same address -/
theorem decodeTrap (h : Twins size k₁ k₂) (registers : Registers) :
    Lockstep NoneLost size (decodeTrap registers) (decodeTrap registers) k₁ k₂ := by
  refine EndAlike.bind_ok k₁ k₂ rfl rfl ?_
  dsimp only
  rw [← h.faultAddress]
  exact EndAlike.ite Iff.rfl (fun _ => Lockstep.bind (h.tell _ _) fun _ _ _ h => .pure h)
    fun _ => Lockstep.pure h

theorem timerTick (h : Twins size k₁ k₂) :
    Lockstep (Lost L) size timerTick timerTick k₁ k₂ := by
  refine EndAlike.bind_ok k₁ k₂ rfl rfl ?_
  rw [← h.ticks]
  refine Lockstep.bind (.liftExcept _ h) fun ticks k₁ k₂ h => ?_
  refine EndAlike.bind_ok { k₁ with ticks } { k₂ with ticks } rfl rfl ?_
  have h' : Twins size { k₁ with ticks } { k₂ with ticks } :=
    h.of_rests ⟨rfl, rfl, rfl, rfl, h.valid₁.current, h.valid₁.shown⟩
      ⟨rfl, rfl, rfl, rfl, h.valid₂.current, h.valid₂.shown⟩ h.current rfl h.viewer h.faultAddress
      h.abortAfter
  exact Lockstep.bind (.lift (h'.tell _ _)) fun _ _ _ h => h.schedule

theorem pageFault (h : Twins size k₁ k₂) (pid : Pid) (rip : UInt64) (va : VirtualAddress)
    (code : FaultCode) :
    Lockstep (Lost L) size (pageFault pid rip va code) (pageFault pid rip va code) k₁ k₂ := by
  refine EndAlike.ite Iff.rfl (fun _ => ?_) fun _ => ?_
  · refine Lockstep.bind (.lift (h.report _ _ _ _)) fun _ _ _ h => .lift ?_
    exact h.changeProcess_of_runs (fun _ _ => rfl) (fun _ => rfl) fun _ hrun => by cases hrun
  · exact Lockstep.bind (.lift (h.report _ _ _ _)) fun _ _ _ h => .fail h

theorem exception (h : Twins size k₁ k₂) (registers : Registers) :
    Lockstep (Lost L) size (exception registers) (exception registers) k₁ k₂ := by
  refine .bind (.lift (h.save registers)) fun pid _ _ h => ?_
  refine .bind (.lift (h.decodeTrap registers)) fun trap k₁ k₂ h => ?_
  -- what is done for the trap, whether memory has been shown before or not
  suffices hrest : ∀ k₁ k₂, Twins size k₁ k₂ → Lockstep (Lost L) size _ _ k₁ k₂ from
    EndAlike.ite Iff.rfl
      (fun _ => Lockstep.bind (.lift h.showMemory) fun _ k₁ k₂ h => hrest k₁ k₂ h)
      fun _ => hrest k₁ k₂ h
  intro k₁ k₂ h
  refine .bind h.checkAbort fun _ _ _ h => ?_
  cases trap with
  | timer => exact h.timerTick
  | pageFault va code => exact .bind (h.pageFault _ _ _ _) fun _ _ _ h => h.resume
  | unexpected vector code => exact .bind (.lift (h.report _ _ _ _)) fun _ _ _ h => .fail h

/-! ## system calls -/

theorem decodeCall (h : Twins size k₁ k₂) (pid : Pid) (registers : Registers) :
    Lockstep (Lost L) size (decodeCall pid registers) (decodeCall pid registers) k₁ k₂ := by
  unfold Kernel.decodeCall
  cases Syscall.decode registers with
  | ok call => exact .bind (.lift (h.report _ _ _ _)) fun _ _ _ h => .pure h
  | error e => exact .bind (.lift (h.report _ _ _ _)) fun _ _ _ h => .fail h

/-- both processes say the same -/
theorem panicMessage (h : Twins size k₁ k₂) (pid : Pid) (va : VirtualAddress) :
    Lockstep NoneLost size (panicMessage pid va) (panicMessage pid va) k₁ k₂ := by
  unfold Kernel.panicMessage
  refine EndAlike.ite Iff.rfl (fun _ => Lockstep.pure h) fun _ => ?_
  refine EndAlike.bind (h.process pid) ?_
  rintro p₁ p₂ _ _ ⟨rfl, rfl, hp₁, hp₂, heq⟩
  have hspaces := Process.isSome_of_anonymous heq
  cases hs₁ : p₁.space with
  | none =>
    rw [hs₁, eq_comm, Option.isSome_none, Option.isSome_eq_false_iff, Option.isNone_iff_eq_none]
      at hspaces
    rw [hspaces]
    exact Lockstep.pure h
  | some s₁ =>
    rw [hs₁, eq_comm, Option.isSome_some, Option.isSome_iff_exists] at hspaces
    obtain ⟨s₂, hs₂⟩ := hspaces
    rw [hs₂]
    have hmem₁ := (ProcessTable.space?_of_get? hp₁).trans hs₁
    have hmem₂ := (ProcessTable.space?_of_get? hp₂).trans hs₂
    refine Lockstep.bind (.inspect h ?_) fun _ _ _ h => .pure h
    exact (h.alike hmem₁ hmem₂).readText (h.valid₁.furnished hmem₁) (h.furnished₂ hmem₂) va

theorem panicCall (h : Twins size k₁ k₂) (pid : Pid) (va : VirtualAddress) :
    Lockstep (Lost L) size (panicCall pid va) (panicCall pid va) k₁ k₂ :=
  .bind (.lift (h.panicMessage pid va)) fun _ _ _ h => .bind (.lift (h.report _ _ _ _))
    fun _ _ _ h => .fail h

end Twins

end Kernel

/-! ## what comes to the same -/

/-- a computation that comes to the same on twins, unless the log of one of them tells of a frame
that it lacked; and the log is not taken back -/
structure Indifferent {ε α : Type} (size : UInt64) (x : EStateM ε Kernel α) : Prop where
  lasting : Lasting x
  alike : ∀ k₁ k₂, Kernel.Twins size k₁ k₂ → (leave x k₁).Starved ∨ (leave x k₂).Starved ∨
    Kernel.Lockstep NoneLost size x x k₁ k₂

namespace Indifferent

variable {ε α β : Type} {size : UInt64} {k : Kernel} {pid : Pid}

theorem of_lockstep {L : ε → Prop} {x : Attempt Kernel ε α}
    (hx : Honest Kernel.Starved (Lost L) x)
    (h : ∀ k₁ k₂, Kernel.Twins size k₁ k₂ → Kernel.Lockstep (Lost L) size x x k₁ k₂) :
    Indifferent size x := by
  refine ⟨.of_honest hx, fun k₁ k₂ htwins => ?_⟩
  have htold : ∀ k e k', x k = .error e k' → Lost L e → (leave x k).Starved := by
    intro k e k' hrun he
    rw [leave_of_error hrun]
    exact (hx k).error hrun (.inr he)
  exact (h k₁ k₂ htwins).lost_or.imp (fun ⟨e, k', hrun, he⟩ => htold k₁ e k' hrun he)
    (Or.imp (fun ⟨e, k', hrun, he⟩ => htold k₂ e k' hrun he) id)

/-- a lack of frames that is made an answer is still told by the log -/
theorem outcome {L : ε → Prop} {x : Attempt Kernel ε α} (hx : Honest Kernel.Starved (Lost L) x)
    (h : ∀ k₁ k₂, Kernel.Twins size k₁ k₂ → Kernel.Lockstep (Lost L) size x x k₁ k₂) :
    Indifferent size (liftM x.outcome : Attempt Kernel Halt (Except ε α)) := by
  refine ⟨.outcome hx, fun k₁ k₂ htwins => ?_⟩
  have htold : ∀ k e k', x k = .error e k' → Lost L e →
      (leave (liftM x.outcome : Attempt Kernel Halt (Except ε α)) k).Starved := by
    intro k e k' hrun he
    have hstarved := (hx k).error hrun (.inr he)
    cases e with
    | panic p => exact he.elim
    | error e =>
      have hanswer : (liftM x.outcome : Attempt Kernel Halt (Except ε α)) k
          = .ok (.error e) k' := by
        show x.outcome.toAttempt k = _
        rw [Action.toAttempt, Attempt.outcome, hrun]
      rw [leave_of_ok hanswer]
      exact hstarved
  rcases (h k₁ k₂ htwins).lost_or with ⟨e, k', hrun, he⟩ | ⟨e, k', hrun, he⟩ | halike
  · exact .inl (htold k₁ e k' hrun he)
  · exact .inr (.inl (htold k₂ e k' hrun he))
  refine .inr (.inr ?_)
  refine EndAlike.lift (EndAlike.outcome halike ?_ (fun _ _ _ h => ⟨rfl, h⟩) fun _ _ _ h => h)
  rintro a _ _ _ ⟨rfl, h⟩
  exact ⟨rfl, h⟩

theorem bind {x : EStateM ε Kernel α} {f : α → EStateM ε Kernel β} (hx : Indifferent size x)
    (hf : ∀ a, Indifferent size (f a)) : Indifferent size (x >>= f) := by
  refine ⟨hx.lasting.bind fun a => (hf a).lasting, fun k₁ k₂ htwins => ?_⟩
  -- what the first step has told the rest does not take back
  have htold : ∀ k, (leave x k).Starved → (leave (x >>= f) k).Starved := by
    intro k hs
    cases hrun : x k with
    | ok a k' =>
      rw [leave_of_ok hrun] at hs
      have hrest := ((hf a).lasting k').mono (fun _ _ h => h hs) fun _ _ h => h hs
      rw [leave, bind_of_ok hrun]
      exact hrest.leave
    | error e k' =>
      rw [leave_of_error hrun] at hs
      rw [leave_of_error (bind_of_error hrun)]
      exact hs
  rcases hx.alike k₁ k₂ htwins with hs | hs | hlock
  · exact .inl (htold k₁ hs)
  · exact .inr (.inl (htold k₂ hs))
  · cases hrun₁ : x k₁ with
    | ok a k₁' =>
      cases hrun₂ : x k₂ with
      | ok b k₂' =>
        obtain ⟨rfl, h'⟩ := hlock.ok hrun₁ hrun₂
        rw [leave, leave, bind_of_ok hrun₁, bind_of_ok hrun₂]
        exact ((hf a).alike k₁' k₂' h').imp id
          (Or.imp id fun h => EndAlike.bind_ok _ _ hrun₁ hrun₂ h)
      | error e k₂' => exact (hlock.second hrun₁ hrun₂).elim
    | error e k₁' =>
      cases hrun₂ : x k₂ with
      | ok b k₂' => exact (hlock.first hrun₁ hrun₂).elim
      | error e' k₂' =>
        refine .inr (.inr ?_)
        unfold Kernel.Lockstep EndAlike
        rw [bind_of_error hrun₁, bind_of_error hrun₂]
        exact hlock.stopped hrun₁ hrun₂

/-! ## system calls -/

open Kernel

/-- a process is told that its call failed -/
theorem refused (pid : Pid) (text : String) :
    Indifferent size (do
      report .debug "kernel::syscall" text
      setResult pid Registers.failed
      resume : Attempt Kernel Halt Dispatch) :=
  of_lockstep (L := Halt.IsShort)
    (.bind (.lift (honest_report _ _ (by decide))) fun _ =>
      .bind (.lift (honest_setResult _)) fun _ => honest_resume)
    fun _ _ h => .bind (.lift (h.report _ _ _ _)) fun _ _ _ h =>
      .bind (.lift (h.setResult _ _)) fun _ _ _ h => h.resume

theorem pageAllocCall (va : VirtualAddress) : Indifferent size (pageAllocCall pid va) := by
  refine (outcome (honest_pageAlloc va) fun _ _ h => h.pageAlloc pid va).bind fun result => ?_
  rcases result with (va | pid | (_ | e)) | ⟨⟩
  · exact refused _ _
  · exact refused _ _
  · exact refused _ _
  · exact of_lockstep (L := Halt.IsShort) (.exit id) fun _ _ h => .exit h
  · exact of_lockstep (L := Halt.IsShort)
      (.bind (.lift (honest_setResult _)) fun _ => honest_resume)
      fun _ _ h => .bind (.lift (h.setResult _ _)) fun _ _ _ h => h.resume

theorem forkCall : Indifferent size (forkCall pid) := by
  refine (outcome (honest_fork pid) fun _ _ h => h.fork pid).bind fun result => ?_
  rcases result with (_ | pid | (_ | e)) | child
  · exact refused _ _
  · exact refused _ _
  · exact refused _ _
  · exact of_lockstep (L := Halt.IsShort) (.exit id) fun _ _ h => .exit h
  · exact of_lockstep (L := Halt.IsShort) honest_resume fun _ _ h => h.resume

/-- a system call comes to the same on twins -/
theorem syscall (registers : Registers) : Indifferent size (syscall registers) := by
  refine (of_lockstep (L := Halt.IsShort) (.lift (honest_save registers))
    fun _ _ h => .lift (h.save registers)).bind fun pid => ?_
  refine (of_lockstep (L := Halt.IsShort) (.lift honest_showMemory)
    fun _ _ h => .lift h.showMemory).bind fun _ => ?_
  refine (of_lockstep honest_checkAbort fun _ _ h => h.checkAbort).bind fun _ => ?_
  refine (of_lockstep (honest_decodeCall registers)
    fun _ _ h => h.decodeCall pid registers).bind fun call => ?_
  cases call with
  | getPid =>
    exact of_lockstep (L := Halt.IsShort)
      (.bind (.lift (honest_setResult _)) fun _ => honest_resume)
      fun _ _ h => .bind (.lift (h.setResult _ _)) fun _ _ _ h => h.resume
  | yield =>
    exact of_lockstep (L := Halt.IsShort)
      (.bind (.lift (honest_setResult _)) fun _ => honest_schedule)
      fun _ _ h => .bind (.lift (h.setResult _ _)) fun _ _ _ h => h.schedule
  | panic message =>
    exact of_lockstep (honest_panicCall message) fun _ _ h => h.panicCall pid message
  | pageAlloc va => exact pageAllocCall va
  | fork => exact forkCall
  | exit =>
    refine (of_lockstep (L := fun _ => False) honest_teardown
      fun _ _ h => h.teardown pid).bind fun _ => ?_
    exact of_lockstep honest_schedule fun _ _ h => h.schedule

end Indifferent

end PagedKernel
