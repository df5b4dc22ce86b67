import PagedKernel.Proofs.Kernel.Reachable
import PagedKernel.Proofs.Placement.Honest

/-!
# Kernels that ran out of frames

An operation that fails for want of memory has told the log, and what the log tells is not taken
back.

* `Kernel.Starved`          the log tells of a frame that could not be handed out
* `Kernel.honest_setup`, `Kernel.honest_fork`, …   who fails for want of memory has told the log
* `Lasting x`               a computation that does not take back what the log tells
* `Kernel.not_starved_of_started`   a kernel that has just started has had all its frames
-/

namespace PagedKernel

/-- a frame was asked for when none was free -/
def Kernel.Starved (k : Kernel) : Prop := k.machine.Starved

/-- programs could not be loaded as no frame was free -/
def Halt.IsShort : Halt → Prop
  | .setup _ e => e.IsShort
  | _ => False

/-! ## the steps of the kernel -/

namespace Kernel

variable {ε α : Type} {L : ε → Prop} {pid : Pid}

theorem honest_onMachine {bad : ε → Prop} {x : EStateM ε Machine α}
    (hx : Honest Machine.Starved bad x) : Honest Starved bad (onMachine x) := fun k =>
  ends_onMachine.2 (hx k.machine)

theorem honest_inspect {P : Kernel → Prop} (question : Memory → Except Panic α) :
    Honest P NoneLost (inspect question) := by
  intro k
  unfold Ends inspect
  cases question k.machine.toMemory with
  | ok a => exact Iff.rfl
  | error p => exact fun hs => hs.resolve_right id

theorem honest_report (severity : Severity) {target : String} (message : String)
    (h : target ≠ outOfFrames.target) : Honest Starved NoneLost (report severity target message) :=
  honest_onMachine (Machine.honest_record severity message h)

theorem honest_process {P : Kernel → Prop} (pid : Pid) : Honest P NoneLost (process pid) :=
  .bind .get fun _ => .ofExcept _

theorem honest_setProcess (pid : Pid) (change : Process → Process) :
    Honest Starved NoneLost (setProcess pid change) := .modify fun _ => Iff.rfl

theorem honest_changeProcess (pid : Pid) (change : Process → Process) :
    Honest Starved NoneLost (changeProcess pid change) :=
  (honest_process pid).bind fun _ => honest_setProcess pid change

theorem honest_tell (call : HostCall) : Honest Starved NoneLost (tell call) :=
  .modify fun _ => Iff.rfl

theorem honest_showMemory : Honest Starved NoneLost showMemory :=
  .bind .get fun _ => .bind (.ofExcept _) fun _ => .modify fun _ => Iff.rfl

theorem honest_checkAbort : Honest Starved (Lost Halt.IsShort) checkAbort :=
  .bind (.lift fun _ => Iff.rfl) fun _ =>
    .ite (.bind (.lift (honest_report _ _ (by decide))) fun _ => .fail id) (.pure _)

/-! ## the life of a process -/

theorem honest_freeProcess : Honest Starved (Lost fun _ => False) (freeProcess pid) := by
  refine .bind (.lift (honest_process pid)) fun p => ?_
  cases p.space with
  | none => exact .lift (honest_setProcess _ _)
  | some s =>
    exact .bind (.lift (honest_setProcess _ _)) fun _ => .bind .get fun _ =>
      .bind (honest_onMachine AddressSpace.tells_free) fun _ => .lift (honest_setProcess _ _)

theorem honest_fillSpace {space : AddressSpace} {ofFrame : FrameError → ε}
    {fillIn : Layout → Attempt Machine ε Unit} (hfill : ∀ layout, Tells L (fillIn layout))
    (hframe : ∀ e, ¬ L (ofFrame e)) :
    Honest Starved (Lost L) (fillSpace pid space ofFrame fillIn) :=
  .bind (.lift (honest_changeProcess _ _)) fun _ => .bind .get fun k =>
    (honest_onMachine (hfill k.layout)).rethrow
      (fun _ => honest_freeProcess.mapError fun e h => hframe e h) fun _ => id

/-- a new address space, or there is no memory for it -/
theorem honest_allocate {e : ε} {f : AddressSpace → Attempt Kernel ε α}
    (hf : ∀ space, Honest Starved (Lost L) (f space)) :
    Honest Starved (Lost L) (onMachine (liftM AddressSpace.allocate : Attempt Machine ε _) >>=
      fun space? => Attempt.orFail space? e >>= f) := by
  intro k
  refine ends_bind.2 (ends_onMachine.2 (ends_lift.2
    ((AddressSpace.ends_allocate_starved k.machine).mono (fun space? m h => ?_) fun _ _ h hs =>
      h (hs.resolve_right id))))
  cases space? with
  | some space =>
    rw [or_iff_left (Option.some_ne_none space)] at h
    exact (hf space _).mono (fun _ _ h' => h'.trans h) fun _ _ h' hs => h' (hs.imp h.2 id)
  | none => exact fun _ => h.2 (.inr rfl)

theorem honest_setup (image : ProgramImage) :
    Honest Starved (Lost SetupError.IsShort) (setup pid image) := by
  refine .bind .get fun k => .ite (.exit id)
    (.bind (.orFail _ id) fun slot => .ite (.exit id) ?_)
  refine honest_allocate fun space => .bind (honest_fillSpace ?_ fun _ => id) fun _ =>
    .bind .get fun _ => .bind (.lift (honest_setProcess _ _)) fun _ =>
      .lift (honest_report _ _ (by decide))
  exact fun _ => AddressSpace.tells_load _ _

theorem honest_fork (parent : Pid) : Honest Starved (Lost ForkError.IsShort) (fork parent) := by
  refine .bind .get fun k => .bind (.orFail _ id) fun source => .bind (.orFail _ id) fun child =>
    honest_allocate fun target => .bind (honest_fillSpace ?_ fun _ => id) fun _ =>
      .bind (.lift (honest_process _)) fun p => .bind (.lift (honest_changeProcess _ _)) fun _ =>
        .bind (.lift (honest_changeProcess _ _)) fun _ =>
          .bind (.lift (honest_report _ _ (by decide))) fun _ => .pure _
  exact fun _ => (AddressSpace.tells_copyInto target).mapError fun _ => id

theorem honest_pageAlloc (va : VirtualAddress) :
    Honest Starved (Lost PageAllocError.IsShort) (pageAlloc pid va) :=
  .bind .get fun _ => .ite (.exit id) (.bind (.orFail _ id) fun _ =>
    (honest_onMachine (AddressSpace.tells_replace va)).mapError fun _ => id)

theorem honest_teardown : Honest Starved (Lost fun _ => False) (teardown pid) :=
  .ite (.exit id) (.bind (honest_freeProcess.mapError fun _ => id)
    fun _ => .bind .get fun _ => .lift (honest_report _ _ (by decide)))

theorem honest_writeUser (va : VirtualAddress) (bytes : ByteArray) :
    Honest Starved (Lost fun _ => False) (writeUser pid va bytes) :=
  .bind .get fun _ => .bind (.orFail _ id) fun _ =>
    honest_onMachine (AddressSpace.tells_writeFrom _ _ _ _)

/-! ## handing over control -/

theorem honest_run : Honest Starved (Lost Halt.IsShort) (run pid) := by
  have hpage : ∀ space va, Honest Starved (Lost Halt.IsShort) (checkKernelPage pid space va) :=
    fun space va => .bind (.lift (honest_inspect _)) fun _ => .ite (.pure _)
      (.bind (.lift (honest_report _ _ (by decide))) fun _ => .fail id)
  have hpages : ∀ space, Honest Starved (Lost Halt.IsShort) (checkKernelPages pid space) :=
    fun space => .bind .get fun _ => .bind (.liftExcept _) fun _ =>
      .bind (.forSteps (fun w => hpage space ⟨w⟩) _ _) fun _ => hpage space _
  exact .bind .get fun _ => .bind (.orFail _ id) fun space => .bind (.modify fun _ => Iff.rfl)
    fun _ => .bind (hpages space) fun _ => .bind (.lift (honest_process _)) fun _ =>
      .bind (.lift (honest_tell _)) fun _ => .pure _

theorem honest_waitFor (rounds : UInt32) (left : Nat) :
    Honest Starved (Lost Halt.IsShort) (waitFor rounds left) := by
  induction left generalizing rounds with
  | zero => exact .stop id
  | succ left ih =>
    refine .bind honest_checkAbort fun _ => .bind .get fun k => ?_
    suffices hrest : Honest Starved (Lost Halt.IsShort) _ from
      .ite (.bind (.lift (honest_report _ _ (by decide))) fun _ =>
        .bind (.lift honest_showMemory) fun _ => hrest) hrest
    exact .ite (.bind (.lift (honest_report _ _ (by decide))) fun _ => .pure _) (ih _)

theorem honest_schedule : Honest Starved (Lost Halt.IsShort) schedule := by
  refine .bind .get fun k => .bind (.liftExcept _) fun next? => ?_
  cases next? with
  | some pid => exact honest_run
  | none => exact honest_waitFor _ _

theorem honest_resume : Honest Starved (Lost Halt.IsShort) resume :=
  .bind .get fun _ => .bind (.lift (honest_process _)) fun _ => .ite honest_run honest_schedule

/-! ## loading programs -/

theorem honest_setupAll (images : List ProgramImage) (pid : Pid) :
    Honest Starved (Lost Halt.IsShort) (setupAll pid images) := by
  induction images generalizing pid with
  | nil => exact .pure _
  | cons image later ih =>
    refine .bind ((honest_setup image).rethrow (fun _ => .lift (honest_report _ _ (by decide)))
      fun _ => id) fun _ => ih _

theorem honest_boot (registry : ProgramRegistry) (command : Option String) :
    Honest Starved (Lost Halt.IsShort) (boot registry command) := by
  have hchosen : ∀ e, chosen registry command = .error e → ¬ e.IsShort := by
    unfold chosen
    intro e he
    split at he
    · split at he
      · cases he
      · cases he
        exact id
    · cases he
  cases hcase : chosen registry command with
  | error e =>
    unfold boot
    rw [hcase]
    exact .exit (hchosen e hcase)
  | ok images =>
    unfold boot
    rw [hcase]
    exact .bind (.pure _) fun _ => .ite (.exit id)
      (.bind (honest_setupAll _ _) fun _ => honest_run)

/-! ## entering the kernel -/

theorem honest_save (registers : Registers) : Honest Starved NoneLost (save registers) :=
  .bind .get fun _ => (honest_changeProcess _ _).bind fun _ => .pure _

theorem honest_setResult (value : UInt64) : Honest Starved NoneLost (setResult pid value) :=
  honest_changeProcess _ _

theorem honest_exception (registers : Registers) :
    Honest Starved (Lost Halt.IsShort) (exception registers) := by
  have htrap : Honest Starved NoneLost (decodeTrap registers) :=
    .bind .get fun _ => .ite (.bind (honest_tell _) fun _ => .pure _) (.pure _)
  have htick : Honest Starved (Lost Halt.IsShort) timerTick :=
    .bind .get fun _ => .bind (.liftExcept _) fun _ => .bind (.modify fun _ => Iff.rfl) fun _ =>
      .bind (.lift (honest_tell _)) fun _ => honest_schedule
  have hfault : ∀ pid va code,
      Honest Starved (Lost Halt.IsShort) (pageFault pid registers.rip va code) := fun pid va code =>
    .ite (.bind (.lift (honest_report _ _ (by decide))) fun _ => .lift (honest_changeProcess _ _))
      (.bind (.lift (honest_report _ _ (by decide))) fun _ => .fail id)
  refine .bind (.lift (honest_save registers)) fun pid => .bind (.lift htrap) fun trap => ?_
  suffices hrest : Honest Starved (Lost Halt.IsShort) _ from
    .ite (.bind (.lift honest_showMemory) fun _ => hrest) hrest
  refine honest_checkAbort.bind fun _ => ?_
  cases trap with
  | timer => exact htick
  | pageFault va code => exact (hfault pid va code).bind fun _ => honest_resume
  | unexpected vector code => exact .bind (.lift (honest_report _ _ (by decide))) fun _ => .fail id

theorem honest_decodeCall (registers : Registers) :
    Honest Starved (Lost Halt.IsShort) (decodeCall pid registers) := by
  unfold decodeCall
  cases Syscall.decode registers with
  | ok call => exact .bind (.lift (honest_report _ _ (by decide))) fun _ => .pure _
  | error e => exact .bind (.lift (honest_report _ _ (by decide))) fun _ => .fail id

theorem honest_panicCall (va : VirtualAddress) :
    Honest Starved (Lost Halt.IsShort) (panicCall pid va) := by
  have hmessage : Honest Starved NoneLost (panicMessage pid va) := by
    refine .ite (.pure _) ((honest_process pid).bind fun p => ?_)
    cases p.space with
    | some space => exact (honest_inspect _).bind fun _ => .pure _
    | none => exact .pure _
  exact .bind (.lift hmessage) fun _ => .bind (.lift (honest_report _ _ (by decide))) fun _ =>
    .fail id

end Kernel

/-! ## what the log tells stays -/

/-- a computation that does not take back what the log tells -/
def Lasting {ε α : Type} (x : EStateM ε Kernel α) : Prop :=
  ∀ k, Ends x k (fun _ k' => k.Starved → k'.Starved) fun _ k' => k.Starved → k'.Starved

namespace Lasting

variable {ε α β : Type}

theorem of_honest {bad : ε → Prop} {x : EStateM ε Kernel α} (hx : Honest Kernel.Starved bad x) :
    Lasting x := fun k =>
  (hx k).mono (fun _ _ h => h.2) fun _ _ h hs => h (.inl hs)

theorem bind {x : EStateM ε Kernel α} {f : α → EStateM ε Kernel β} (hx : Lasting x)
    (hf : ∀ a, Lasting (f a)) : Lasting (x >>= f) := fun k =>
  ends_bind.2 <| (hx k).mono
    (fun a k' h => (hf a k').mono (fun _ _ h' hs => h' (h hs)) fun _ _ h' hs => h' (h hs))
    fun _ _ h => h

/-- the error of an honest computation as a value -/
theorem outcome {L : ε → Prop} {x : Attempt Kernel ε α} (hx : Honest Kernel.Starved (Lost L) x) :
    Lasting (liftM x.outcome : Attempt Kernel Halt (Except ε α)) := fun k =>
  ends_lift.2 <| ends_outcome.2 <| (hx k).mono (fun _ _ h => h.2) fun e _ h => by
    cases e with
    | error e => exact fun hs => h (.inl hs)
    | panic p => exact fun hs => h (.inl hs)

end Lasting

/-! ## starting -/

namespace Kernel

/-- the kernel's own space is built only with all the frames that it needs -/
theorem ends_buildSpace_starved (l : Layout) (m : Machine) :
    Ends (buildSpace l) m (fun _ m' => m'.Starved ↔ m.Starved) fun _ _ => True := by
  have hpage : ∀ (space : AddressSpace) (w : UInt64) (m : Machine),
      Ends (space.mapOrPanic ⟨w⟩ (Address.mk w : PhysicalAddress).page (identityPermissions l w)) m
        (fun _ m' => m'.Starved ↔ m.Starved) fun _ _ => True := by
    intro space w m
    refine ends_bind.2 (ends_outcome.2 ((space.tells_map _ _ _ m).mono (fun _ _ h => h) ?_))
    intro e m' _
    cases e <;> trivial
  refine ends_bind.2 (ends_lift.2 ((AddressSpace.ends_allocate_starved m).mono
    (fun space? m₁ h₁ => ?_) fun _ _ _ => trivial))
  cases space? with
  | none => trivial
  | some space =>
    rw [or_iff_left (Option.some_ne_none space)] at h₁
    have hloop : Ends (mapIdentity space l) m₁ (fun _ m₂ => m₂.Starved ↔ m.Starved)
        fun _ _ => True := by
      unfold mapIdentity
      refine Ends.forSteps (fun _ (m₂ : Machine) => m₂.Starved ↔ m.Starved) h₁ fun _ _ m₂ h₂ => ?_
      exact (hpage space _ m₂).mono (fun _ _ h => h.trans h₂) fun _ _ h => h
    rw [ends_bind, ends_orFail_some, ends_bind, ends_lift]
    refine hloop.mono (fun _ m₂ h₂ => ?_) fun _ _ _ => trivial
    rw [ends_bind, ends_get, ends_bind, ends_lift]
    exact (Machine.honest_record _ _ (by decide) m₂).mono (fun _ _ h => ends_pure.2 (h.trans h₂))
      fun _ _ _ => trivial

/-- a kernel that has just started has had all the frames that it asked for -/
theorem not_starved_of_started {host : Host} {config : KernelConfig} {k : Kernel}
    (h : start host config = .started k) : ¬ k.Starved := by
  obtain ⟨mem, machine, space, -, hbuild, rfl⟩ := built_of_started h
  exact mt ((ends_buildSpace_starved config.layout _).ok hbuild).1 (Array.not_mem_empty _)

end Kernel

end PagedKernel
