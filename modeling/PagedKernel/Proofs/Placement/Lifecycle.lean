import PagedKernel.Proofs.Placement.Loading
import PagedKernel.Proofs.Placement.Starved
import PagedKernel.Proofs.Placement.Twins

/-!
# The life of twins

What is done for a process does the same to both twins, and they are twins again, unless a frame was
lacking on one of the machines.

* `Kernel.Twins.fillSpace`   a new address space is filled on both, or given back on both
* `Kernel.Twins.setup`, `Kernel.Twins.fork`, `Kernel.Twins.pageAlloc`, `Kernel.Twins.teardown`,
  `Kernel.Twins.writeUser`   the operations
-/

namespace PagedKernel

namespace Kernel

variable {size : UInt64} {k k₁ k₂ : Kernel} {pid : Nat} {r r₁ r₂ : Frame} {m m₁ m₂ : Machine}
  {p p₁ p₂ : Process} {s s₁ s₂ : AddressSpace}

/-! ## new address spaces -/

/-- a computation that fills a new address space.  Even if it fails the others keep what they have
-/
def Fills {ε : Type} (k : Kernel) (r : Frame) (m : Machine) (x : Attempt Machine ε Unit) : Prop :=
  Ends x m
    (fun _ m' => Sound k.layout k.space.root (insert r k.processes.roots) [] m'.toMemory ∧
      Keeps k.layout k.space.root k.processes.roots m.toMemory m'.toMemory ∧
      Complete k.layout r m'.toMemory)
    (Fails fun _ m' =>
      Sound k.layout k.space.root (insert r k.processes.roots) [] m'.toMemory ∧
      Keeps k.layout k.space.root k.processes.roots m.toMemory m'.toMemory)

/-- what is left of a filling is what it left by itself -/
theorem Fills.ends_fillSpace {ε : Type} {ofFrame : FrameError → ε}
    {fillIn : Layout → Attempt Machine ε Unit} (hfill : Fills k r m (fillIn k.layout))
    (h : k.Valid ∅) (hp : k.processes.get? pid = some p) (hvacant : p.isVacant = true)
    (hzero : pid ≠ 0) (hnew : NewSpace k r m) :
    Ends (fillSpace pid ⟨r⟩ ofFrame fillIn) { k with machine := m }
      (fun _ k' => Serves pid k k' ∧
        k'.processes.get? pid = some { p with space := some ⟨r⟩ } ∧
        fillIn k.layout m = .ok () k'.machine)
      (Fails fun e k' =>
        (∃ mem, (∃ m', fillIn k.layout m = .error (.error e) m' ∧ m'.toMemory = mem) ∧
          k'.memory.contents = mem.contents) ∧
        Serves pid k k' ∧ k'.processes.get? pid = some p.vacated) := by
  refine Kernel.ends_fillSpace (D := fun m' => fillIn k.layout m = .ok () m') h hp hvacant hzero
    hnew (hfill.mono_eq (fun _ _ hx hq => ⟨⟨hq.1, hq.2.1⟩, hq.2.2, hx⟩) fun e m' hx he => ?_)
  cases e with
  | error e => exact ⟨⟨m', hx, rfl⟩, he.1, he.2⟩
  | panic p => exact he

theorem NewSpace.fills_load (h : NewSpace k r m) (image : ProgramImage) :
    Fills k r m ((AddressSpace.mk r).load k.space k.layout image) :=
  (h.ends_load image).mono (fun _ _ hq => ⟨hq.1.sound, hq.1.keeps, hq.2.1⟩)
    (Fails.mono fun _ _ he => ⟨he.1.sound, he.1.keeps⟩)

theorem NewSpace.fills_copyInto (h : NewSpace k r m) (hv : k.Valid ∅)
    (hs : k.processes.space? pid = some s) :
    Fills k r m ((s.copyInto ⟨r⟩ k.layout).mapError ForkError.memory) :=
  ((h.ends_copyInto hv hs).mono (fun _ _ hq => ⟨hq.1.sound, hq.1.keeps, hq.2.1⟩)
    (Fails.mono fun _ _ he => ⟨he.2.1.sound, he.2.1.keeps⟩)).mapError fun _ _ he => he

/-- twins of which the first has an address space for `pid`, and so the second -/
structure Filled (size : UInt64) (pid : Pid) (k₁ k₂ : Kernel) : Prop where
  twins : Twins size k₁ k₂
  space : (k₁.processes.space? pid).isSome = true

theorem Filled.ready (h : Filled size pid k₁ k₂) :
    (∀ p, k₁.processes.get? pid = some p → p.space.isSome = true) ∧
      ∀ p, k₂.processes.get? pid = some p → p.space.isSome = true := by
  refine ⟨fun p hp => ?_, fun p hp => ?_⟩
  · rw [← ProcessTable.space?_of_get? hp]
    exact h.space
  · rw [← ProcessTable.space?_of_get? hp, ← h.twins.slots.isSome_space?]
    exact h.space

namespace Twins

variable {ε α : Type} {L : ε → Prop}

/-- both kernels find a root for a new address space, or one of them is lost -/
theorem allocate (h : Twins size k₁ k₂) {e : ε} (he : L e) {f g : AddressSpace → Attempt Kernel ε α}
    {Q : α → α → Kernel → Kernel → Prop} {E : Stop ε → Kernel → Kernel → Prop}
    (hrest : ∀ r₁ m₁ r₂ m₂, NewSpace k₁ r₁ m₁ → NewSpace k₂ r₂ m₂ →
      EndAlike (Lost L) (f ⟨r₁⟩) (g ⟨r₂⟩) { k₁ with machine := m₁ } { k₂ with machine := m₂ } Q E) :
    EndAlike (Lost L)
      (onMachine (liftM AddressSpace.allocate : Attempt Machine ε _) >>= fun space? =>
        Attempt.orFail space? e >>= f)
      (onMachine (liftM AddressSpace.allocate : Attempt Machine ε _) >>= fun space? =>
        Attempt.orFail space? e >>= g) k₁ k₂ Q E := by
  have hroot : ∀ k : Kernel, k.Valid ∅ →
      Ends (onMachine (liftM AddressSpace.allocate : Attempt Machine ε _)) k
        (fun space? k' => ∃ m, k' = { k with machine := m } ∧
          ∀ space, space? = some space → NewSpace k space.root m) Never := by
    intro k hk
    refine ends_onMachine.2 (ends_lift.2 (hk.ends_allocate.mono
      (fun space? m hm => ⟨m, rfl, ?_⟩) fun _ _ hn => hn))
    rintro space rfl
    exact hm
  refine EndAlike.bind (.of_ends_lost (Q := fun space₁? space₂? k₁' k₂' =>
      (∃ m, k₁' = { k₁ with machine := m } ∧
        ∀ space, space₁? = some space → NewSpace k₁ space.root m) ∧
      ∃ m, k₂' = { k₂ with machine := m } ∧
        ∀ space, space₂? = some space → NewSpace k₂ space.root m)
    (hroot k₁ h.valid₁) (hroot k₂ h.valid₂) (fun _ _ _ _ h₁ h₂ => ⟨h₁, h₂⟩)
    (fun _ _ hn => hn.elim) fun _ _ hn => hn.elim) ?_
  rintro space₁? space₂? _ _ ⟨⟨m₁, rfl, hnew₁⟩, m₂, rfl, hnew₂⟩
  cases space₁? with
  | none => exact .of_lost_left rfl he
  | some space₁ =>
    cases space₂? with
    | none => exact .of_lost_right rfl he
    | some space₂ => exact hrest _ _ _ _ (hnew₁ _ rfl) (hnew₂ _ rfl)

/-- new address spaces are filled with the same, or given back -/
theorem fillSpace (h : Twins size k₁ k₂) {ofFrame : FrameError → ε}
    {fill₁ fill₂ : Layout → Attempt Machine ε Unit} (hp₁ : k₁.processes.get? pid = some p₁)
    (hp₂ : k₂.processes.get? pid = some p₂) (heq : p₁.anonymous = p₂.anonymous)
    (hvacant : p₁.isVacant = true) (hzero : pid ≠ 0) (hnew₁ : NewSpace k₁ r₁ m₁)
    (hnew₂ : NewSpace k₂ r₂ m₂) (hfill₁ : Fills k₁ r₁ m₁ (fill₁ k₁.layout))
    (hfill₂ : Fills k₂ r₂ m₂ (fill₂ k₂.layout))
    (hfill : EndAlike (Lost L) (fill₁ k₁.layout) (fill₂ k₂.layout) m₁ m₂
      (fun _ _ m₁' m₂' => Alike k₁.layout r₁ r₂ m₁'.toMemory m₂'.toMemory)
      fun _ m₁' m₂' => m₁'.data k₁.layout.consoleFrame = m₂'.data k₁.layout.consoleFrame) :
    EndAlike (Lost L) (fillSpace pid ⟨r₁⟩ ofFrame fill₁) (fillSpace pid ⟨r₂⟩ ofFrame fill₂)
      { k₁ with machine := m₁ } { k₂ with machine := m₂ }
      (fun _ _ => Filled size pid) fun _ => Twins size := by
  have hvacant₂ : p₂.isVacant = true := by
    rw [← Process.isVacant_anonymous, ← heq, Process.isVacant_anonymous]
    exact hvacant
  refine .of_ends (hfill₁.ends_fillSpace h.valid₁ hp₁ hvacant hzero hnew₁)
    (hfill₂.ends_fillSpace h.valid₂ hp₂ hvacant₂ hzero hnew₂) ?_ ?_ ?_ ?_
  · rintro _ k₁' _ k₂' ⟨hserves₁, hslot₁, hx₁⟩ ⟨hserves₂, hslot₂, hx₂⟩
    have halike := hfill.ok hx₁ hx₂
    refine ⟨h.of_serves hserves₁ hserves₂ ?_ (fun s₁ s₂ hs₁ hs₂ => ?_) halike.console, ?_⟩
    · rw [hslot₁, hslot₂]
      exact congrArg some (congrArg (fun p : Process => { p with space := some default }) heq :)
    · obtain rfl := Option.some.inj ((ProcessTable.space?_of_get? hslot₁).symm.trans hs₁)
      obtain rfl := Option.some.inj ((ProcessTable.space?_of_get? hslot₂).symm.trans hs₂)
      exact halike.views
    · rw [ProcessTable.space?_of_get? hslot₁]
      rfl
  · intro e k₁' e' k₂' he₁ he₂
    cases e with
    | panic p => exact he₁.elim
    | error e =>
      cases e' with
      | panic p => exact he₂.elim
      | error e' =>
        obtain ⟨⟨_, ⟨m₁', hx₁, rfl⟩, hcontents₁⟩, hserves₁, hslot₁⟩ := he₁
        obtain ⟨⟨_, ⟨m₂', hx₂, rfl⟩, hcontents₂⟩, hserves₂, hslot₂⟩ := he₂
        refine (hfill.stopped hx₁ hx₂).imp id (Or.imp id fun hboth => ⟨hboth.1, ?_⟩)
        have hnone := ProcessTable.space?_of_get? hslot₁
        refine h.of_serves hserves₁ hserves₂ ?_ (fun s₁ s₂ hs₁ _ => ?_) ?_
        · rw [hslot₁, hslot₂]
          exact congrArg some (congrArg Process.vacated heq :)
        · cases hnone.symm.trans hs₁
        · rw [Memory.data_congr hcontents₁, Memory.data_congr hcontents₂]
          exact hboth.2
  · rintro e k₁' _ k₂' he₁ ⟨-, -, hx₂⟩
    cases e with
    | panic p => exact he₁.elim
    | error e =>
      obtain ⟨⟨_, ⟨m₁', hx₁, -⟩, -⟩, -, -⟩ := he₁
      exact hfill.first hx₁ hx₂
  · rintro _ k₁' e k₂' ⟨-, -, hx₁⟩ he₂
    cases e with
    | panic p => exact he₂.elim
    | error e =>
      obtain ⟨⟨_, ⟨m₂', hx₂, -⟩, -⟩, -, -⟩ := he₂
      exact hfill.second hx₁ hx₂

/-! ## the operations -/

/-- a program is loaded by both, or by none -/
theorem setup (h : Twins size k₁ k₂) (pid : Pid) (image : ProgramImage) :
    Lockstep (Lost SetupError.IsShort) size (setup pid image) (setup pid image) k₁ k₂ := by
  unfold Kernel.setup
  refine EndAlike.bind_ok k₁ k₂ rfl rfl ?_
  dsimp only
  refine EndAlike.ite Iff.rfl (fun _ => Lockstep.exit h) fun hzero => ?_
  have hslot := congrArg Option.isSome (h.slots pid)
  rw [Option.isSome_map, Option.isSome_map] at hslot
  refine .bind_orFail hslot (fun p₁ p₂ hp₁ hp₂ => ?_) fun _ _ => h
  obtain ⟨_, hp₂', heq⟩ := h.slots.exists_slot hp₁
  obtain rfl := Option.some.inj (hp₂.symm.trans hp₂')
  have hsame : p₁.isVacant = p₂.isVacant := by
    rw [← Process.isVacant_anonymous, heq, Process.isVacant_anonymous]
  have hpid : p₁.pid = p₂.pid := (congrArg Process.pid heq :)
  rw [← hsame, ← hpid]
  refine EndAlike.ite Iff.rfl (fun _ => Lockstep.exit h) fun hvacant => ?_
  rw [Bool.not_eq_true', Bool.not_eq_false] at hvacant
  refine h.allocate trivial fun r₁ m₁ r₂ m₂ hnew₁ hnew₂ => ?_
  have hsound₂ := h.layout ▸ hnew₂.sound
  refine EndAlike.bind (h.fillSpace hp₁ hp₂ heq hvacant hzero hnew₁ hnew₂
    (hnew₁.fills_load image) (hnew₂.fills_load image) ?_) fun _ _ k₁' k₂' hfilled => ?_
  · rw [h.layout]
    refine (Alike.ends_load hnew₁.sound (h.layout ▸ hnew₂.sound) (Finset.mem_insert_self _ _)
      (Finset.mem_insert_self _ _) hnew₁.empty hnew₂.empty ?_ image).mono (fun _ _ _ _ hq => hq)
      fun _ _ _ he => he.console
    exact hnew₁.reserved.consoles (h.layout ▸ hnew₂.reserved) hnew₁.sound.ordered
      (h.layout ▸ hnew₂.sound.ordered) h.console
  · have hsize : k₂'.layout.virtualSize = k₁'.layout.virtualSize := by
      rw [hfilled.twins.layout]
      rfl
    refine EndAlike.bind_ok k₁' k₂' rfl rfl ?_
    rw [hsize]
    refine Lockstep.bind (.lift (hfilled.twins.setProcess (fun _ _ => rfl) (fun _ => rfl)
      (fun p hp _ => hfilled.ready.1 p hp) fun p hp _ => hfilled.ready.2 p hp)) fun _ _ _ h => ?_
    exact .lift (h.report _ _ _ _)

/-- both copies hold what their originals hold -/
theorem copyInto (h : Twins size k₁ k₂) (hs₁ : k₁.processes.space? pid = some s₁)
    (hs₂ : k₂.processes.space? pid = some s₂) (hnew₁ : NewSpace k₁ r₁ m₁)
    (hnew₂ : NewSpace k₂ r₂ m₂) {E : Stop MemoryError → Machine → Machine → Prop} :
    EndAlike (Lost MemoryError.IsShort) (s₁.copyInto ⟨r₁⟩ k₁.layout)
      (s₂.copyInto ⟨r₂⟩ k₂.layout) m₁ m₂
      (fun _ _ m₁' m₂' => Alike k₁.layout r₁ r₂ m₁'.toMemory m₂'.toMemory) E := by
  have hfirst : k₂.layout.firstPage = k₁.layout.firstPage := by
    rw [h.layout]
    rfl
  have hend : k₂.layout.endPage = k₁.layout.endPage := by
    rw [h.layout]
    rfl
  refine .of_ends_lost (hnew₁.ends_copyInto h.valid₁ hs₁) (hnew₂.ends_copyInto h.valid₂ hs₂)
    ?_ ?_ ?_
  · rintro _ m₁' _ m₂' ⟨-, -, hcopied₁, hreserved₁, -⟩ ⟨-, -, hcopied₂, hreserved₂, -⟩
    refine ⟨fun n hn hn' => ?_, ?_⟩
    · rw [hcopied₁.views n hn hn', hcopied₂.views n (hfirst ▸ hn) (hend ▸ hn')]
      exact h.views pid s₁ s₂ hs₁ hs₂ n hn hn'
    · exact (hnew₁.reserved.trans hreserved₁).consoles (h.layout ▸ hnew₂.reserved.trans hreserved₂)
        hnew₁.sound.ordered (h.layout ▸ hnew₂.sound.ordered) h.console
  · exact fun e m he => lost_of_fails he fun _ h => h.1 ▸ trivial
  · exact fun e m he => lost_of_fails he fun _ h => h.1 ▸ trivial

/-- a process is duplicated by both, or by none -/
theorem fork (h : Twins size k₁ k₂) (parent : Pid) :
    Lockstep (Lost ForkError.IsShort) size (fork parent) (fork parent) k₁ k₂ := by
  unfold Kernel.fork
  refine EndAlike.bind_ok k₁ k₂ rfl rfl ?_
  dsimp only
  refine .bind_orFail (h.slots.isSome_space? parent) (fun s₁ s₂ hs₁ hs₂ => ?_) fun _ _ => h
  rw [← h.slots.firstFree?_eq]
  cases hfree : k₁.processes.firstFree? with
  | none => exact Lockstep.exit h
  | some child =>
    obtain ⟨p₁, hp₁, hvacant, hzero⟩ := ProcessTable.firstFree?_some h.valid₁.numbered hfree
    obtain ⟨p₂, hp₂, heq⟩ := h.slots.exists_slot hp₁
    refine EndAlike.bind_ok k₁ k₂ rfl rfl ?_
    refine h.allocate trivial fun r₁ m₁ r₂ m₂ hnew₁ hnew₂ => ?_
    refine EndAlike.bind (h.fillSpace hp₁ hp₂ heq hvacant hzero hnew₁ hnew₂
      (hnew₁.fills_copyInto h.valid₁ hs₁) (hnew₂.fills_copyInto h.valid₂ hs₂) ?_)
      fun _ _ k₁' k₂' hfilled => ?_
    · exact (h.copyInto hs₁ hs₂ hnew₁ hnew₂ (E := fun _ m₁' m₂' =>
        m₁'.data k₁.layout.consoleFrame = m₂'.data k₁.layout.consoleFrame)).mapError
        (fun _ he => he) (fun _ _ _ he => he) fun _ _ _ he => he
    · refine EndAlike.bind (.lift (hfilled.twins.process parent)) ?_
      rintro q₁ q₂ _ _ ⟨rfl, rfl, -, -, hq⟩
      have hregisters : q₁.registers = q₂.registers := (congrArg Process.registers hq :)
      rw [← hregisters]
      refine Lockstep.bind (.lift (hfilled.twins.changeProcess (fun _ _ => rfl) (fun _ => rfl)
        (fun p hp _ => hfilled.ready.1 p hp) fun p hp _ => hfilled.ready.2 p hp))
        fun _ _ _ h => ?_
      refine Lockstep.bind (.lift (h.changeProcess_of_runs (fun _ _ => rfl) (fun _ => rfl)
        fun _ hrun => hrun)) fun _ _ _ h => ?_
      exact .bind (.lift (h.report _ _ _ _)) fun _ _ _ h => .pure h

/-- a process of both kernels sees something else, and its slot stays -/
theorem of_alike {k₁' k₂' : Kernel} (h : Twins size k₁ k₂) (h₁ : Serves pid k₁ k₁')
    (h₂ : Serves pid k₂ k₂') (hprocesses₁ : k₁'.processes = k₁.processes)
    (hprocesses₂ : k₂'.processes = k₂.processes) (hs₁ : k₁.processes.space? pid = some s₁)
    (hs₂ : k₂.processes.space? pid = some s₂)
    (halike : Alike k₁.layout s₁.root s₂.root k₁'.memory k₂'.memory) : Twins size k₁' k₂' := by
  refine h.of_serves h₁ h₂ ?_ (fun t₁ t₂ ht₁ ht₂ => ?_) halike.console
  · rw [hprocesses₁, hprocesses₂]
    exact h.slots pid
  · rw [hprocesses₁] at ht₁
    rw [hprocesses₂] at ht₂
    obtain rfl := Option.some.inj (hs₁.symm.trans ht₁)
    obtain rfl := Option.some.inj (hs₂.symm.trans ht₂)
    exact halike.views

/-- both processes get a page of zeroes, or are told why not -/
theorem pageAlloc (h : Twins size k₁ k₂) (pid : Pid) (va : VirtualAddress) :
    Lockstep (Lost PageAllocError.IsShort) size (pageAlloc pid va) (pageAlloc pid va) k₁ k₂ := by
  have hl₁ := h.valid₁.sound.ordered
  have hl₂ := h.valid₂.sound.ordered
  -- a page is refused to both or to none, unless a frame is lacking
  have hboth : EndAlike (Lost PageAllocError.IsShort) (Kernel.pageAlloc pid va)
      (Kernel.pageAlloc pid va) k₁ k₂ (fun _ _ _ _ => True)
      fun _ k₁' k₂' => k₁' = k₁ ∧ k₂' = k₂ := by
    unfold Kernel.pageAlloc
    refine EndAlike.bind_ok k₁ k₂ rfl rfl ?_
    dsimp only
    rw [h.layout]
    refine EndAlike.ite Iff.rfl (fun _ => .inr (.inr ⟨rfl, rfl, rfl⟩)) fun hva => ?_
    obtain ⟨hrange, -⟩ : k₁.layout.isUserAddress va = true ∧ va.isAligned = true := by
      simpa using hva
    have hrange₂ : k₂.layout.isUserAddress va = true := h.layout ▸ hrange
    rw [hl₁.isUserAddress_iff] at hrange
    rw [hl₂.isUserAddress_iff] at hrange₂
    refine .bind_orFail (h.slots.isSome_space? pid) (fun s₁ s₂ hs₁ hs₂ => ?_) fun _ _ => ⟨rfl, rfl⟩
    have hreplace : EndAlike (Lost MemoryError.IsShort) (s₁.replace va) (s₂.replace va)
        k₁.machine k₂.machine (fun _ _ _ _ => True) fun _ _ _ => False :=
      .of_ends_lost
        (AddressSpace.ends_replace va h.valid₁.sound (ProcessTable.root_mem hs₁) hrange.1 hrange.2)
        (AddressSpace.ends_replace va h.valid₂.sound (ProcessTable.root_mem hs₂) hrange₂.1
          hrange₂.2)
        (fun _ _ _ _ _ _ => trivial)
        (fun _ _ he => lost_of_fails he fun _ h => h.1.error ▸ trivial)
        fun _ _ he => lost_of_fails he fun _ h => h.1.error ▸ trivial
    exact (endAlike_onMachine (E := fun _ _ _ => False) hreplace).mapError (fun _ he => he)
      (fun _ _ _ he => he.elim) fun _ _ _ he => he.elim
  refine (hboth.and_ends (ends_pageAlloc h.valid₁ va) (ends_pageAlloc h.valid₂ va)).mono ?_ ?_
  · rintro _ _ k₁' k₂' ⟨-, ⟨hserves₁, hproc₁, -, s₁, hs₁, hreplaced₁⟩,
      hserves₂, hproc₂, -, s₂, hs₂, hreplaced₂⟩
    have hshows₁ := hreplaced₁.shows
    have hshows₂ := hreplaced₂.shows
    rw [h.layout] at hshows₂ hl₂
    exact ⟨rfl, h.of_alike hserves₁ hserves₂ hproc₁ hproc₂ hs₁ hs₂
      ((h.alike hs₁ hs₂).shows hl₁ hl₂ hshows₁ hshows₂)⟩
  · rintro _ _ _ ⟨⟨rfl, rfl⟩, -⟩
    exact h

/-- both take back all that a process had -/
theorem teardown (h : Twins size k₁ k₂) (pid : Pid) :
    Lockstep (Lost fun _ => False) size (teardown pid) (teardown pid) k₁ k₂ := by
  by_cases hout : pid = 0 ∨ slotCount ≤ pid
  · exact EndAlike.ite Iff.rfl (fun _ => Lockstep.exit h) fun hin => absurd hout hin
  have hends : ∀ k : Kernel, k.Valid ∅ → Ends (Kernel.teardown pid) k
      (fun _ k' => Serves pid k k' ∧ (pid ≠ 0 ∧ ∃ p, k.processes.get? pid = some p ∧
        k'.processes.get? pid = some p.vacated) ∧ k'.memory.contents = k.memory.contents)
      Never := fun k hk => (ends_teardown hk).mono (fun _ _ hq => hq) fun e k' he => by
    cases e with
    | panic p => exact he
    | error e => exact hout he.1
  refine .of_ends_lost (hends k₁ h.valid₁) (hends k₂ h.valid₂) ?_ (fun _ _ hn => hn.elim)
    fun _ _ hn => hn.elim
  rintro _ k₁' _ k₂' ⟨hserves₁, ⟨-, p₁, hp₁, hslot₁⟩, hcontents₁⟩
    ⟨hserves₂, ⟨-, p₂, hp₂, hslot₂⟩, hcontents₂⟩
  obtain ⟨_, hp₂', heq⟩ := h.slots.exists_slot hp₁
  obtain rfl := Option.some.inj (hp₂.symm.trans hp₂')
  refine ⟨rfl, h.of_serves hserves₁ hserves₂ ?_ (fun s₁ s₂ hs₁ _ => ?_) ?_⟩
  · rw [hslot₁, hslot₂]
    exact congrArg some (congrArg Process.vacated heq :)
  · cases (ProcessTable.space?_of_get? hslot₁).symm.trans hs₁
  · rw [Memory.data_congr hcontents₁, Memory.data_congr hcontents₂]
    exact h.console

/-- both processes write the same -/
theorem writeUser (h : Twins size k₁ k₂) (pid : Pid) (va : VirtualAddress) (bytes : ByteArray) :
    Lockstep (Lost fun _ => False) size (writeUser pid va bytes) (writeUser pid va bytes)
      k₁ k₂ := by
  cases hs₁ : k₁.processes.space? pid with
  | none =>
    refine EndAlike.bind_ok k₁ k₂ rfl rfl ?_
    rw [hs₁, h.space?_eq_none hs₁]
    exact Lockstep.exit h
  | some s₁ =>
    obtain ⟨s₂, hs₂⟩ := h.exists_space hs₁
    have hcopy : EndAlike (Lost fun _ => False) (s₁.copyTo va bytes) (s₂.copyTo va bytes)
        k₁.machine k₂.machine
        (fun _ _ m₁ m₂ => Alike k₁.layout s₁.root s₂.root m₁.toMemory m₂.toMemory)
        fun _ m₁ m₂ => Alike k₁.layout s₁.root s₂.root m₁.toMemory m₂.toMemory :=
      (h.alike hs₁ hs₂).ends_copyTo va bytes (h.valid₁.furnished hs₁) (h.furnished₂ hs₂)
    have hboth : EndAlike (Lost fun _ => False) (Kernel.writeUser pid va bytes)
        (Kernel.writeUser pid va bytes) k₁ k₂
        (fun _ _ k₁' k₂' => Alike k₁.layout s₁.root s₂.root k₁'.memory k₂'.memory)
        fun _ k₁' k₂' => Alike k₁.layout s₁.root s₂.root k₁'.memory k₂'.memory := by
      refine EndAlike.bind_ok k₁ k₂ rfl rfl ?_
      rw [hs₁, hs₂]
      exact endAlike_onMachine hcopy
    refine (hboth.and_ends (ends_writeUser h.valid₁ va bytes)
      (ends_writeUser h.valid₂ va bytes)).mono ?_ ?_
    · rintro _ _ k₁' k₂' ⟨halike, hw₁, hw₂⟩
      exact ⟨rfl, h.of_alike hw₁.serves hw₂.serves hw₁.processes hw₂.processes hs₁ hs₂ halike⟩
    · rintro e k₁' k₂' ⟨halike, he₁, he₂⟩
      cases e with
      | panic p => exact he₁.elim
      | error e =>
        obtain ⟨hw₁, -⟩ := he₁
        obtain ⟨hw₂, -⟩ := he₂
        exact h.of_alike hw₁.serves hw₂.serves hw₁.processes hw₂.processes hs₁ hs₂ halike

/-- both processes read the same -/
theorem readUser_eq (h : Twins size k₁ k₂) (pid : Pid) (va : VirtualAddress) (length : Nat) :
    k₁.readUser pid va length = k₂.readUser pid va length := by
  unfold Kernel.readUser
  cases hs₁ : k₁.processes.space? pid with
  | none => rw [h.space?_eq_none hs₁]
  | some s₁ =>
    obtain ⟨s₂, hs₂⟩ := h.exists_space hs₁
    rw [hs₂]
    exact (h.alike hs₁ hs₂).readFrom (h.valid₁.furnished hs₁) (h.furnished₂ hs₂) va length 0 _

/-! ## loading programs -/

theorem setupAll (h : Twins size k₁ k₂) (pid : Pid) (images : List ProgramImage) :
    Lockstep (Lost Halt.IsShort) size (setupAll pid images) (setupAll pid images) k₁ k₂ := by
  induction images generalizing pid k₁ k₂ with
  | nil => exact .pure h
  | cons image later ih =>
    refine .bind ?_ fun _ _ _ h => ih h (pid + 1)
    exact (h.setup pid image).onError (fun _ _ he => ⟨_, _, rfl, he⟩)
      (fun _ _ he => ⟨_, _, rfl, he⟩)
      (fun _ _ _ h => Lockstep.bind (.lift (h.report _ _ _ _)) fun _ _ _ h => .fail h)
      fun _ _ _ h => h

/-- both load the same programs, and run the first -/
theorem boot (h : Twins size k₁ k₂) (registry : ProgramRegistry) (command : Option String) :
    Lockstep (Lost Halt.IsShort) size (boot registry command) (boot registry command) k₁ k₂ := by
  unfold Kernel.boot
  cases chosen registry command with
  | error e => exact .exit h
  | ok images =>
    refine EndAlike.bind_ok k₁ k₂ rfl rfl ?_
    refine EndAlike.ite Iff.rfl (fun _ => Lockstep.exit h) fun _ => ?_
    exact Lockstep.bind (h.setupAll 1 images) fun _ _ _ h => h.run 1

end Twins

end Kernel

end PagedKernel
