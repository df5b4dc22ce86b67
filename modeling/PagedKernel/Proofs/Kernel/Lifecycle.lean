import PagedKernel.Kernel.Lifecycle
import PagedKernel.Proofs.Kernel.Serves
import PagedKernel.Proofs.Process.Copy
import PagedKernel.Proofs.Process.Free
import PagedKernel.Proofs.Process.Load

/-!
# The life of a process, in valid kernels

Each operation leaves a valid kernel, whether it succeeds or fails, and spares the processes that it
is not performed for.  None of them panics, and none finds a frame that is counted wrongly.

* `Kernel.ends_freeProcess`  a slot is given back
* `Kernel.NewSpace`          an address space that is not filled yet
* `Kernel.ends_fillSpace`    it is filled, or given back
* `Kernel.ends_setup`, `Kernel.ends_fork`, `Kernel.ends_pageAlloc`, `Kernel.ends_teardown`,
  `Kernel.ends_writeUser`    the operations
* `Kernel.Loads`, `Kernel.Begets`, `Kernel.Allocates`, `Kernel.Writes`   what they leave if they
  succeed
* `Kernel.ForkRefusal`, `Kernel.PageRefusal`   why they do not
-/

namespace PagedKernel

namespace Kernel

variable {k k' k'' : Kernel} {others : Finset Pid} {pid : Nat} {m : Machine} {p : Process}
  {r : Frame}

/-! ## giving back a slot -/

theorem Valid.remove (h : k.Valid {pid}) {t : ProcessTable slotCount}
    (hslot : t.get? pid = some p) (hpid : p.pid = pid) (hvacant : p.isVacant = true)
    (hothers : ∀ q, q ≠ pid → t.get? q = k.processes.get? q)
    (hsound : Sound k.layout k.space.root t.roots [] m.toMemory)
    (hcontents : m.contents = k.memory.contents) :
    Valid { k with processes := t, machine := m } ∅ := by
  obtain ⟨hfree, hnone⟩ := Process.isVacant_iff.1 hvacant
  have hspace : t.space? pid = none := (ProcessTable.space?_of_get? hslot).trans hnone
  have hspaces : ∀ q, q ≠ pid → t.space? q = k.processes.space? q :=
    fun q hq => ProcessTable.space?_congr (hothers q hq)
  constructor
  · exact hsound
  · exact h.distinct.of_remove hspace hspaces
  · intro q p' hp'
    rcases ProcessTable.slot_cases hslot hothers hp' with ⟨rfl, rfl⟩ | ⟨-, hold⟩
    · exact hpid
    · exact h.numbered q p' hold
  · intro q p' hp' hrun
    rcases ProcessTable.slot_cases hslot hothers hp' with ⟨rfl, rfl⟩ | ⟨-, hold⟩
    · rw [Process.isRunnable, hfree] at hrun
      cases hrun
    · exact h.ready q p' hold hrun
  · intro q _ s hs
    by_cases hq : q = pid
    · subst hq
      cases hspace.symm.trans hs
    · have hs' := (hspaces q hq).symm.trans hs
      exact (h.complete q (fun hin => hq (Finset.mem_singleton.1 hin)) s hs').congr
        (Memory.pageAt_contents hcontents s.root)
  · by_cases hq : 0 = pid
    · subst hq
      exact hspace
    · exact (hspaces 0 hq).trans h.reserved
  · exact h.current
  · exact h.shown

/-- a space that is taken out of its slot is nobody's -/
theorem Valid.roots_taken {unfinished : Finset Pid} {s : AddressSpace} (h : k.Valid unfinished)
    (hp : k.processes.get? pid = some p) (hspace : p.space = some s) :
    k.processes.roots
        = insert s.root (k.processes.update pid fun p => { p with space := none }).roots ∧
      s.root ∉ (k.processes.update pid fun p => { p with space := none }).roots := by
  have hslot := ProcessTable.get?_update_self (fun p => { p with space := none }) hp
  have hothers := fun q (hq : q ≠ pid) => ProcessTable.space?_congr
    (ProcessTable.get?_update_of_ne (t := k.processes) (fun p => { p with space := none }) hq)
  have hold : k.processes.space? pid = some ⟨s.root⟩ :=
    (ProcessTable.space?_of_get? hp).trans hspace
  have hnone := ProcessTable.space?_of_get? hslot
  refine ⟨ProcessTable.roots_of_set hnone hold fun q hq => (hothers q hq).symm, fun hin => ?_⟩
  obtain ⟨q, hq⟩ := ProcessTable.mem_roots.1 hin
  have hne : q ≠ pid := by
    rintro rfl
    cases hnone.symm.trans hq
  exact hne (h.distinct q pid _ ((hothers q hne).symm.trans hq) hold)

/-- a slot is given back, and nothing is written -/
theorem ends_freeProcess (h : k.Valid {pid}) (hp : k.processes.get? pid = some p) :
    Ends (freeProcess pid) k
      (fun _ k' => Serves pid k k' ∧ k'.processes.get? pid = some p.vacated ∧
        k'.memory.contents = k.memory.contents) Never := by
  have hnumber := h.numbered pid p hp
  unfold freeProcess
  rw [ends_bind, ends_lift, ends_process hp]
  dsimp only
  cases hspace : p.space with
  | none =>
    have hslot := ProcessTable.get?_update_self
      (fun p => { p with state := .free, registers := {} })
      hp
    have hvacated : { p with state := .free, registers := {} } = p.vacated := by
      rw [Process.vacated, hspace]
    rw [hvacated] at hslot
    have hothers := fun q (hq : q ≠ pid) => ProcessTable.get?_update_of_ne (t := k.processes)
      (fun p => { p with state := .free, registers := {} }) hq
    have hroots : (k.processes.update pid fun p => { p with state := .free, registers := {} }).roots
        = k.processes.roots :=
      ProcessTable.roots_congr fun q => ProcessTable.space?_update fun p => rfl
    rw [ends_lift, ends_setProcess]
    refine ⟨⟨?_, fun others hnot => .of_update hnot, rfl, rfl, rfl, rfl⟩, hslot, rfl⟩
    refine h.remove hslot hnumber rfl hothers ?_ rfl
    rw [hroots]
    exact h.sound
  | some s =>
    have hslot₁ := ProcessTable.get?_update_self (fun p => { p with space := none }) hp
    have hslot := ProcessTable.get?_update_self
      (fun p => { p with state := .free, registers := {} })
      hslot₁
    have hothers : ∀ q, q ≠ pid → ((k.processes.update pid fun p => { p with space := none }).update
        pid fun p => { p with state := .free, registers := {} }).get? q = k.processes.get? q :=
      fun q hq => (ProcessTable.get?_update_of_ne _ hq).trans (ProcessTable.get?_update_of_ne _ hq)
    have hkept : ((k.processes.update pid fun p => { p with space := none }).update pid
        fun p => { p with state := .free, registers := {} }).roots
          = (k.processes.update pid fun p => { p with space := none }).roots :=
      ProcessTable.roots_congr fun q => ProcessTable.space?_update fun p => rfl
    obtain ⟨hroots, hnew⟩ := h.roots_taken hp hspace
    have hsound := h.sound
    rw [hroots] at hsound
    have hfree := AddressSpace.ends_free (m := k.machine) hsound hnew
    rw [ends_bind, ends_lift, ends_setProcess, ends_bind, ends_get, ends_bind, ends_onMachine]
    refine hfree.mono (fun _ m hm => ?_) fun _ _ hn => hn
    obtain ⟨hsound', hcontents⟩ := hm
    rw [← hkept] at hsound'
    rw [ends_lift, ends_setProcess]
    refine ⟨⟨h.remove hslot hnumber rfl hothers hsound' hcontents, fun others hnot => ?_, rfl, rfl,
      rfl, rfl⟩, hslot, hcontents⟩
    refine ⟨rfl, rfl, fun q hq => hothers q ?_, .of_data (Memory.data_congr hcontents)⟩
    rintro rfl
    exact hnot hq

/-! ## filling a new address space -/

theorem Valid.adopt (h : k.Valid ∅) (hp : k.processes.get? pid = some p)
    (hvacant : p.isVacant = true) (hzero : pid ≠ 0) (hr : r ∉ k.processes.roots)
    (hsound : Sound k.layout k.space.root (insert r k.processes.roots) [] m.toMemory)
    (hkeeps : Keeps k.layout k.space.root k.processes.roots k.memory m.toMemory) :
    Valid { k with
      machine := m
      processes := k.processes.update pid fun p => { p with space := some ⟨r⟩ } } {pid} ∧
    (k.processes.update pid fun p => { p with space := some ⟨r⟩ }).roots
      = insert r k.processes.roots := by
  have hslot := ProcessTable.get?_update_self (fun p => { p with space := some ⟨r⟩ }) hp
  have hothers := fun q (hq : q ≠ pid) => ProcessTable.get?_update_of_ne (t := k.processes)
    (fun p => { p with space := some ⟨r⟩ }) hq
  have hspaces := fun q (hq : q ≠ pid) => ProcessTable.space?_congr (hothers q hq)
  have hset := ProcessTable.space?_of_get? hslot
  have hnone := (ProcessTable.space?_of_get? hp).trans (Process.isVacant_iff.1 hvacant).2
  have hroots := ProcessTable.roots_of_set hnone hset hspaces
  refine ⟨⟨?_, h.distinct.of_set hset hspaces hr, ?_, ?_, ?_, ?_, h.current, h.shown⟩, hroots⟩
  · show Sound k.layout k.space.root (k.processes.update pid _).roots [] m.toMemory
    rw [hroots]
    exact hsound
  · intro q p' hp'
    rcases ProcessTable.slot_cases hslot hothers hp' with ⟨rfl, rfl⟩ | ⟨-, hold⟩
    · exact h.numbered q p hp
    · exact h.numbered q p' hold
  · intro q p' hp' hrun
    rcases ProcessTable.slot_cases hslot hothers hp' with ⟨rfl, rfl⟩ | ⟨-, hold⟩
    · rfl
    · exact h.ready q p' hold hrun
  · intro q hq s hs
    have hne : q ≠ pid := fun he => hq (Finset.mem_singleton.2 he)
    have hs' := (hspaces q hne).symm.trans hs
    exact h.complete_of_keeps hkeeps (Finset.notMem_empty q) hs' (ProcessTable.root_mem hs')
  · exact (hspaces 0 (Ne.symm hzero)).trans h.reserved

/-- `r` has been taken for the root of a new address space; the others have what they had -/
structure NewSpace (k : Kernel) (r : Frame) (m : Machine) : Prop where
  fresh : r ∉ k.processes.roots
  sound : Sound k.layout k.space.root (insert r k.processes.roots) [] m.toMemory
  keeps : Keeps k.layout k.space.root k.processes.roots k.memory m.toMemory
  empty : ∀ n, m.pageAt r n = none
  reserved : KeepsReserved k.layout k.memory m.toMemory
  links : ∀ i, m.link? r i = none
  cost : m.freeCount + 1 = k.freeCount

/-- the address space of `r` is being filled since `before`; the others have what they had -/
structure Filling (k : Kernel) (r : Frame) (before after : Memory) : Prop where
  sound : Sound k.layout k.space.root (insert r k.processes.roots) [] after
  keeps : Keeps k.layout k.space.root k.processes.roots before after

/-- what has been taken since `k` is what an address space with the pages `wanted` needs, but for
what that of `r` still lacks -/
def Pays (k : Kernel) (r : Frame) (wanted : Finset Nat) (mem : Memory) : Prop :=
  mem.freeCount + k.layout.spaceFrames wanted = k.freeCount + mem.demand k.layout r wanted

/-- a root is taken for a new address space, if a frame is free -/
theorem Valid.ends_allocate {unfinished : Finset Pid} (h : k.Valid unfinished) :
    Ends AddressSpace.allocate k.machine
      (fun space? m =>
        match space? with
        | some space => NewSpace k space.root m
        | none => m.toMemory = k.memory ∧ k.freeCount = 0) Never := by
  refine (AddressSpace.ends_allocate h.sound).mono (fun space? m hm => ?_) fun _ _ hn => hn
  cases space? with
  | none => exact hm
  | some space =>
    obtain ⟨hfresh, hsound, hkeeps, hempty, hcost, hreserved, hlinks⟩ := hm
    exact ⟨hfresh, hsound, hkeeps, hempty, hreserved, hlinks, hcost⟩

namespace NewSpace

/-- whoever has not got what the new address space needs had too few frames at the start -/
theorem short {wanted : Finset Nat} (h : NewSpace k r m)
    (hless : m.freeCount < m.demand k.layout r wanted) :
    k.freeCount < k.layout.spaceFrames wanted := by
  have := h.cost
  have hall : m.demand k.layout r wanted + 1 = k.layout.spaceFrames wanted :=
    Memory.demand_of_empty h.links h.empty
  omega

theorem pays {wanted : Finset Nat} {mem' : Memory} (h : NewSpace k r m)
    (hmeets : Meets k.layout r wanted m.toMemory mem') : Pays k r wanted mem' := by
  have := h.cost
  have hall : m.demand k.layout r wanted + 1 = k.layout.spaceFrames wanted :=
    Memory.demand_of_empty h.links h.empty
  unfold Meets at hmeets
  unfold Pays
  omega

/-- a program is loaded into the new address space -/
theorem ends_load (h : NewSpace k r m) (image : ProgramImage) :
    Ends ((AddressSpace.mk r).load k.space k.layout image) m
      (fun _ m' => Filling k r m.toMemory m'.toMemory ∧ Complete k.layout r m'.toMemory ∧
        m.freeCount ≤ m'.freeCount + image.cost k.layout ∧
        Pays k r (image.footprint k.layout) m'.toMemory ∧
        AddressSpace.Loaded k.layout r image m'.toMemory)
      (Fails fun e m' => Filling k r m.toMemory m'.toMemory ∧
        (image.Fits k.layout → m.freeCount < image.cost k.layout ∧
          k.freeCount < k.layout.spaceFrames (image.footprint k.layout)) ∧
        (image.WellFormed → image.Refusal k.layout e)) := by
  have hload := AddressSpace.ends_load h.sound (Finset.mem_insert_self _ _) h.empty image
  rw [Finset.erase_insert h.fresh] at hload
  refine hload.mono (fun _ m' hm' => ?_) (Fails.mono fun e m' he => ?_)
  · obtain ⟨hsound', hkeeps', hcomplete, hcost, hmeets, hloaded⟩ := hm'
    exact ⟨⟨hsound', hkeeps'⟩, hcomplete, hcost, h.pays hmeets, hloaded⟩
  · obtain ⟨hsound', hkeeps', hless, hwhy⟩ := he
    exact ⟨⟨hsound', hkeeps'⟩, fun hfits => ⟨(hless hfits).1, h.short (hless hfits).2⟩, hwhy⟩

/-- the memory of a process is copied into the new address space -/
theorem ends_copyInto (h : NewSpace k r m) (hv : k.Valid ∅) {s : AddressSpace}
    (hs : k.processes.space? pid = some s) :
    Ends (s.copyInto ⟨r⟩ k.layout) m
      (fun _ m' => Filling k r m.toMemory m'.toMemory ∧ Complete k.layout r m'.toMemory ∧
        AddressSpace.CopyOf k.layout s.root r k.memory m'.toMemory ∧
        KeepsReserved k.layout m.toMemory m'.toMemory ∧
        Pays k r (AddressSpace.writablePages k.layout s.root k.memory) m'.toMemory)
      (Fails fun e m' => e = .outOfMemory ∧ Filling k r m.toMemory m'.toMemory ∧
        m.freeCount < AddressSpace.copyCost k.layout k.layout.endPage ∧
        k.freeCount < k.layout.spaceFrames
          (AddressSpace.writablePages k.layout s.root k.memory)) := by
  have hroot := ProcessTable.root_mem hs
  have hdiffer : s.root ≠ r := by
    rintro he
    exact h.fresh (he ▸ hroot)
  have hcard : (insert r k.processes.roots).card < Ledger.maxCount := by
    have hle := ProcessTable.card_roots_le (t := k.processes)
    rw [Finset.card_insert_of_notMem h.fresh]
    exact Nat.lt_of_le_of_lt (Nat.succ_le_succ hle) (by decide)
  have hcopy := AddressSpace.ends_copyInto h.sound (Finset.mem_insert_self _ _)
    (Finset.mem_insert_of_mem hroot) hdiffer hcard h.empty
    (hv.complete_of_keeps h.keeps (Finset.notMem_empty pid) hs hroot)
  have hpages : AddressSpace.writablePages k.layout s.root m.toMemory
      = AddressSpace.writablePages k.layout s.root k.memory := by
    unfold AddressSpace.writablePages
    simp only [h.keeps.pageAt (Finset.mem_insert_of_mem hroot)]
  rw [Finset.erase_insert h.fresh, hpages] at hcopy
  refine hcopy.mono (fun _ m' hm' => ?_) (Fails.mono fun e m' he => ?_)
  · obtain ⟨hsound', hkeeps', hcomplete', hcopied, hreserved, hmeets⟩ := hm'
    exact ⟨⟨hsound', hkeeps'⟩, hcomplete', hcopied.of_keeps h.keeps hroot, hreserved,
      h.pays hmeets⟩
  · obtain ⟨⟨rfl, hsound', hkeeps'⟩, hless, hshort⟩ := he
    rw [Finset.erase_insert h.fresh] at hkeeps'
    exact ⟨rfl, ⟨hsound', hkeeps'⟩, hless, h.short hshort⟩

end NewSpace

/-- a new address space is filled; if that fails its slot is vacant again -/
theorem ends_fillSpace {ε : Type} {fillIn : Layout → Attempt Machine ε Unit}
    {ofFrame : FrameError → ε} {D : Machine → Prop} {E : ε → Memory → Prop} (h : k.Valid ∅)
    (hp : k.processes.get? pid = some p) (hvacant : p.isVacant = true) (hzero : pid ≠ 0)
    (hnew : NewSpace k r m)
    (hfill : Ends (fillIn k.layout) m
      (fun _ m' => Filling k r m.toMemory m'.toMemory ∧ Complete k.layout r m'.toMemory ∧ D m')
      (Fails fun e m' => E e m'.toMemory ∧ Filling k r m.toMemory m'.toMemory)) :
    Ends (fillSpace pid ⟨r⟩ ofFrame fillIn) { k with machine := m }
      (fun _ k' => Serves pid k k' ∧
        k'.processes.get? pid = some { p with space := some ⟨r⟩ } ∧ D k'.machine)
      (Fails fun e k' => (∃ mem, E e mem ∧ k'.memory.contents = mem.contents) ∧ Serves pid k k' ∧
        k'.processes.get? pid = some p.vacated) := by
  have hpid := ProcessTable.lt_of_get? hp
  have hslot := ProcessTable.get?_update_self (fun p => { p with space := some ⟨r⟩ }) hp
  have hothers := fun q (hq : q ≠ pid) => ProcessTable.get?_update_of_ne (t := k.processes)
    (fun p => { p with space := some ⟨r⟩ }) hq
  -- whatever of the filling has been done, the others have what they had
  have hstart : ∀ m' : Machine, Filling k r m.toMemory m'.toMemory →
      Valid { k with
        machine := m'
        processes := k.processes.update pid fun p => { p with space := some ⟨r⟩ } } {pid} ∧
      ∀ others, pid ∉ others → Spares others k { k with
        machine := m'
        processes := k.processes.update pid fun p => { p with space := some ⟨r⟩ } } := by
    intro m' hfilling
    have hall := hnew.keeps.trans hfilling.keeps
    refine ⟨(h.adopt hp hvacant hzero hnew.fresh hfilling.sound hall).1, fun others hnot =>
      ⟨rfl, rfl, fun q hq => hothers q ?_, hall.subset ProcessTable.rootsOf_subset⟩⟩
    rintro rfl
    exact hnot hq
  unfold fillSpace
  rw [ends_bind, ends_lift, ends_changeProcess hpid, ends_bind, ends_get, ends_onError,
    ends_onMachine]
  refine hfill.mono (fun _ m' hm' => ?_) fun e m' he => ?_
  · obtain ⟨hfilling, hcomplete, hd⟩ := hm'
    obtain ⟨hvalid, hspares⟩ := hstart m' hfilling
    refine ⟨⟨{ hvalid with complete := fun q _ s hs => ?_ }, hspares, rfl, rfl, rfl, rfl⟩,
      hslot, hd⟩
    by_cases hq : q = pid
    · subst hq
      obtain rfl := Option.some.inj ((ProcessTable.space?_of_get? hslot).symm.trans hs)
      exact hcomplete
    · exact hvalid.complete q (fun hin => hq (Finset.mem_singleton.1 hin)) s hs
  · cases e with
    | panic e => exact he
    | error e =>
      obtain ⟨he, hfilling⟩ := he
      obtain ⟨hvalid, hspares⟩ := hstart m' hfilling
      show Ends ((freeProcess pid).mapError ofFrame >>= fun _ => Attempt.fail e) _ _ _
      rw [ends_bind, ends_mapError]
      refine (ends_freeProcess hvalid hslot).mono (fun _ k' hk' => ?_) fun _ _ hn => hn.elim
      obtain ⟨hserves, hslot', hcontents⟩ := hk'
      exact ends_fail.2 ⟨⟨m'.toMemory, he, hcontents⟩, ⟨hserves.valid, fun others hnot =>
        (hspares others hnot).trans (hserves.spares others hnot), hserves.current, hserves.host,
        hserves.ticks, hserves.viewer⟩, hslot'⟩

namespace NewSpace

/-- the new address space of a slot gets a program, or is given back -/
theorem ends_fillLoad (hnew : NewSpace k r m) (h : k.Valid ∅)
    (hp : k.processes.get? pid = some p) (hvacant : p.isVacant = true) (hzero : pid ≠ 0)
    {ofFrame : FrameError → SetupError} (image : ProgramImage) :
    Ends (fillSpace pid ⟨r⟩ ofFrame fun layout => (AddressSpace.mk r).load k.space layout image)
      { k with machine := m }
      (fun _ k' => Serves pid k k' ∧ k'.processes.get? pid = some { p with space := some ⟨r⟩ } ∧
        k.freeCount ≤ k'.freeCount + (image.cost k.layout + 1) ∧
        Pays k r (image.footprint k.layout) k'.memory ∧
        AddressSpace.Loaded k.layout r image k'.memory)
      (Fails fun e k' => Serves pid k k' ∧ k'.processes.get? pid = some p.vacated ∧
        (image.Fits k.layout → k.freeCount < image.cost k.layout + 1 ∧
          k.freeCount < k.layout.spaceFrames (image.footprint k.layout)) ∧
        (image.WellFormed → image.Refusal k.layout e)) := by
  have hcost := hnew.cost
  refine (ends_fillSpace (E := fun e _ =>
      (image.Fits k.layout → m.freeCount < image.cost k.layout ∧
        k.freeCount < k.layout.spaceFrames (image.footprint k.layout)) ∧
      (image.WellFormed → image.Refusal k.layout e)) h hp hvacant hzero hnew
    ((hnew.ends_load image).mono (fun _ _ hq => hq) (Fails.mono fun _ _ he => he.symm))).mono
    (fun _ k' hk' => ?_) (Fails.mono fun e k' he => ?_)
  · obtain ⟨hserves, hslot, hfree, hrest⟩ := hk'
    refine ⟨hserves, hslot, ?_, hrest⟩
    show k.freeCount ≤ k'.machine.freeCount + (image.cost k.layout + 1)
    omega
  · obtain ⟨⟨-, ⟨hless, hwhy⟩, -⟩, hserves, hslot⟩ := he
    refine ⟨hserves, hslot, fun hfits => ?_, hwhy⟩
    obtain ⟨hfew, hshort⟩ := hless hfits
    exact ⟨by omega, hshort⟩

/-- the new address space of a slot gets the memory of another process, or is given back -/
theorem ends_fillCopy {child parent : Nat} (hnew : NewSpace k r m) (h : k.Valid ∅)
    (hp : k.processes.get? child = some p) (hvacant : p.isVacant = true) (hzero : child ≠ 0)
    {s : AddressSpace} (hs : k.processes.space? parent = some s)
    {ofFrame : FrameError → ForkError} :
    Ends (fillSpace child ⟨r⟩ ofFrame fun layout =>
        (s.copyInto ⟨r⟩ layout).mapError ForkError.memory) { k with machine := m }
      (fun _ k' => Serves child k k' ∧
        k'.processes.get? child = some { p with space := some ⟨r⟩ } ∧
        AddressSpace.CopyOf k.layout s.root r k.memory k'.memory ∧
        Pays k r (AddressSpace.writablePages k.layout s.root k.memory) k'.memory)
      (Fails fun e k' => Serves child k k' ∧ k'.processes.get? child = some p.vacated ∧
        e = .memory .outOfMemory ∧
        k.freeCount < AddressSpace.copyCost k.layout k.layout.endPage + 1 ∧
        k.freeCount
          < k.layout.spaceFrames (AddressSpace.writablePages k.layout s.root k.memory)) := by
  have hcost := hnew.cost
  have hfill := (hnew.ends_copyInto h hs).mapError (f := ForkError.memory) (F := fun e m' =>
    (e = .memory .outOfMemory ∧ m.freeCount < AddressSpace.copyCost k.layout k.layout.endPage ∧
      k.freeCount < k.layout.spaceFrames (AddressSpace.writablePages k.layout s.root k.memory)) ∧
    Filling k r m.toMemory m'.toMemory) <| by
    rintro e m' ⟨rfl, hfilling, hshort⟩
    exact ⟨⟨rfl, hshort⟩, hfilling⟩
  refine (ends_fillSpace (E := fun e _ => e = .memory .outOfMemory ∧
      m.freeCount < AddressSpace.copyCost k.layout k.layout.endPage ∧
      k.freeCount < k.layout.spaceFrames (AddressSpace.writablePages k.layout s.root k.memory))
    h hp hvacant hzero hnew hfill).mono (fun _ k' hk' => ?_) (Fails.mono fun e k' he => ?_)
  · obtain ⟨hserves, hslot, hcopy, -, hpays⟩ := hk'
    exact ⟨hserves, hslot, hcopy, hpays⟩
  · obtain ⟨⟨-, ⟨hwhat, hfew, hshort⟩, -⟩, hserves, hslot⟩ := he
    exact ⟨hserves, hslot, hwhat, by omega, hshort⟩

end NewSpace

/-! ## what was begun in vain -/

/-- an operation that failed has given back all that it took: every slot holds what it held, the
registers apart, and every frame that is counted has its count and its bytes -/
structure Undone (k k' : Kernel) : Prop where
  lives : ∀ q, (k'.processes.get? q).map Process.life = (k.processes.get? q).map Process.life
  counts : ∀ f, k'.memory.count f = k.memory.count f
  bytes : ∀ f, k.memory.count f ≠ 0 → k'.memory.data f = k.memory.data f

namespace Undone

theorem refl : Undone k k := ⟨fun _ => rfl, fun _ => rfl, fun _ _ => rfl⟩

theorem of_memory (hm : m.toMemory = k.memory) : Undone k { k with machine := m } :=
  ⟨fun _ => rfl, fun f => congrArg (Memory.count · f) hm, fun f _ => congrArg (Memory.data · f) hm⟩

/-- a slot that was vacant is vacant again.  All references are held by the others, who have what
they had -/
theorem of_serves (h : k.Valid ∅) (hserves : Serves pid k k') (hp : k.processes.get? pid = some p)
    (hvacant : p.isVacant = true) {p' : Process} (hp' : k'.processes.get? pid = some p')
    (hvacant' : p'.isVacant = true) : Undone k k' := by
  have hv := hserves.valid
  have hnone := (ProcessTable.space?_of_get? hp).trans (Process.isVacant_iff.1 hvacant).2
  have hlives : ∀ q, (k'.processes.get? q).map Process.life
      = (k.processes.get? q).map Process.life := by
    intro q
    by_cases hq : q = pid
    · subst hq
      rw [hp, hp', Option.map_some, Option.map_some, Process.life, Process.life,
        h.numbered q p hp, hv.numbered q p' hp', (Process.isVacant_iff.1 hvacant).1,
        (Process.isVacant_iff.1 hvacant).2, (Process.isVacant_iff.1 hvacant').1,
        (Process.isVacant_iff.1 hvacant').2]
    · rw [hserves.get? hq]
  have hroots : k'.processes.roots = k.processes.roots :=
    ProcessTable.roots_congr fun q => ProcessTable.space?_of_life (hlives q)
  -- all address spaces are those of the others
  have hspares := hserves.spares _ (Finset.notMem_erase pid (Finset.range slotCount))
  have hkeeps := hspares.keeps.subset (ProcessTable.roots_subset hnone)
  have hpage : ∀ r ∈ k.processes.roots, ∀ n, k'.memory.frameAt r n = k.memory.frameAt r n := by
    intro r hr n
    rw [Memory.frameAt, Memory.frameAt, hkeeps.pageAt (Finset.mem_insert_of_mem hr)]
  refine ⟨hlives, fun f => ?_, fun f hf => ?_⟩
  · have hcount := hv.sound.accounts f
    rw [hspares.layout, hspares.space, hroots,
      Memory.tableCount_congr fun r hr => Memory.isTable_congr (hkeeps.tables r hr),
      Memory.holders_congr fun r hr n _ _ => hpage r hr n, ← h.sound.accounts f] at hcount
    exact hcount
  · exact Keeps.data_of_count h.sound hkeeps hf

end Undone

/-! ## the operations -/

/-- the slot `pid` holds a process that starts with the memory of a program -/
structure Loads (pid : Pid) (image : ProgramImage) (k k' : Kernel) : Prop where
  vacant : ∃ p, k.processes.get? pid = some p ∧ p.isVacant = true ∧ pid ≠ 0
  serves : Serves pid k k'
  memory : ∃ s, Adopts pid s k k' ∧ AddressSpace.Loaded k.layout s.root image k'.memory
  slot : ∃ p, k'.processes.get? pid = some p ∧ p.state = .runnable ∧
    p.registers = Registers.entry image.entry.value k.layout.virtualSize
  /-- what was taken is what its address space needs, but for what that may still lack -/
  cost : ∀ s, k'.processes.space? pid = some s →
    k'.freeCount + k.layout.spaceFrames (image.footprint k.layout)
      = k.freeCount + k'.memory.demand k.layout s.root (image.footprint k.layout)

/-- a slot that has got the memory of a program becomes a process that can run -/
theorem Serves.loads {p₁ : Process} {s : AddressSpace} {image : ProgramImage}
    (h : Serves pid k k') (hk : k.Valid ∅) (hp : k.processes.get? pid = some p)
    (hvacant : p.isVacant = true) (hzero : pid ≠ 0) (hp₁ : k'.processes.get? pid = some p₁)
    (hs : p₁.space = some s) (hloaded : AddressSpace.Loaded k.layout s.root image k'.memory)
    (hcost : Pays k s.root (image.footprint k.layout) k'.memory)
    (hm : m.toMemory = k'.memory) {final : Kernel} (hfinal : final = { k' with
      machine := m
      processes := k'.processes.update pid fun p => { p with
        state := .runnable
        registers := Registers.entry image.entry.value k'.layout.virtualSize } }) :
    Loads pid image k final := by
  subst hfinal
  have hnone := (ProcessTable.space?_of_get? hp).trans (Process.isVacant_iff.1 hvacant).2
  have hlayout : k'.layout = k.layout := congrArg KernelConfig.layout h.config
  have hserves₂ := Serves.of_update h.valid pid
    (fun p => { p with
      state := .runnable
      registers := Registers.entry image.entry.value k'.layout.virtualSize })
    (fun _ => rfl) (fun _ => rfl) fun p hp _ => by
      obtain rfl := Option.some.inj (hp₁.symm.trans hp)
      rw [hs]
      rfl
  have hslot₂ := ProcessTable.get?_update_self (fun p => { p with
    state := .runnable
    registers := Registers.entry image.entry.value k'.layout.virtualSize }) hp₁
  have hall := h.trans (hserves₂.trans (.of_memory hserves₂.valid hm))
  have hadopts := hall.adopts hk hnone ((ProcessTable.space?_of_get? hslot₂).trans hs)
  refine ⟨⟨p, hp, hvacant, hzero⟩, hall, ⟨s, hadopts, ?_⟩, ⟨_, hslot₂, rfl, ?_⟩,
    fun s' hs' => ?_⟩
  · show AddressSpace.Loaded k.layout s.root image m.toMemory
    rw [hm]
    exact hloaded
  · rw [hlayout]
  · obtain rfl := Option.some.inj (hadopts.space.symm.trans hs')
    show Pays k s.root (image.footprint k.layout) m.toMemory
    rw [hm]
    exact hcost

theorem spaceFrames_pos {wanted : Finset Nat} (h : k.freeCount = 0) :
    k.freeCount < k.layout.spaceFrames wanted := by
  rw [h, Layout.spaceFrames]
  omega

/-- a program is loaded into a slot that was vacant, if its segments fit and there is memory for it
-/
theorem ends_setup (h : k.Valid ∅) (image : ProgramImage) :
    Ends (setup pid image) k
      (fun _ k' => Confined ∅ k k' ∧ k'.processes.Runs pid ∧ k'.ticks = k.ticks ∧
        k'.host = k.host ∧ k.freeCount ≤ k'.freeCount + (image.cost k.layout + 1) ∧
        Loads pid image k k')
      (Fails fun e k' => Confined ∅ k k' ∧ Undone k k' ∧
        (pid ≠ 0 → (∃ p, k.processes.get? pid = some p ∧ p.isVacant = true) →
          (image.Fits k.layout → k.freeCount < image.cost k.layout + 1 ∧
            k.freeCount < k.layout.spaceFrames (image.footprint k.layout)) ∧
          (image.WellFormed → image.Refusal k.layout e))) := by
  unfold setup
  rw [ends_bind, ends_get]
  dsimp only
  refine ends_ite.2 ⟨fun hzero => ends_fail.2 ⟨.refl h, .refl, fun hne => absurd hzero hne⟩,
    fun hzero => ?_⟩
  rw [ends_bind]
  cases hp : k.processes.get? pid with
  | none =>
    refine ends_orFail_none.2 ⟨.refl h, .refl, ?_⟩
    rintro - ⟨p, ⟨⟩, -⟩
  | some p =>
    rw [ends_orFail_some]
    refine ends_ite.2 ⟨fun hfull => ends_fail.2 ⟨.refl h, .refl, ?_⟩, fun hvacant => ?_⟩
    · rintro - ⟨p', ⟨⟩, hvacant⟩
      rw [hvacant] at hfull
      cases hfull
    rw [Bool.not_eq_true', Bool.not_eq_false] at hvacant
    have hnone := (ProcessTable.space?_of_get? hp).trans (Process.isVacant_iff.1 hvacant).2
    rw [ends_bind, ends_onMachine, ends_lift]
    refine h.ends_allocate.mono (fun space? m hm => ?_) fun _ _ hn => hn
    cases space? with
    | none =>
      refine ends_orFail_none.2
        ⟨Serves.confined_of_none (Serves.of_memory h hm.1) hnone, .of_memory hm.1,
          fun _ _ => ⟨fun _ => ⟨?_, spaceFrames_pos hm.2⟩, fun _ => .outOfMemory⟩⟩
      exact Nat.lt_of_le_of_lt (Nat.le_of_eq hm.2) (Nat.succ_pos _)
    | some space =>
      rw [ends_bind, ends_orFail_some, ends_bind]
      refine (hm.ends_fillLoad h hp hvacant hzero image).mono (fun _ k₁ hk₁ => ?_)
        (Fails.mono fun _ k₁ he => ?_)
      · obtain ⟨hserves, hslot, hcost, hpays, hloaded⟩ := hk₁
        rw [ends_bind, ends_get, ends_bind, ends_lift, ends_setProcess, ends_lift]
        refine ends_report fun m' hm' => ?_
        have hloads := hserves.loads h hp hvacant hzero hslot rfl hloaded hpays hm' rfl
        obtain ⟨p', hslot', hrun, -⟩ := hloads.slot
        refine ⟨hloads.serves.confined_of_none hnone, ⟨p', hslot', ?_⟩, hloads.serves.ticks,
          hloads.serves.host, ?_, hloads⟩
        · rw [Process.isRunnable, hrun]
          rfl
        · show k.freeCount ≤ m'.freeCount + (image.cost k.layout + 1)
          rw [hm']
          exact hcost
      · obtain ⟨hserves, hslot, hwhy⟩ := he
        exact ⟨hserves.confined_of_none hnone, .of_serves h hserves hp hvacant hslot rfl,
          fun _ _ => hwhy⟩

/-- the process of `pid` has got a new page at `va`, where it may have one -/
structure Allocates (pid : Pid) (va : VirtualAddress) (k k' : Kernel) : Prop where
  serves : Serves pid k k'
  processes : k'.processes = k.processes
  place : k.layout.isUserAddress va = true ∧ va.isAligned = true
  memory : ∃ s, k.processes.space? pid = some s ∧
    AddressSpace.Replaced k.layout s.root va.page.number.toNat k.memory k'.memory

/-- why a process does not get a page, and what is left then -/
inductive PageRefusal (pid : Pid) (va : VirtualAddress) (k k' : Kernel) :
    PageAllocError → Prop where
  | invalidAddress (h : ¬ (k.layout.isUserAddress va = true ∧ va.isAligned = true))
      (hsame : k' = k) : PageRefusal pid va k k' (.invalidAddress va)
  | notLoaded (h : k.processes.space? pid = none) (hsame : k' = k) :
      PageRefusal pid va k k' (.notLoaded pid)
  | outOfMemory {s : AddressSpace} (hs : k.processes.space? pid = some s)
      (hrange : k.layout.isUserAddress va = true) (haligned : va.isAligned = true)
      (hspent : Spent s.root va.page.number.toNat k.memory k'.memory) :
      PageRefusal pid va k k' (.memory .outOfMemory)

/-- a process gets a page that it may write, or is told why not; with a valid address it gets one as
long as there are frames for the page and its tables -/
theorem ends_pageAlloc (h : k.Valid ∅) (va : VirtualAddress) :
    Ends (pageAlloc pid va) k (fun _ k' => Allocates pid va k k')
      (Fails fun e k' => (PageRefusal pid va k k' e ∧
          (k.layout.isUserAddress va = true → va.isAligned = true →
            ∀ s, k.processes.space? pid = some s → k.freeCount
              < k.memory.missing s.root (pagePath va.page.number.toNat) + 1)) ∧
        Serves pid k k' ∧ k'.processes = k.processes) := by
  unfold pageAlloc
  rw [ends_bind, ends_get]
  dsimp only
  refine ends_ite.2 ⟨fun hva => ?_, fun hva => ?_⟩
  · have hout : ¬ (k.layout.isUserAddress va = true ∧ va.isAligned = true) := by
      rintro ⟨hrange, haligned⟩
      rw [hrange, haligned] at hva
      cases hva
    exact ends_fail.2 ⟨⟨.invalidAddress hout rfl, fun hrange haligned =>
      absurd ⟨hrange, haligned⟩ hout⟩, .refl h, rfl⟩
  rw [ends_bind]
  cases hs : k.processes.space? pid with
  | none =>
    exact ends_orFail_none.2 ⟨⟨.notLoaded hs rfl, fun _ _ _ hs => by cases hs⟩, .refl h, rfl⟩
  | some s =>
    obtain ⟨hrange, haligned⟩ : k.layout.isUserAddress va = true ∧ va.isAligned = true := by
      simpa using hva
    have hl := h.sound.ordered
    obtain ⟨hfrom, hbefore⟩ := (hl.isUserAddress_iff va).1 hrange
    have hroot := ProcessTable.root_mem hs
    have hown := h.complete pid (Finset.notMem_empty pid) s hs
    have hreplace := AddressSpace.ends_replace va (m := k.machine) h.sound hroot
      (by omega) (by omega)
    rw [ends_orFail_some, ends_mapError, ends_onMachine]
    refine hreplace.mono (fun _ m' hm' => ?_) fun e m' he => ?_
    · obtain ⟨hsound, hkeeps, hreplaced⟩ := hm'
      exact ⟨.of_keeps h hs hsound hkeeps (hreplaced.complete hl hfrom hown), rfl,
        ⟨hrange, haligned⟩, s, hs, hreplaced⟩
    · cases e with
      | panic e => exact he.elim
      | error e =>
        obtain ⟨⟨rfl, hsound, hkeeps⟩, hpages, hspent⟩ := he
        refine ⟨⟨.outOfMemory hs hrange haligned hspent, fun _ _ s' hs' => ?_⟩,
          .of_keeps h hs hsound hkeeps (hown.congr hpages), rfl⟩
        obtain rfl := Option.some.inj hs'
        exact hspent.less

theorem ends_teardown (h : k.Valid ∅) :
    Ends (teardown pid) k
      (fun _ k' => Serves pid k k' ∧ (pid ≠ 0 ∧ ∃ p, k.processes.get? pid = some p ∧
        k'.processes.get? pid = some p.vacated) ∧ k'.memory.contents = k.memory.contents)
      (Fails fun e k' => (pid = 0 ∨ slotCount ≤ pid) ∧ e = .notRunnable pid ∧ k' = k) := by
  unfold teardown
  dsimp only
  refine ends_ite.2 ⟨fun hout => ends_fail.2 ⟨hout, rfl, rfl⟩, fun hin => ?_⟩
  rw [not_or, Nat.not_le] at hin
  rw [ends_bind, ends_mapError]
  obtain ⟨p, hp⟩ := ProcessTable.exists_get? (t := k.processes) hin.2
  refine (ends_freeProcess h.mono hp).mono (fun _ k₁ hk₁ => ?_) fun _ _ hn => hn.elim
  obtain ⟨hserves, hslot, hcontents⟩ := hk₁
  rw [ends_bind, ends_get, ends_lift]
  refine ends_report fun m' hm' => ?_
  exact ⟨hserves.trans (.of_memory hserves.valid hm'), ⟨hin.1, p, hp, hslot⟩,
    (congrArg Memory.contents hm').trans hcontents⟩

/-- what a duplication of `parent` leaves: a valid kernel that has the processes of before, but for
the registers of `parent` -/
structure Forks (parent : Pid) (k k' : Kernel) : Prop where
  valid : k'.Valid ∅
  spares : ∀ others, parent ∉ others → k.Loaded others → Spares others k k'
  current : k'.current = k.current
  host : k'.host = k.host
  config : k'.config = k.config
  ticks : k'.ticks = k.ticks
  runs : k.processes.Runs parent → k'.processes.Runs parent

theorem Forks.confined {parent : Nat} (h : Forks parent k k') : Confined {parent} k k' :=
  ⟨h.valid, fun others hd hl => h.spares others (Finset.disjoint_singleton_left.1 hd) hl⟩

theorem Forks.of_serves {child parent : Nat} (h : Serves child k k')
    (hchild : k.processes.space? child = none) (hne : parent ≠ child) : Forks parent k k' := by
  refine ⟨h.valid, fun others _ hl => h.spares others fun hin => ?_, h.current, h.host, h.config,
    h.ticks, ?_⟩
  · have := hl child hin
    rw [hchild] at this
    cases this
  · rintro ⟨p, hp, hrun⟩
    exact ⟨p, (h.get? hne).trans hp, hrun⟩

/-- what follows is done for `parent` -/
theorem Forks.serves {parent : Nat} (h : Forks parent k k') (h' : Serves parent k' k'')
    (hruns : k.processes.Runs parent → k''.processes.Runs parent) : Forks parent k k'' :=
  ⟨h'.valid, fun others hnot hl => (h.spares others hnot hl).trans (h'.spares others hnot),
    h'.current.trans h.current, h'.host.trans h.host, h'.config.trans h.config,
    h'.ticks.trans h.ticks, hruns⟩

/-- `child` was the first vacant slot, and has become what `parent` was -/
structure Begets (parent child : Pid) (k k' : Kernel) : Prop where
  first : k.processes.firstFree? = some child
  memory : ∃ s s', k.processes.space? parent = some s ∧ Adopts child s' k k' ∧
    AddressSpace.CopyOf k.layout s.root s'.root k.memory k'.memory
  slotChild : ∃ p₀ p, k.processes.get? parent = some p₀ ∧ k'.processes.get? child = some p ∧
    p.state = .runnable ∧ p.registers = p₀.registers.result 0
  slotParent : k'.processes.get? parent = (k.processes.get? parent).map fun p =>
    { p with registers := p.registers.result (UInt64.ofNat child) }
  slotOther : ∀ q, q ≠ parent → q ≠ child → k'.processes.get? q = k.processes.get? q
  /-- what was taken is what its address space needs, but for what that may still lack -/
  cost : ∀ s s', k.processes.space? parent = some s → k'.processes.space? child = some s' →
    k'.freeCount + k.layout.spaceFrames (AddressSpace.writablePages k.layout s.root k.memory)
      = k.freeCount + k'.memory.demand k.layout s'.root
        (AddressSpace.writablePages k.layout s.root k.memory)

/-- a child with an address space gets the registers of its parent, and both get their results -/
theorem Serves.forks {child parent : Nat} {p₀ p₁ : Process} {s s' : AddressSpace}
    (h : Serves child k k') (hk : k.Valid ∅) (hfirst : k.processes.firstFree? = some child)
    (hchild : k.processes.space? child = none) (hne : parent ≠ child)
    (hs : k.processes.space? parent = some s) (hp₀ : k.processes.get? parent = some p₀)
    (hp₁ : k'.processes.get? child = some p₁) (hs' : p₁.space = some s')
    (hcopy : AddressSpace.CopyOf k.layout s.root s'.root k.memory k'.memory)
    (hcost : Pays k s'.root (AddressSpace.writablePages k.layout s.root k.memory) k'.memory)
    (hm : m.toMemory = k'.memory) {final : Kernel} (hfinal : final = { k' with
      machine := m
      processes := (k'.processes.update child fun p =>
          { p with state := .runnable, registers := p₀.registers.result 0 }).update parent fun p =>
        { p with registers := p.registers.result (UInt64.ofNat child) } }) :
    Forks parent k final ∧ Begets parent child k final := by
  subst hfinal
  have hready : ∀ p, k'.processes.get? child = some p → p.space.isSome = true := by
    intro p hp
    obtain rfl := Option.some.inj (hp₁.symm.trans hp)
    rw [hs']
    rfl
  have hserves₂ := Serves.of_update h.valid child
    (fun p => { p with state := .runnable, registers := p₀.registers.result 0 })
    (fun _ => rfl) (fun _ => rfl) fun p hp _ => hready p hp
  have hslot₂ := ProcessTable.get?_update_self
    (fun p => { p with state := .runnable, registers := p₀.registers.result 0 }) hp₁
  have hforks := Forks.of_serves (h.trans hserves₂) hchild hne
  have hserves₃ := Serves.of_update hforks.valid parent
    (fun p => { p with registers := p.registers.result (UInt64.ofNat child) })
    (fun _ => rfl) (fun _ => rfl) fun p hp hrun => hforks.valid.ready parent p hp hrun
  have hslot₃ := ProcessTable.get?_update_self
    (fun p => { p with registers := p.registers.result (UInt64.ofNat child) })
    ((hserves₂.get? hne).trans ((h.get? hne).trans hp₀))
  have hlast := hserves₃.trans (Serves.of_memory hserves₃.valid hm)
  have hspace₂ := (ProcessTable.space?_of_get? hslot₂).trans hs'
  have hadopts := ((h.trans hserves₂).adopts hk hchild hspace₂).congr hlast.valid hlast.config
    (ProcessTable.space?_congr (hlast.get? (Ne.symm hne))) hm
  have hcopied : AddressSpace.CopyOf k.layout s.root s'.root k.memory m.toMemory := by
    rw [hm]
    exact hcopy
  have hpaid : Pays k s'.root (AddressSpace.writablePages k.layout s.root k.memory) m.toMemory := by
    rw [hm]
    exact hcost
  refine ⟨hforks.serves hlast ?_, hfirst, ⟨s, s', hs, hadopts, hcopied⟩,
    ⟨p₀, _, hp₀, (hlast.get? (Ne.symm hne)).trans hslot₂, rfl, rfl⟩, ?_, fun q hq hq' => ?_,
    fun s₁ s₁' hs₁ hs₁' => ?_⟩
  · rintro ⟨p, hp, hrun⟩
    obtain rfl := Option.some.inj (hp₀.symm.trans hp)
    exact ⟨_, hslot₃, hrun⟩
  · rw [hp₀]
    exact hslot₃
  · exact (hlast.get? hq).trans ((h.trans hserves₂).get? hq')
  · obtain rfl := Option.some.inj (hs.symm.trans hs₁)
    obtain rfl := Option.some.inj (hadopts.space.symm.trans hs₁')
    exact hpaid

/-- why a process is not duplicated -/
inductive ForkRefusal (parent : Pid) (k : Kernel) : ForkError → Prop where
  | notLoaded (h : k.processes.space? parent = none) : ForkRefusal parent k (.notLoaded parent)
  | noSlot (h : k.processes.firstFree? = none) : ForkRefusal parent k .noSlot
  | outOfMemory {s : AddressSpace} (hs : k.processes.space? parent = some s)
      (hshort : k.freeCount
        < k.layout.spaceFrames (AddressSpace.writablePages k.layout s.root k.memory)) :
      ForkRefusal parent k (.memory .outOfMemory)

/-- a process is duplicated, if a slot is vacant and there is memory for it.  If it is not, nothing
is left of the attempt -/
theorem ends_fork {parent : Nat} (h : k.Valid ∅) :
    Ends (fork parent) k (fun child k' => Forks parent k k' ∧ Begets parent child k k')
      (Fails fun e k' => (ForkRefusal parent k e ∧
          (k.processes.space? parent ≠ none → k.processes.firstFree? ≠ none →
            k.freeCount < AddressSpace.copyCost k.layout k.layout.endPage + 1)) ∧
        Forks parent k k' ∧ Undone k k' ∧
        k'.processes.get? parent = k.processes.get? parent) := by
  have hstay : ∀ m : Machine, m.toMemory = k.memory →
      Forks parent k { k with machine := m } ∧ Undone k { k with machine := m } ∧
        k.processes.get? parent = k.processes.get? parent :=
    fun m hm => ⟨⟨h.of_eq rfl rfl hm rfl h.current h.shown, fun _ _ _ => .of_eq rfl rfl hm rfl,
      rfl, rfl, rfl, rfl, id⟩, .of_memory hm, rfl⟩
  unfold fork
  rw [ends_bind, ends_get]
  dsimp only
  rw [ends_bind]
  cases hs : k.processes.space? parent with
  | none =>
    exact ends_orFail_none.2 ⟨⟨.notLoaded hs, fun hne => absurd rfl hne⟩, hstay k.machine rfl⟩
  | some s =>
    rw [ends_orFail_some, ends_bind]
    cases hfree : k.processes.firstFree? with
    | none =>
      exact ends_orFail_none.2 ⟨⟨.noSlot hfree, fun _ hne => absurd rfl hne⟩, hstay k.machine rfl⟩
    | some child =>
      obtain ⟨p, hp, hvacant, hzero⟩ := ProcessTable.firstFree?_some h.numbered hfree
      obtain ⟨p₀, hp₀, hspace₀⟩ := ProcessTable.get?_of_space? hs
      have hchild := (ProcessTable.space?_of_get? hp).trans (Process.isVacant_iff.1 hvacant).2
      have hne : parent ≠ child := by
        rintro rfl
        cases hchild.symm.trans hs
      rw [ends_orFail_some, ends_bind, ends_onMachine, ends_lift]
      refine h.ends_allocate.mono (fun space? m hm => ?_) fun _ _ hn => hn
      cases space? with
      | none =>
        refine ends_orFail_none.2 ⟨⟨.outOfMemory hs (spaceFrames_pos hm.2), fun _ _ => ?_⟩,
          hstay m hm.1⟩
        exact Nat.lt_of_le_of_lt (Nat.le_of_eq hm.2) (Nat.succ_pos _)
      | some target =>
        rw [ends_bind, ends_orFail_some, ends_bind]
        refine (hm.ends_fillCopy h hp hvacant hzero hs).mono (fun _ k₁ hk₁ => ?_)
          (Fails.mono fun _ k₁ he => ?_)
        · obtain ⟨hserves, hslot, hcopy, hpays⟩ := hk₁
          have hparent : k₁.processes.get? parent = some p₀ := (hserves.get? hne).trans hp₀
          have hlt := ProcessTable.lt_of_get? hslot
          have hlt₀ := ProcessTable.lt_of_get? hparent
          rw [ends_bind, ends_lift, ends_process hparent, ends_bind, ends_lift,
            ends_changeProcess hlt, ends_bind, ends_lift, ends_changeProcess hlt₀, ends_bind,
            ends_lift]
          exact ends_report fun m' hm' => ends_pure.2
            (hserves.forks h hfree hchild hne hs hp₀ hslot rfl hcopy hpays hm' rfl)
        · obtain ⟨hserves, hslot, rfl, hfew, hshort⟩ := he
          exact ⟨⟨.outOfMemory hs hshort, fun _ _ => hfew⟩, .of_serves hserves hchild hne,
            .of_serves h hserves hp hvacant hslot rfl, hserves.get? hne⟩

/-- what a write of the process `pid` leaves: nothing changes but what it may write -/
structure Writes (pid : Pid) (k k' : Kernel) : Prop where
  serves : Serves pid k k'
  writable : ∀ f, k'.memory.data f ≠ k.memory.data f →
    ∃ s, k.processes.space? pid = some s ∧ AddressSpace.Writable k.layout s.root k.memory f
  pages : ∀ s, k.processes.space? pid = some s →
    ∀ n, k'.memory.pageAt s.root n = k.memory.pageAt s.root n
  processes : k'.processes = k.processes

theorem Writes.refl (h : k.Valid ∅) : Writes pid k k :=
  ⟨.refl h, fun _ hf => absurd rfl hf, fun _ _ _ => rfl, rfl⟩

/-- a process writes; this fails at a page that it may not write -/
theorem ends_writeUser (h : k.Valid ∅) (va : VirtualAddress) (bytes : ByteArray) :
    Ends (writeUser pid va bytes) k (fun _ k' => Writes pid k k')
      (Fails fun _ k' => Writes pid k k' ∧ ∀ s, k.processes.space? pid = some s →
        AddressSpace.Refused k.memory s.root (.process .userWrite) va bytes.size) := by
  unfold writeUser
  rw [ends_bind, ends_get, ends_bind]
  cases hs : k.processes.space? pid with
  | none =>
    exact ends_orFail_none.2 ⟨.refl h, nofun⟩
  | some s =>
    have hroot := ProcessTable.root_mem hs
    have hwrites : ∀ m' : Machine,
        Touched (AddressSpace.Writable k.layout s.root k.memory) k.memory m'.toMemory →
        Writes pid k { k with machine := m' } := by
      intro m' ht
      obtain ⟨hsound, hkeeps⟩ := AddressSpace.keeps_writable h.sound hroot ht
      have htable := fun f hf => AddressSpace.not_isTable_of_writable (f := f) h.sound hroot hf
      have hpages : ∀ n, m'.pageAt s.root n = k.memory.pageAt s.root n :=
        Memory.pageAt_congr fun t ht' => ht.data t fun hyes =>
          htable t hyes _ (Sound.root_mem hroot) ht'
      have hself := (h.complete pid (Finset.notMem_empty pid) s hs).congr hpages
      refine ⟨.of_keeps h hs hsound hkeeps hself, fun f hf => ⟨s, hs, ?_⟩, fun s' hs' => ?_, rfl⟩
      · by_contra hnot
        exact hf (ht.data f hnot)
      · obtain rfl := Option.some.inj (hs.symm.trans hs')
        exact hpages
    rw [ends_orFail_some, ends_onMachine]
    refine (AddressSpace.ends_copyTo (m := k.machine) h.sound hroot bytes).mono
      (fun _ m' hm' => hwrites m' hm'.1) fun e m' he => ?_
    cases e with
    | panic e => exact he.elim
    | error e =>
      refine ⟨hwrites m' he.1, fun s' hs' => ?_⟩
      obtain rfl := Option.some.inj hs'
      exact he.2.refused

end Kernel

end PagedKernel
