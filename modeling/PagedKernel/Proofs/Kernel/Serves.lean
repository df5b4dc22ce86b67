import PagedKernel.Proofs.Kernel.Valid

/-!
# What an operation for one process leaves

* `Kernel.Serves`           a valid kernel that has all other slots as before
* `Kernel.Adopts`           a slot got a new address space
* `Kernel.Serves.adopts`    so it did, if it had none before and has one now
* `Kernel.Adopts.count_eq`  each frame is referred to by the new space as often as its count grew
* `Kernel.Adopts.count_page`   a frame that the new space maps, once more than before
-/

namespace PagedKernel

/-- all address spaces are those of the other slots, if this one has none -/
theorem ProcessTable.roots_subset {n : Nat} {t : ProcessTable n} {pid : Nat}
    (hnone : t.space? pid = none) : t.roots ⊆ t.rootsOf ((Finset.range n).erase pid) := by
  intro r hr
  obtain ⟨q, hs⟩ := mem_roots.1 hr
  refine mem_rootsOf.2 ⟨q, Finset.mem_erase.2 ⟨?_, Finset.mem_range.2 (lt_of_space? hs)⟩, hs⟩
  rintro rfl
  cases hnone.symm.trans hs

namespace Kernel

variable {k k' k'' : Kernel} {others : Finset Pid} {pid : Nat} {m : Machine} {p : Process}
  {s : AddressSpace} {f : Frame} {n : Nat}

/-- what an operation for `pid` leaves: a valid kernel that has all other slots as before -/
structure Serves (pid : Pid) (k k' : Kernel) : Prop where
  valid : k'.Valid ∅
  spares : ∀ others, pid ∉ others → Spares others k k'
  current : k'.current = k.current
  host : k'.host = k.host
  ticks : k'.ticks = k.ticks
  viewer : k'.viewer = k.viewer

namespace Serves

theorem get? (h : Serves pid k k') {q : Nat} (hq : q ≠ pid) :
    k'.processes.get? q = k.processes.get? q :=
  (h.spares {q} fun hp => hq (Finset.mem_singleton.1 hp).symm).slots q (Finset.mem_singleton_self q)

theorem config (h : Serves pid k k') : k'.config = k.config :=
  (h.spares ∅ (Finset.notMem_empty pid)).config

theorem confined (h : Serves pid k k') : Confined {pid} k k' :=
  ⟨h.valid, fun others hd _ => h.spares others (Finset.disjoint_singleton_left.1 hd)⟩

/-- nobody takes part in what is done for a slot without an address space -/
theorem confined_of_none (h : Serves pid k k') (hnone : k.processes.space? pid = none) :
    Confined ∅ k k' := by
  refine ⟨h.valid, fun others _ hl => h.spares others fun hin => ?_⟩
  have := hl pid hin
  rw [hnone] at this
  cases this

theorem refl (h : k.Valid ∅) : Serves pid k k := ⟨h, fun _ _ => .refl, rfl, rfl, rfl, rfl⟩

theorem trans (h : Serves pid k k') (h' : Serves pid k' k'') : Serves pid k k'' :=
  ⟨h'.valid, fun others hnot => (h.spares others hnot).trans (h'.spares others hnot),
    h'.current.trans h.current, h'.host.trans h.host, h'.ticks.trans h.ticks,
    h'.viewer.trans h.viewer⟩

theorem of_memory (h : k.Valid ∅) (hm : m.toMemory = k.memory) :
    Serves pid k { k with machine := m } :=
  ⟨h.of_eq rfl rfl hm rfl h.current h.shown, fun _ _ => .of_eq rfl rfl hm rfl, rfl, rfl,
    rfl, rfl⟩

/-- the slot of `pid` changes, and keeps its address space -/
theorem of_update (h : k.Valid ∅) (pid : Pid) (change : Process → Process)
    (hspace : ∀ p, (change p).space = p.space) (hpid : ∀ p, (change p).pid = p.pid)
    (hready : ∀ p, k.processes.get? pid = some p → (change p).isRunnable = true →
      p.space.isSome = true) :
    Serves pid k { k with processes := k.processes.update pid change } :=
  ⟨h.update hspace hpid hready, fun _ hnot => .of_update hnot, rfl, rfl, rfl, rfl⟩

/-- memory changes for the process of `pid` alone, which still has what it needs -/
theorem of_keeps (h : k.Valid ∅) (hs : k.processes.space? pid = some s)
    (hsound : Sound k.layout k.space.root k.processes.roots [] m.toMemory)
    (hkeeps : Keeps k.layout k.space.root (k.processes.roots.erase s.root) k.memory m.toMemory)
    (hself : Complete k.layout s.root m.toMemory) : Serves pid k { k with machine := m } := by
  refine ⟨h.machine hsound fun q hq s' hs' => ?_, fun others hnot => .of_machine ?_,
    rfl, rfl, rfl, rfl⟩
  · by_cases hsame : s'.root = s.root
    · rw [hsame]
      exact hself
    · exact h.complete_of_keeps hkeeps hq hs'
        (Finset.mem_erase.2 ⟨hsame, ProcessTable.root_mem hs'⟩)
  · exact hkeeps.subset (ProcessTable.rootsOf_subset_erase h.distinct hs hnot)

end Serves

/-! ## new address spaces -/

/-- the slot `pid` got the address space `s`, which is new, and all others have what they had -/
structure Adopts (pid : Pid) (s : AddressSpace) (k k' : Kernel) : Prop where
  before : k.Valid ∅
  after : k'.Valid ∅
  config : k'.config = k.config
  space : k'.processes.space? pid = some s
  fresh : s.root ∉ k.processes.roots
  sound : Sound k.layout k.space.root (insert s.root k.processes.roots) [] k'.memory
  keeps : Keeps k.layout k.space.root k.processes.roots k.memory k'.memory

theorem Serves.adopts (h : Serves pid k k') (hk : k.Valid ∅)
    (hnone : k.processes.space? pid = none) (hs : k'.processes.space? pid = some s) :
    Adopts pid s k k' := by
  have hspares := h.spares _ (Finset.notMem_erase pid (Finset.range slotCount))
  have hspaces := fun q (hq : q ≠ pid) => ProcessTable.space?_congr (h.get? hq)
  have hfresh : s.root ∉ k.processes.roots := by
    intro hin
    obtain ⟨q, hq⟩ := ProcessTable.mem_roots.1 hin
    have hne : q ≠ pid := by
      rintro rfl
      cases hnone.symm.trans hq
    exact hne (h.valid.distinct q pid _ ((hspaces q hne).trans hq) hs)
  have hsound := h.valid.sound
  rw [hspares.layout, hspares.space, ProcessTable.roots_of_set hnone hs hspaces] at hsound
  exact ⟨hk, h.valid, h.config, hs, hfresh, hsound,
    hspares.keeps.subset (ProcessTable.roots_subset hnone)⟩

namespace Adopts

theorem layout (h : Adopts pid s k k') : k'.layout = k.layout :=
  congrArg KernelConfig.layout h.config

/-- the rest of what is done for the operation leaves memory as it is -/
theorem congr (h : Adopts pid s k k') (hvalid : k''.Valid ∅) (hconfig : k''.config = k'.config)
    (hspace : k''.processes.space? pid = k'.processes.space? pid)
    (hmemory : k''.memory = k'.memory) : Adopts pid s k k'' := by
  refine ⟨h.before, hvalid, hconfig.trans h.config, hspace.trans h.space, h.fresh, ?_, ?_⟩
  · rw [hmemory]
    exact h.sound
  · rw [hmemory]
    exact h.keeps

/-- as often as the new space refers to a frame, so much has its count grown -/
theorem count_eq (h : Adopts pid s k k') (f : Frame) :
    k'.memory.count f = k.memory.count f + k'.memory.tableCount {s.root} f
      + (k'.memory.holders k.layout {s.root} f).card :=
  h.keeps.count_eq h.before.sound h.sound h.fresh f

/-- a frame that the new space maps has one reference more than before -/
theorem count_page {perms : Permissions} (h : Adopts pid s k k') (h₁ : k.layout.firstPage ≤ n)
    (h₂ : n < k.layout.endPage) (hpage : k'.memory.pageAt s.root n = some (f, perms)) :
    k'.memory.count f = k.memory.count f + 1 := by
  have hself := Finset.mem_insert_self s.root k.processes.roots
  have htables : k'.memory.tableCount {s.root} f = 0 := by
    refine Memory.tableCount_eq_zero fun r hr => ?_
    rw [Finset.mem_singleton.1 hr]
    exact (h.sound.of_page hself h₁ h₂ hpage).2.2 s.root (Sound.root_mem hself)
  have hone : k'.memory.holders k.layout {s.root} f = {(s.root, n)} := by
    ext ⟨r, n'⟩
    rw [Memory.mem_holders, Finset.mem_singleton, Finset.mem_singleton, Prod.mk.injEq]
    constructor
    · rintro ⟨rfl, hn', hframe⟩
      obtain ⟨p', hpage'⟩ := Memory.pageAt_of_frameAt hframe
      exact ⟨rfl, (h.sound.shared _ hself _ hself n' n f p' perms hn'.1 hn'.2 h₁ h₂ hpage'
        hpage).1⟩
    · rintro ⟨rfl, rfl⟩
      exact ⟨rfl, ⟨h₁, h₂⟩, Memory.frameAt_of_pageAt hpage⟩
  rw [h.count_eq, htables, hone, Finset.card_singleton]

end Adopts

end Kernel

end PagedKernel
