import PagedKernel.Kernel.Boot
import PagedKernel.Proofs.Kernel.Lifecycle
import PagedKernel.Proofs.Kernel.Schedule
import PagedKernel.Proofs.Memory.Initial

/-!
# Starting the machine

The kernel's own space is built page by page, each mapped to the frame of its own number.  A kernel
that has started is valid, and of all frames it holds the tables of that space alone.

* `Layout.kernelTables`    so many tables the kernel's own space has
* `Mirrored l kr n mem`    the first `n` pages are mapped
* `Kernel.ends_mapIdentity`, `Kernel.ends_buildSpace`   how the space is built
* `Kernel.started_valid`, `Kernel.console_of_started`, `Kernel.freeCount_of_started`   a kernel that
  has just started
* `Kernel.exists_started_sized`   a machine of any size can be started
* `Kernel.ends_boot`       programs are loaded, and the first is run
-/

namespace PagedKernel

variable {l : Layout} {kr f : Frame} {mem mem' : Memory} {n : Nat} {m : Machine}

/-! ## the tables of the kernel's own space -/

namespace Layout

/-- the tables of the kernel's own space: its root, and those that lead to the pages of memory -/
def kernelTables (l : Layout) : Nat := 1 + ((Finset.range l.frameCount).biUnion pathsTo).card

namespace Ordered

/-- the kernel, its stack and the devices fill some pages -/
theorem one_lt_frameCount (h : l.Ordered) : 1 < l.frameCount := by
  have hstack := h.image_stack
  have hhole := UInt64.le_iff_toNat_le.1 h.stack_hole
  have hconsole := UInt64.le_iff_toNat_le.1 h.hole_console
  have hpage := h.console_eq
  have hlt := h.consolePage_lt
  have hle := h.firstPage_le
  omega

theorem kernelTables_eq (h : l.Ordered) :
    l.kernelTables
      = 1 + (l.frameCount ⌈/⌉ 2 ^ 27 + l.frameCount ⌈/⌉ 2 ^ 18 + l.frameCount ⌈/⌉ 2 ^ 9) := by
  have hle := h.frameCount_le
  rw [kernelTables, card_biUnion_pathsTo (by omega)]

theorem kernelTables_le (h : l.Ordered) : l.kernelTables ≤ 1 + tablesFor l.frameCount := by
  have hlt := h.one_lt_frameCount
  rw [h.kernelTables_eq]
  simp only [Nat.ceilDiv_eq_add_pred_div, tablesFor]
  rw [if_neg (by omega)]
  omega

end Ordered

end Layout

/-- of the kernel's own space the first `n` pages are mapped, and nobody else holds a frame -/
structure Mirrored (l : Layout) (kr : Frame) (n : Nat) (mem : Memory) : Prop where
  ordered : l.Ordered
  forest : Forest mem (insert kr ∅)
  size : mem.contents.size = l.frameCount
  managed : ∀ f, l.isAllocatable f.base = .ok (mem.manages f)
  reserved : ∀ f, mem.count f ≠ 0 → mem.manages f = true
  accounts : ∀ f, mem.count f = mem.tableCount (insert kr ∅) f
  below : ∀ k < n, mem.pageAt kr k = l.kernelPage k
  above : ∀ k, n ≤ k → k < 2 ^ 36 → mem.pageAt kr k = none
  /-- frames that are never handed out hold zeroes -/
  blank : ∀ f, mem.manages f = false → mem.data f = .zero

namespace Mirrored

theorem root_mem : kr ∈ insert kr (∅ : Finset Frame) := Finset.mem_insert_self kr ∅

theorem of_claimed (hl : l.Ordered) (hsize : mem.contents.size = l.frameCount)
    (hcount : ∀ f, mem.count f = 0)
    (hmanaged : ∀ f, l.isAllocatable f.base = .ok (mem.manages f)) (hzero : ∀ f, mem.data f = .zero)
    (h : Claimed mem kr mem') (hempty : ∀ i, mem'.entryAt kr i = .empty) :
    Mirrored l kr 0 mem' := by
  have hbound := hl.frameCount_le
  have hone : mem'.count kr = 1 := by rw [h.count, if_pos rfl]
  have hsize' := h.size.trans hsize
  have hforest := Forest.of_empty hempty (by omega) h.hasFrame hone
  have htable := fun f => Memory.isTable_of_empty (f := f) hempty
  refine ⟨hl, hforest, hsize', fun f => ?_, fun f hf => ?_, fun f => ?_,
    fun k hk => absurd hk (Nat.not_lt_zero k), fun k _ _ => Memory.pageAt_of_empty hempty k,
    fun f hf => ?_⟩
  · rw [h.manages]
    exact hmanaged f
  · rw [h.count] at hf
    split at hf
    · next hself =>
      rw [hself, h.manages]
      exact h.managed
    · exact absurd (hcount f) hf
  · by_cases hself : f = kr
    · rw [hself, hone, Memory.tableCount_eq_one root_mem ((htable kr).2 rfl)]
    · have hnot : ∀ r ∈ insert kr (∅ : Finset Frame), ¬ mem'.IsTable r f := by
        intro r hr
        obtain rfl := Finset.mem_singleton.1 hr
        exact fun ht => hself ((htable f).1 ht)
      rw [h.count, if_neg hself, hcount, Memory.tableCount_eq_zero hnot]
  · rw [h.data f, hzero]
    rintro rfl
    rw [h.manages, h.managed] at hf
    cases hf

theorem mapped (h : Mirrored l kr n mem) (hn : n < l.frameCount)
    (hm : AddressSpace.Mapped (insert kr ∅) kr n (l.kernelPage n) mem mem') :
    Mirrored l kr (n + 1) mem' := by
  have hbound := h.ordered.frameCount_le
  have hgrown := hm.grown
  have hpage : ∀ k < 2 ^ 36, mem'.pageAt kr k = if k = n then l.kernelPage n else mem.pageAt kr k :=
    fun k hk => hm.page_of_lt (by omega) hk
  refine ⟨h.ordered, hgrown.forest, hgrown.size.trans h.size, fun f => ?_,
    fun f hf => hgrown.manages_of_count h.reserved hf, fun f => ?_, fun k hk => ?_,
    fun k hk hk' => ?_, fun f hf => ?_⟩
  · rw [hgrown.manages]
    exact h.managed f
  · by_cases ht : mem'.IsTable kr f
    · rw [Memory.tableCount_eq_one root_mem ht, hgrown.forest.counted kr root_mem f ht]
    · have hold : ¬ mem.IsTable kr f := fun hyes => ht (hgrown.table f hyes)
      have honly : ∀ mem₁ : Memory, ¬ mem₁.IsTable kr f →
          ∀ r ∈ insert kr (∅ : Finset Frame), ¬ mem₁.IsTable r f := by
        intro mem₁ hnot r hr
        obtain rfl := Finset.mem_singleton.1 hr
        exact hnot
      rw [hgrown.count f fun hyes => absurd hyes ht, h.accounts f,
        Memory.tableCount_eq_zero (honly mem hold), Memory.tableCount_eq_zero (honly mem' ht)]
  · rw [hpage k (by omega)]
    rcases Nat.lt_succ_iff_lt_or_eq.1 hk with hk | rfl
    · rw [if_neg (by omega)]
      exact h.below k hk
    · rw [if_pos rfl]
  · rw [hpage k hk', if_neg (by omega)]
    exact h.above k (by omega) hk'
  · -- only tables are written, and these are handed out
    rw [hgrown.manages] at hf
    rw [hgrown.data f fun htable => ?_]
    · exact h.blank f hf
    · have hone := hgrown.forest.counted kr root_mem f htable
      have hmanages := hgrown.manages_of_count h.reserved (hone ▸ Nat.one_ne_zero)
      rw [hgrown.manages, hf] at hmanages
      cases hmanages

/-- when all pages are mapped, all tables are there; the first page has its tables in common with
the second -/
theorem lacking_eq_zero (h : Mirrored l kr l.frameCount mem) :
    mem.lacking kr (Finset.range l.frameCount) = 0 := by
  have hlt := h.ordered.one_lt_frameCount
  have hmissing : ∀ k, 0 < k → k < l.frameCount → mem.missing kr (pagePath k) = 0 :=
    fun k hpos hk => Memory.missing_of_pageAt ((h.below k hk).trans (if_pos ⟨hpos, hk⟩)) rfl
  refine Memory.lacking_eq_zero fun k hk => ?_
  rcases Nat.eq_zero_or_pos k with rfl | hpos
  · rw [pagePath_congr (n := 0) (k := 1) (by decide)]
    exact hmissing 1 Nat.one_pos hlt
  · exact hmissing k hpos (Finset.mem_range.1 hk)

theorem sound (h : Mirrored l kr l.frameCount mem) : Sound l kr ∅ [] mem where
  ordered := h.ordered
  forest := h.forest
  kernel := Finset.notMem_empty kr
  size := h.size
  managed := h.managed
  reserved := h.reserved
  accounts f := by
    have hholders : mem.holders l ∅ f = ∅ := by
      ext ⟨r, n⟩
      rw [Memory.mem_holders]
      constructor
      · rintro ⟨hr, -⟩
        exact absurd hr (Finset.notMem_empty r)
      · exact fun hr => absurd hr (Finset.notMem_empty _)
    rw [h.accounts f, hholders, Finset.card_empty, List.count_nil, Nat.add_zero]
  kernelPages n hn := by
    by_cases hlt : n < l.frameCount
    · exact h.below n hlt
    · rw [h.above n (Nat.le_of_not_lt hlt) hn, Layout.kernelPage, if_neg fun hin => hlt hin.2]
  low r hr := absurd hr (Finset.notMem_empty r)
  high r hr := absurd hr (Finset.notMem_empty r)
  perms r hr := absurd hr (Finset.notMem_empty r)
  shared r hr := absurd hr (Finset.notMem_empty r)

end Mirrored

namespace Kernel

theorem identityPermissions_eq (h : l.Ordered) {pa : UInt64} (hpa : pa.toNat = 4096 * n) :
    identityPermissions l pa = if n = 0 then .none else l.kernelPermissions n := by
  have hstart := h.processStart_eq
  have hconsole := h.console_eq
  have hzero : pa = 0 ↔ n = 0 := by
    rw [← UInt64.toNat_inj, hpa, UInt64.toNat_zero]
    omega
  have hlow : pa < l.processStart ↔ n < l.firstPage := by
    rw [UInt64.lt_iff_toNat_lt, hpa, hstart]
    omega
  have hcon : pa ≠ l.console ↔ n ≠ l.consolePage := by
    rw [ne_eq, ← UInt64.toNat_inj, hpa, hconsole]
    omega
  unfold identityPermissions Layout.kernelPermissions
  simp only [hzero, hlow, hcon]

theorem kernelPermissions_core (l : Layout) (n : Nat) :
    (l.kernelPermissions n).present = true ∧
      (l.kernelPermissions n).core = l.kernelPermissions n := by
  unfold Layout.kernelPermissions
  split <;> exact ⟨rfl, rfl⟩

/-- the next page is mapped, if there is memory for the tables that it lacks; no frame is taken for
anything else -/
theorem ends_mapIdentityPage (h : Mirrored l kr n m.toMemory) (hn : n < l.frameCount) {w : UInt64}
    (hw : w.toNat = 4096 * n) :
    Ends (AddressSpace.mapOrPanic ⟨kr⟩ ⟨w⟩ (Address.mk w : PhysicalAddress).page
        (identityPermissions l w)) m
      (fun _ m' => Mirrored l kr (n + 1) m'.toMemory ∧
        m'.freeCount + m.lacking kr (Finset.range l.frameCount)
          = m.freeCount + m'.lacking kr (Finset.range l.frameCount))
      fun _ _ => m.freeCount < m.lacking kr (Finset.range l.frameCount) := by
  have hl := h.ordered
  have hbound := hl.frameCount_le
  have hpage : (Address.mk w : VirtualAddress).page.number.toNat = n := by
    rw [Address.toNat_page, hw]
    omega
  have hframe : (Address.mk w : PhysicalAddress).page = Page.ofNumber (UInt64.ofNat n) := by
    apply Page.eq_of_toNat
    rw [Address.toNat_page, hw, Page.toNat_ofNumber (by omega)]
    omega
  have hnumber : (Page.ofNumber (UInt64.ofNat n) : Frame).number.toNat = n :=
    Page.toNat_ofNumber (by omega)
  unfold AddressSpace.mapOrPanic
  rw [identityPermissions_eq hl hw, hframe, ends_bind, ends_outcome]
  by_cases hzero : n = 0
  · subst hzero
    have hunmap := AddressSpace.ends_unmap ⟨w⟩ .none
      (f := Page.ofNumber (UInt64.ofNat 0)) h.forest Mirrored.root_mem rfl
    rw [hpage] at hunmap
    rw [if_pos rfl]
    refine hunmap.mono (fun _ t' ht' => ends_pure.2 ?_) fun _ _ hn => hn.elim
    obtain ⟨hmapped, hsame, htables⟩ := ht'
    refine ⟨h.mapped hn hmapped, ?_⟩
    rw [Memory.freeCount, Memory.freeCount, hsame, Memory.lacking_congr htables]
  · obtain ⟨hpres, hcore⟩ := kernelPermissions_core l n
    have hmap := AddressSpace.ends_map ⟨w⟩ (l.kernelPermissions n) h.forest
      Mirrored.root_mem (f := Page.ofNumber (UInt64.ofNat n)) (by omega) hpres
    have hkernel : l.kernelPage n = some (Page.ofNumber (UInt64.ofNat n), l.kernelPermissions n) :=
      if_pos ⟨Nat.pos_of_ne_zero hzero, hn⟩
    rw [hpage, hcore] at hmap
    rw [if_neg hzero]
    refine hmap.mono (fun _ t' ht' => ends_pure.2 ?_) fun e t' he => ?_
    · obtain ⟨hmapped, hused⟩ := ht'
      have hadded := hmapped.added (show n < 2 ^ 36 by omega)
      have hlacks := Memory.lacking_add (Finset.mem_range.2 hn) hadded.page hadded.tables
        hadded.grown
      exact ⟨h.mapped hn (hkernel ▸ hmapped), by omega⟩
    · cases e with
      | panic e => exact he.elim
      | error e =>
        exact ends_panic.2
          (Nat.lt_of_lt_of_le he.less (Memory.missing_le_lacking _ _ (Finset.mem_range.2 hn)))

/-- every frame is mapped at the address of its own number, if there is memory for the tables -/
theorem ends_mapIdentity (h : Mirrored l kr 0 m.toMemory) :
    Ends (mapIdentity ⟨kr⟩ l) m
      (fun _ m' => Mirrored l kr l.frameCount m'.toMemory ∧
        m'.freeCount + m.lacking kr (Finset.range l.frameCount) = m.freeCount)
      fun _ _ => m.freeCount < m.lacking kr (Finset.range l.frameCount) := by
  unfold mapIdentity
  refine (Ends.forStepsAligned (a := 0) rfl h.ordered.physicalSize_eq (Nat.zero_le _)
    (fun n (t : Machine) => Mirrored l kr n t.toMemory ∧
      t.freeCount + m.lacking kr (Finset.range l.frameCount)
        = m.freeCount + t.lacking kr (Finset.range l.frameCount))
    ⟨h, rfl⟩ ?_).mono (fun _ t ht => ⟨ht.1, ?_⟩) fun _ _ he => he
  · rintro n w t - hn hw ⟨hst, hfree⟩
    refine (ends_mapIdentityPage hst hn hw).mono (fun _ t' ht' => ⟨ht'.1, ?_⟩) fun _ t' he => ?_
    · have := ht'.2
      omega
    · omega
  · have hfree := ht.2
    rw [ht.1.lacking_eq_zero, Nat.add_zero] at hfree
    exact hfree

/-- the kernel's own space is built, if there is memory for it; nothing else is taken -/
theorem ends_buildSpace (hl : l.Ordered) (hsize : m.contents.size = l.frameCount)
    (hcount : ∀ f, m.count f = 0)
    (hmanaged : ∀ f, l.isAllocatable f.base = .ok (m.manages f)) (hzero : ∀ f, m.data f = .zero) :
    Ends (buildSpace l) m
      (fun space m' => Sound l space.root ∅ [] m'.toMemory ∧
        m'.freeCount + l.kernelTables = m.freeCount ∧
        ∀ f, m'.manages f = false → m'.data f = .zero)
      fun _ _ => m.freeCount < l.kernelTables := by
  have hbound := hl.frameCount_le
  unfold buildSpace
  rw [ends_bind, ends_lift]
  unfold AddressSpace.allocate
  rw [ends_bind]
  refine Machine.ends_allocateClear (by omega) (fun f hc hm => ?_) fun hnone m' hm' => ?_
  · have hclaimed := (Claimed.of_claim hc hm).modify fun _ => FrameData.zero
    have hempty : ∀ i, ((m.claim f).modifyFrame f.number.toNat fun _ => .zero).entryAt f i
        = .empty := fun i => by
      rw [Memory.entryAt_eq, Memory.data_modifyFrame (Claimed.of_claim hc hm).hasFrame,
        if_pos rfl, FrameData.word_zero]
      rfl
    have hstart : Mirrored l f 0 ((m.claim f).modifyFrame f.number.toNat fun _ => .zero) :=
      .of_claimed hl hsize hcount hmanaged hzero hclaimed hempty
    have hfree := hclaimed.freeCount
    have htables : ((m.claim f).modifyFrame f.number.toNat fun _ => .zero).lacking f
        (Finset.range l.frameCount) + 1 = l.kernelTables := by
      rw [Memory.lacking_of_empty fun i => Memory.link?_of_empty (hempty i), Nat.add_comm]
      rfl
    rw [ends_pure, ends_bind]
    show Ends (Attempt.orFail (some (AddressSpace.mk f)) Halt.bootOutOfMemory) _ _ _
    rw [ends_orFail_some, ends_bind, ends_lift]
    refine (ends_mapIdentity (m := { m with
      toMemory := (m.claim f).modifyFrame f.number.toNat fun _ => .zero }) hstart).mono
      (fun _ m₁ hm₁ => ?_) fun _ _ he => ?_
    · obtain ⟨hall, hused⟩ := hm₁
      rw [ends_bind, ends_get]
      dsimp only
      rw [ends_bind, ends_lift]
      refine Machine.ends_record fun m₂ hm₂ => ends_pure.2 ?_
      rw [hm₂]
      refine ⟨hall.sound, ?_, hall.blank⟩
      dsimp only at hused hfree
      omega
    · dsimp only at he hfree
      omega
  · refine ends_pure.2 (ends_bind.2 (ends_orFail_none.2 ?_))
    show m.ledger.freeCount < l.kernelTables
    rw [hnone, Layout.kernelTables]
    omega

/-! ## a kernel that has started -/

/-- how the kernel's own space is built in fresh memory -/
theorem ends_buildSpace_fresh {mem : Memory} (hl : l.Ordered) (hmem : Memory.ofLayout l = .ok mem) :
    Ends (buildSpace l) { toMemory := mem }
      (fun space m' => Sound l space.root ∅ [] m'.toMemory ∧
        m'.freeCount + l.kernelTables = (List.range l.frameCount).countP l.isUsable ∧
        ∀ f, m'.manages f = false → m'.data f = .zero)
      fun _ _ => (List.range l.frameCount).countP l.isUsable < l.kernelTables := by
  obtain ⟨mem', hmem', hledger, hsize, hcount, hmanaged⟩ := Memory.ofLayout_eq hl
  obtain rfl := Except.ok.inj (hmem.symm.trans hmem')
  have hinitial : mem.freeCount = (List.range l.frameCount).countP l.isUsable := by
    rw [Memory.freeCount, hledger, Ledger.freeCount_initial]
  rw [← hinitial]
  exact ends_buildSpace (m := { toMemory := mem }) hl hsize hcount hmanaged
    (Memory.data_ofLayout hmem)

/-- a kernel that has started has built its own space in fresh memory -/
theorem built_of_started {host : Host} {config : KernelConfig} {k : Kernel}
    (h : start host config = .started k) :
    ∃ mem machine space, Memory.ofLayout config.layout = .ok mem ∧
      buildSpace config.layout { toMemory := mem } = .ok space machine ∧
      k = { config, machine, space, host } := by
  unfold start Machine.ofLayout at h
  cases hmem : Memory.ofLayout config.layout with
  | error p =>
    rw [hmem] at h
    cases h
  | ok mem =>
    rw [hmem, ok_bind, ok_pure] at h
    dsimp only at h
    split at h
    · next hx => exact ⟨mem, _, _, rfl, hx, (Startup.started.inj h).symm⟩
    · cases h
    · cases h

/-- a kernel that has started has an empty process table, and the host is as it was -/
theorem eq_of_started {host : Host} {config : KernelConfig} {k : Kernel}
    (h : start host config = .started k) :
    ∃ machine space, k = { config, machine, space, host } := by
  obtain ⟨-, machine, space, -, -, heq⟩ := built_of_started h
  exact ⟨machine, space, heq⟩

theorem isVacant_of_started {host : Host} {config : KernelConfig} {k : Kernel} {pid : Nat}
    {p : Process} (h : start host config = .started k) (hp : k.processes.get? pid = some p) :
    p.isVacant = true := by
  obtain ⟨machine, space, rfl⟩ := eq_of_started h
  exact Process.isVacant_iff.2 (ProcessTable.get?_empty hp).2

/-- a kernel that has started is valid, and it has no processes -/
theorem started_valid {host : Host} {config : KernelConfig} {k : Kernel}
    (hl : config.layout.Ordered) (h : start host config = .started k) :
    k.Valid ∅ ∧ k.config = config ∧ ∀ pid, k.processes.space? pid = none := by
  obtain ⟨mem, machine, space, hmem, hx, rfl⟩ := built_of_started h
  have hsound := ((ends_buildSpace_fresh hl hmem).ok hx).1
  have hnone : ∀ pid, (ProcessTable.empty slotCount).space? pid = none := by
    intro pid
    cases hp : (ProcessTable.empty slotCount).get? pid with
    | none => rw [ProcessTable.space?, hp, Option.bind_none]
    | some p =>
      rw [ProcessTable.space?_of_get? hp]
      exact (ProcessTable.get?_empty hp).2.2
  refine ⟨⟨?_, ?_, ?_, ?_, ?_, hnone 0, Nat.succ_pos 15, Nat.succ_pos 15⟩, rfl, hnone⟩
  · show Sound config.layout space.root (ProcessTable.empty slotCount).roots [] machine.toMemory
    rw [ProcessTable.roots_eq_empty hnone]
    exact hsound
  · intro pid q s hs
    cases (hnone pid).symm.trans hs
  · exact fun pid p hp => (ProcessTable.get?_empty hp).1
  · intro pid p hp hrun
    rw [Process.isRunnable, (ProcessTable.get?_empty hp).2.1] at hrun
    cases hrun
  · intro pid _ s hs
    cases (hnone pid).symm.trans hs

/-- in a kernel that has started the console is empty -/
theorem console_of_started {host : Host} {config : KernelConfig} {k : Kernel}
    (hl : config.layout.Ordered) (h : start host config = .started k) :
    k.memory.data config.layout.consoleFrame = .zero := by
  obtain ⟨mem, machine, space, hmem, hx, rfl⟩ := built_of_started h
  obtain ⟨hsound, -, hblank⟩ := (ends_buildSpace_fresh hl hmem).ok hx
  exact hblank _ (AddressSpace.not_manages_console hsound)

/-- in a kernel that has started all frames are free that may be handed out, but for the tables of
the kernel's own space -/
theorem freeCount_of_started {host : Host} {config : KernelConfig} {k : Kernel}
    (hl : config.layout.Ordered) (h : start host config = .started k) :
    k.freeCount + config.layout.kernelTables
      = (List.range config.layout.frameCount).countP config.layout.isUsable := by
  obtain ⟨mem, machine, space, hmem, hx, rfl⟩ := built_of_started h
  exact ((ends_buildSpace_fresh hl hmem).ok hx).2.1

/-- a machine can be started if there is memory for the tables of the kernel's own space -/
theorem exists_started_of_kernelTables (host : Host) {config : KernelConfig}
    (hl : config.layout.Ordered)
    (hfree : config.layout.kernelTables
      ≤ (List.range config.layout.frameCount).countP config.layout.isUsable) :
    ∃ k, start host config = .started k := by
  obtain ⟨mem, hmem, -⟩ := Memory.ofLayout_eq hl
  have hbuild := ends_buildSpace_fresh hl hmem
  unfold start
  rw [Machine.ofLayout, hmem, ok_bind, ok_pure]
  dsimp only
  split
  · exact ⟨_, rfl⟩
  · next hx => exact absurd (hbuild.error hx) (Nat.not_lt.2 hfree)
  · next hx => exact absurd (hbuild.error hx) (Nat.not_lt.2 hfree)

/-- a machine can be started if there is memory for as many tables as its pages can need -/
theorem exists_started (host : Host) {config : KernelConfig} (hl : config.layout.Ordered)
    (hfree : 1 + tablesFor config.layout.frameCount
      ≤ (List.range config.layout.frameCount).countP config.layout.isUsable) :
    ∃ k, start host config = .started k ∧
      (List.range config.layout.frameCount).countP config.layout.isUsable
        ≤ k.freeCount + (1 + tablesFor config.layout.frameCount) := by
  have htables := hl.kernelTables_le
  obtain ⟨k, hstart⟩ := exists_started_of_kernelTables host hl (Nat.le_trans htables hfree)
  have hcount := freeCount_of_started hl hstart
  exact ⟨k, hstart, by omega⟩

/-- the default machine can be started whatever the size of its memory -/
theorem exists_started_sized (host : Host) {config : KernelConfig} {size : UInt64}
    (hlayout : config.layout = .sized size) (hl : config.layout.Ordered) :
    ∃ k, start host config = .started k ∧
      config.layout.frameCount ≤ k.freeCount + (131 + tablesFor config.layout.frameCount) := by
  have hframes := hl.firstPage_le
  rw [hlayout] at hl hframes
  have husable := Layout.le_countP_sized hl
  rw [Layout.firstPage_sized] at hframes
  have htables : 1 + tablesFor (Layout.sized size).frameCount + 130
      ≤ (Layout.sized size).frameCount := by
    unfold tablesFor
    split <;> omega
  rw [← hlayout] at husable htables hl
  obtain ⟨k, hstart, hfree⟩ := exists_started host hl (by omega)
  exact ⟨k, hstart, by omega⟩

/-! ## loading programs -/

variable {k : Kernel}

theorem ends_setupAll (images : List ProgramImage) (pid : Pid) (h : k.Valid ∅) :
    Ends (setupAll pid images) k (fun _ k' => Confined ∅ k k') fun _ k' => Confined ∅ k k' := by
  induction images generalizing k pid with
  | nil => exact ends_pure.2 (.refl h)
  | cons image later ih =>
    rw [setupAll, ends_bind, ends_onError]
    refine (ends_setup h image).mono (fun _ k₁ hk₁ => ?_) fun e k₁ he => ?_
    · exact (ih (pid + 1) hk₁.1.valid).mono (fun _ _ hq => hk₁.1.trans hq)
        fun _ _ he => hk₁.1.trans he
    · cases e with
      | panic e => exact he.elim
      | error e =>
        obtain ⟨hconfined, -⟩ := he
        dsimp only
        rw [ends_bind, ends_lift]
        refine ends_report fun m hm => ends_fail.2 ?_
        exact hconfined.trans ((Rests.of_memory hconfined.valid hm).confined hconfined.valid)

theorem ends_boot (h : k.Valid ∅) (registry : ProgramRegistry) (command : Option String) :
    Ends (boot registry command) k (fun _ k' => Confined ∅ k k') fun _ k' => Confined ∅ k k' := by
  unfold boot
  rw [ends_bind]
  cases chosen registry command with
  | error e => exact ends_ofResult_error.2 (.refl h)
  | ok images =>
    rw [ends_ofResult_ok]
    refine ends_ite.2 ⟨fun _ => ends_fail.2 (.refl h), fun _ => ?_⟩
    rw [ends_bind]
    refine (ends_setupAll images 1 h).mono (fun _ k₁ hk₁ => ?_) fun _ _ he => he
    refine (ends_run hk₁.valid).mono (fun _ k₂ hk₂ => ?_) fun e k₂ he => ?_
    · exact hk₁.trans (hk₂.2.2.2.2.1.confined hk₁.valid)
    · cases e with
      | panic e => exact he.elim
      | error e =>
        rcases he with ⟨-, -, rfl⟩ | ⟨-, -, hrests⟩
        · exact hk₁
        · exact hk₁.trans (hrests.confined hk₁.valid)

end Kernel

end PagedKernel
