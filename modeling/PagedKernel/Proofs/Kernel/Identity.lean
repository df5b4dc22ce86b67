import PagedKernel.Proofs.Kernel.Accounting
import PagedKernel.Proofs.Memory.References

/-!
# The kernel's own space

On the default machine with any amount of memory a kernel can be started.  Its own space maps every
address of memory to itself, those of the first page apart, and its tables are the only frames that
are in use then.

* `Kernel.Identity`          what a kernel that has just started maps, and what it holds
* `Kernel.starts_identity`   it is what every machine starts with
-/

namespace PagedKernel

variable {l : Layout} {k : Kernel} {host : Host}

namespace Ledger

/-- where all counts are one, as many frames are in use as are counted -/
theorem usedCount_eq_length {ledger : Ledger} {frames : List Frame} (hsize : ledger.size ≤ 2 ^ 52)
    (hnodup : frames.Nodup) (hin : ∀ f ∈ frames, f.number.toNat < ledger.size)
    (hcount : ∀ f, ledger.count f = if f ∈ frames then 1 else 0) :
    ledger.usedCount = frames.length := by
  have hperm : (frames.map fun f => f.number.toNat).Perm
      ((List.range ledger.size).filter fun n =>
        decide (0 < ledger.count (Page.ofNumber (UInt64.ofNat n)))) := by
    refine (List.perm_ext_iff_of_nodup ?_ (List.nodup_range.filter _)).2 fun n => ?_
    · exact hnodup.map fun f g heq => Page.eq_of_toNat heq
    · rw [List.mem_map, List.mem_filter, List.mem_range, decide_eq_true_iff]
      constructor
      · rintro ⟨f, hf, rfl⟩
        have hself : (Page.ofNumber (UInt64.ofNat f.number.toNat) : Frame) = f :=
          Page.eq_of_toNat (frame_of_lt hsize (hin f hf))
        refine ⟨hin f hf, ?_⟩
        rw [hself, hcount, if_pos hf]
        exact Nat.one_pos
      · rintro ⟨hn, hpos⟩
        refine ⟨_, ?_, frame_of_lt hsize hn⟩
        by_contra hnot
        rw [hcount, if_neg hnot] at hpos
        exact absurd hpos (Nat.lt_irrefl 0)
  rw [usedCount, List.countP_eq_length_filter, ← hperm.length_eq, List.length_map]

end Ledger

namespace Kernel

/-- what a kernel that has just started maps in its own space, and what it holds of memory -/
structure Identity (k : Kernel) (tables : List Frame) : Prop where
  /-- an address of memory maps to itself, but for those of the first page; processes may use the
  console, and all that is not the kernel's -/
  lookup : ∀ va : VirtualAddress, va.value.toNat < 2 ^ 48 → k.space.lookup k.memory va = .ok
    (if 0x1000 ≤ va.value ∧ va.value < k.layout.physicalSize then
      some ⟨va, .ofNumber va.page.number,
        if va.value < k.layout.processStart ∧ va.page ≠ (Address.mk k.layout.console).page then
          .kernelReadWrite
        else .userReadWrite⟩
    else none)
  /-- these are its tables, as they are found in memory -/
  found : k.tableFrames = .ok tables
  nodup : tables.Nodup
  /-- one root, and a table of each kind for each part of memory that such a table maps -/
  length : tables.length = 1 + k.layout.physicalSize.toNat ⌈/⌉ 2 ^ 39
    + k.layout.physicalSize.toNat ⌈/⌉ 2 ^ 30 + k.layout.physicalSize.toNat ⌈/⌉ 2 ^ 21
  /-- nothing else is in use -/
  count : ∀ f, k.memory.count f = if f ∈ tables then 1 else 0
  free : k.freeCount + tables.length
    = (List.range k.layout.frameCount).countP k.layout.isUsable

/-! ## what is mapped -/

theorem kernelPage_eq_ite (h : l.Ordered) (va : VirtualAddress) :
    (l.kernelPage va.page.number.toNat).map (fun (f, perms) => (⟨va, f, perms⟩ : Mapping))
      = if 0x1000 ≤ va.value ∧ va.value < l.physicalSize then
          some ⟨va, .ofNumber va.page.number,
            if va.value < l.processStart ∧ va.page ≠ (Address.mk l.console).page then
              .kernelReadWrite
            else .userReadWrite⟩
        else none := by
  have hpage := va.toNat_page
  have hin : (0x1000 ≤ va.value ∧ va.value < l.physicalSize)
      ↔ 0 < va.page.number.toNat ∧ va.page.number.toNat < l.frameCount := by
    rw [UInt64.le_iff_toNat_le, UInt64.lt_iff_toNat_lt, h.physicalSize_eq, hpage]
    show 4096 ≤ _ ∧ _ ↔ _
    omega
  have hlow : va.value < l.processStart ↔ va.page.number.toNat < l.firstPage := by
    rw [UInt64.lt_iff_toNat_lt, h.processStart_eq, hpage]
    omega
  have hconsole : va.page ≠ (Address.mk l.console).page
      ↔ va.page.number.toNat ≠ l.consolePage := by
    have hnumber : ((Address.mk l.console).page : VirtualPage).number.toNat = l.consolePage :=
      Address.toNat_page _
    rw [← hnumber]
    exact not_congr ⟨fun heq => by rw [heq], Page.eq_of_toNat⟩
  simp only [Layout.kernelPage, Layout.kernelPermissions, hin, hlow, hconsole]
  split
  · rw [UInt64.ofNat_toNat, Option.map_some]
  · rfl

/-- in a valid kernel the kernel's own space maps memory to itself -/
theorem Valid.lookup_space {unfinished : Finset Pid} (h : k.Valid unfinished) {va : VirtualAddress}
    (hva : va.value.toNat < 2 ^ 48) :
    k.space.lookup k.memory va = .ok
      ((k.layout.kernelPage va.page.number.toNat).map fun (f, perms) => ⟨va, f, perms⟩) := by
  have hpage := va.toNat_page
  rw [← h.sound.kernelPages _ (by omega)]
  exact h.sound.forest.lookup_eq (Finset.mem_insert_self _ _) va

/-! ## what is held -/

/-- how many frames may be handed out, by what the layout says of them -/
theorem Valid.usableCount_eq {unfinished : Finset Pid} (h : k.Valid unfinished) :
    k.memory.ledger.usableCount
      = (List.range k.layout.frameCount).countP k.layout.isUsable := by
  have hframes := h.sound.ordered.frameCount_le
  have hsize : k.memory.ledger.size = k.layout.frameCount :=
    (Memory.size_ledger _).trans h.sound.size
  rw [Ledger.usableCount_eq (by omega), hsize]
  refine List.countP_congr fun n _ => ?_
  rw [Layout.isUsable, h.sound.managed]
  rfl

/-- the tables of a kernel without processes are all frames that are in use -/
theorem Valid.count_eq_ite {unfinished : Finset Pid} (h : k.Valid unfinished)
    (hnone : ∀ pid, k.processes.space? pid = none) {tables : List Frame}
    (hmem : ∀ f, f ∈ tables ↔ ∃ r ∈ insert k.space.root k.processes.roots, k.memory.IsTable r f)
    (f : Frame) : k.memory.count f = if f ∈ tables then 1 else 0 := by
  rw [ProcessTable.roots_eq_empty hnone] at hmem
  rw [h.count_of_no_process hnone]
  split
  · next hf =>
    obtain ⟨r, hr, ht⟩ := (hmem f).1 hf
    exact Memory.tableCount_eq_one hr ht
  · next hf => exact Memory.tableCount_eq_zero fun r hr ht => hf ((hmem f).2 ⟨r, hr, ht⟩)

/-- a kernel that has started maps memory to itself, and holds nothing but its tables -/
theorem exists_identity {config : KernelConfig} (hl : config.layout.Ordered)
    (h : start host config = .started k) : ∃ tables, Identity k tables := by
  obtain ⟨hvalid, rfl, hnone⟩ := started_valid hl h
  replace hl : k.layout.Ordered := hl
  have hframes := hl.frameCount_le
  have hphysical := hl.physicalSize_eq
  have hsize : k.memory.ledger.size = k.layout.frameCount :=
    (Memory.size_ledger _).trans hvalid.sound.size
  obtain ⟨tables, hfound, hnodup, hmem⟩ := hvalid.tableFrames_eq
  have hcount := hvalid.count_eq_ite hnone hmem
  -- all frames that are in use are tables, so that there are as many of these
  have hused : k.memory.ledger.usedCount = tables.length := by
    refine Ledger.usedCount_eq_length (by omega) hnodup (fun f hf => ?_) hcount
    obtain ⟨r, hr, ht⟩ := (hmem f).1 hf
    rw [Memory.size_ledger, ← Memory.hasFrame_iff]
    exact hvalid.sound.forest.inside r hr f ht
  have hbalance := Ledger.freeCount_add_usedCount (l := k.memory.ledger) (by omega) fun f hf => by
    by_contra hne
    exact Bool.false_ne_true (hf.symm.trans (hvalid.sound.reserved f hne))
  rw [hused, hvalid.usableCount_eq] at hbalance
  have hfree : k.freeCount + k.layout.kernelTables
      = (List.range k.layout.frameCount).countP k.layout.isUsable := freeCount_of_started hl h
  have hlength : tables.length = k.layout.kernelTables :=
    Nat.add_left_cancel (hbalance.trans hfree.symm)
  refine ⟨tables, fun va hva => ?_, hfound, hnodup, ?_, hcount, hbalance⟩
  · rw [hvalid.lookup_space hva, kernelPage_eq_ite hl]
  · rw [hlength, hl.kernelTables_eq]
    simp only [Nat.ceilDiv_eq_add_pred_div]
    omega

/-- a machine with any amount of memory can be started, and then the kernel's own space maps memory
to itself; its tables are the only frames that are in use -/
theorem starts_identity (host : Host) {config : KernelConfig} {n : UInt64} (hn : n.toNat ≤ 2 ^ 48)
    (hlayout : config.layout = .withPhysical n) :
    ∃ k, start host config = .started k ∧ k.config = config ∧ ∃ tables, Identity k tables := by
  have hl : config.layout.Ordered := hlayout ▸ Layout.ordered_withPhysical hn
  have hsized : config.layout = .sized (Layout.withPhysical n).physicalSize := hlayout
  obtain ⟨k, hstart, -⟩ := exists_started_sized host hsized hl
  exact ⟨k, hstart, (started_valid hl hstart).2.1, exists_identity hl hstart⟩

/-- the largest machine has 134480385 tables -/
theorem starts_identity_largest :
    ∃ k, start {} { layout := .withPhysical 0x1000000000000 } = .started k ∧
      ∃ tables, Identity k tables ∧ tables.length = 134480385 := by
  obtain ⟨k, hstart, hconfig, tables, h⟩ :=
    @starts_identity {} { layout := .withPhysical 0x1000000000000 } 0x1000000000000 (by decide) rfl
  have hlength := h.length
  rw [layout, hconfig] at hlength
  exact ⟨k, hstart, tables, h, hlength.trans (by decide +kernel)⟩

end Kernel

end PagedKernel
