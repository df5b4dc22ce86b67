import PagedKernel.Proofs.Kernel.Mappings
import PagedKernel.Proofs.Kernel.Reachable

/-!
# The references that frames count

No operation, whether it succeeds or fails, leaks a frame, gives one back twice or hands out one
that is in use: the count of a frame is the number of its users.

* `Kernel.Accounted`             every reference is held by one page of a process or by one table
* `Kernel.Reachable.accounted`   reachable kernels are accounted for, and get back all frames
-/

namespace PagedKernel

namespace Kernel

/-- every reference that a frame counts is held by one page of a process or by one of `tables` -/
structure Accounted (k : Kernel) (tables : List Frame) : Prop where
  /-- every address can be looked up -/
  answered : ∀ pid va, ∃ m, k.lookup pid va = .ok m
  /-- no table hangs at two links -/
  nodup : tables.Nodup
  /-- a frame counts the pages of processes that map it, and whether it is a table -/
  count : ∀ f, k.layout.isAllocatable f.base = .ok true →
    k.memory.count f = (k.holders f).card + if f ∈ tables then 1 else 0
  /-- no process maps a table -/
  tables : ∀ f ∈ tables, k.memory.count f = 1 ∧ k.holders f = ∅
  /-- a frame that is never handed out is not counted -/
  reserved : ∀ f, k.layout.isAllocatable f.base = .ok false → k.memory.count f = 0
  /-- processes map nothing above their memory -/
  above : ∀ pid va, k.layout.virtualSize ≤ va.value → va.value.toNat < 2 ^ 48 →
    k.lookup pid va = .ok none

variable {k k₀ : Kernel} {unfinished : Finset Pid} {pid : Nat}

namespace Valid

theorem exists_lookup (h : k.Valid unfinished) (pid : Pid) (va : VirtualAddress) :
    ∃ m, k.lookup pid va = .ok m := by
  cases hs : k.processes.space? pid with
  | none => exact ⟨_, lookup_of_none hs va⟩
  | some s => exact ⟨_, h.lookup_eq hs va⟩

theorem lookup_above (h : k.Valid unfinished) {va : VirtualAddress}
    (hle : k.layout.virtualSize ≤ va.value) (hlt : va.value.toNat < 2 ^ 48) :
    k.lookup pid va = .ok none := by
  have hend := h.sound.ordered.virtualSize_eq
  have hpage := va.toNat_page
  rw [UInt64.le_iff_toNat_le] at hle
  cases hs : k.processes.space? pid with
  | none => exact lookup_of_none hs va
  | some s =>
    have hnone := h.sound.high s.root (ProcessTable.root_mem hs) va.page.number.toNat
      (by omega) (by omega)
    refine (h.lookup_eq hs va).trans ?_
    rw [hnone, Option.map_none]

theorem exists_tables (h : k.Valid unfinished) :
    ∃ tables, k.tableFrames = .ok tables ∧ Accounted k tables := by
  obtain ⟨tables, htables, hnodup, hmem⟩ := h.tableFrames_eq
  refine ⟨tables, htables, h.exists_lookup, hnodup, fun f _ => ?_, fun f hf => ?_, fun f hf => ?_,
    fun pid va => ?_⟩
  · have haccounts := h.sound.accounts f
    rw [List.count_nil, Nat.add_zero, ← h.card_holders, Nat.add_comm] at haccounts
    refine haccounts.trans (congrArg ((k.holders f).card + ·) ?_)
    by_cases hf : f ∈ tables
    · obtain ⟨r, hr, ht⟩ := (hmem f).1 hf
      rw [if_pos hf, Memory.tableCount_eq_one hr ht]
    · rw [if_neg hf, Memory.tableCount_eq_zero fun r hr ht => hf ((hmem f).2 ⟨r, hr, ht⟩)]
  · obtain ⟨r, hr, ht⟩ := (hmem f).1 hf
    refine ⟨h.sound.forest.counted r hr f ht, ?_⟩
    rw [← Finset.card_eq_zero, h.card_holders, (h.sound.of_isTable hr ht).1, Finset.card_empty]
  · have hmanaged := h.sound.managed f
    rw [hf, Except.ok.injEq] at hmanaged
    by_contra hcount
    rw [h.sound.reserved f hcount] at hmanaged
    cases hmanaged
  · exact h.lookup_above

theorem count_of_no_process (h : k.Valid unfinished) (hnone : ∀ pid, k.processes.space? pid = none)
    (f : Frame) : k.memory.count f = k.memory.tableCount {k.space.root} f := by
  have haccounts := h.sound.accounts f
  rw [ProcessTable.roots_eq_empty hnone, List.count_nil, Memory.holders, Finset.empty_product, Finset.filter_empty,
    Finset.card_empty, Nat.add_zero] at haccounts
  exact haccounts

end Valid

/-- two kernels on the same machine that count the same have as many free frames -/
theorem Valid.freeCount_congr (h : k.Valid ∅) (h₀ : k₀.Valid ∅) (hlayout : k.layout = k₀.layout)
    (hcount : ∀ f, k.memory.count f = k₀.memory.count f) : k.freeCount = k₀.freeCount := by
  have hsize : ∀ {k : Kernel}, k.Valid ∅ → k.memory.ledger.size = k.layout.frameCount :=
    fun h => (Memory.size_ledger _).trans h.sound.size
  have hle := h₀.sound.ordered.frameCount_le
  refine Ledger.freeCount_congr ?_ ?_ hcount fun f => ?_
  · rw [hsize h₀]
    omega
  · rw [hsize h, hsize h₀, hlayout]
  · have hmanaged := h.sound.managed f
    rw [hlayout, h₀.sound.managed f, Except.ok.injEq] at hmanaged
    exact hmanaged.symm

/-- two kernels without processes, one of which comes from the other, have as many free frames -/
theorem Spares.freeCount_eq (h : Spares ∅ k₀ k) (hk : k.Valid ∅) (h₀ : k₀.Valid ∅)
    (hnone : ∀ pid, k.processes.space? pid = none)
    (hnone₀ : ∀ pid, k₀.processes.space? pid = none) : k.freeCount = k₀.freeCount := by
  refine hk.freeCount_congr h₀ h.layout fun f => ?_
  have hcount := hk.count_of_no_process hnone f
  rw [h.space, @Memory.tableCount_congr k₀.memory _ _ _ fun r hr => ?_,
    ← h₀.count_of_no_process hnone₀ f] at hcount
  · exact hcount
  · rw [Finset.mem_singleton.1 hr]
    exact Memory.isTable_congr (h.keeps.tables _ (Finset.mem_insert_self _ _))

/-- whatever operations were done, every reference that a frame counts has its one holder; when all
processes have gone, as many frames are free as when the kernel had started -/
theorem Reachable.accounted {n : UInt64} (h : Reachable k₀ k) (hn : n.toNat ≤ 2 ^ 48)
    (h₀ : StartedOn n k₀) :
    (∃ tables, k.tableFrames = .ok tables ∧ Accounted k tables) ∧
      ((∀ pid, k.processes.space? pid = none) → k.freeCount = k₀.freeCount) := by
  obtain ⟨hvalid₀, -, hnone₀⟩ := h₀.valid hn
  obtain ⟨hvalid, hspares⟩ := h.confined hvalid₀
  exact ⟨hvalid.exists_tables, fun hnone => hspares.freeCount_eq hvalid hvalid₀ hnone hnone₀⟩

theorem accounted_running : ∃ k₀ k, StartedOn 0x200000 k₀ ∧ k.processes.Runs 1 ∧
    (∃ tables, k.tableFrames = .ok tables ∧ Accounted k tables) ∧
    ((∀ pid, k.processes.space? pid = none) → k.freeCount = k₀.freeCount) := by
  obtain ⟨k₀, k, h₀, h, -, hruns, -⟩ :=
    StartedOn.exists_running {} { layout := .withPhysical 0x200000 } rfl
  exact ⟨k₀, k, h₀, hruns, h.accounted (by decide) h₀⟩

/-! ## what was begun in vain -/

/-- a program that cannot be loaded, or a process that cannot be duplicated, leaves nothing behind.
This holds on every machine whose layout is ordered, and neither ever panics. -/
theorem Reachable.undone {host : Host} {config : KernelConfig} (h : Reachable k₀ k)
    (hl : config.layout.Ordered) (h₀ : Kernel.start host config = .started k₀) :
    (∀ pid image, Ends (setup pid image) k (fun _ _ => True) (Fails fun _ k' => Undone k k')) ∧
      ∀ parent, Ends (fork parent) k (fun _ _ => True)
        (Fails fun _ k' => Undone k k' ∧ k'.processes.get? parent = k.processes.get? parent) := by
  have hvalid := (h.confined (started_valid hl h₀).1).1
  refine ⟨fun pid image => ?_, fun parent => ?_⟩
  · exact (ends_setup hvalid image).mono (fun _ _ _ => trivial) (Fails.mono fun _ _ he => he.2.1)
  · exact (ends_fork hvalid).mono (fun _ _ _ => trivial) (Fails.mono fun _ _ he => he.2.2)

theorem undone_running : ∃ k₀ k : Kernel, Kernel.start {} {} = .started k₀ ∧ k.processes.Runs 1 ∧
    (∀ pid image, Ends (setup pid image) k (fun _ _ => True) (Fails fun _ k' => Undone k k')) ∧
      ∀ parent, Ends (fork parent) k (fun _ _ => True)
        (Fails fun _ k' => Undone k k' ∧ k'.processes.get? parent = k.processes.get? parent) := by
  have hl : ({} : KernelConfig).layout.Ordered := Layout.ordered_default
  obtain ⟨k₀, k, h₀, h, -, hruns, -⟩ := exists_running {} {} hl
    Layout.sparesNull_default (by decide +kernel) (by decide +kernel)
  exact ⟨k₀, k, h₀, hruns, h.undone hl h₀⟩

end Kernel

end PagedKernel
