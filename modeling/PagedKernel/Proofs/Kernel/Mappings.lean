import PagedKernel.Proofs.Kernel.Valid
import PagedKernel.Proofs.Memory.Initial

/-!
# What the processes map

Mappings and tables as they are looked up in memory, and what the invariant says of them.

* `Kernel.lookup`        what a process maps at an address
* `Kernel.holders`       the pages of all processes that map a frame
* `Kernel.tableFrames`   the frames of all tables, one for each root and each link
* `Kernel.Valid.lookup_eq`, `Kernel.Valid.card_holders`, `Kernel.Valid.tableFrames_eq`   in valid
  kernels these always have an answer
-/

namespace PagedKernel

/-- the frames of all tables of a space: its root, and the table of each link -/
def AddressSpace.frames (space : AddressSpace) (mem : Memory) : Except Panic (List Frame) := do
  return space.root :: (← space.tables mem).map TableFrame.frame

/-- the address of page `n` -/
def pageAddress (n : Nat) : VirtualAddress :=
  (Page.ofNumber (UInt64.ofNat n) : VirtualPage).base

theorem page_pageAddress {n : Nat} (hn : n < 2 ^ 52) : (pageAddress n).page.number.toNat = n := by
  rw [pageAddress, Page.page_base, Page.toNat_ofNumber hn]

theorem ProcessTable.nodup_spaces {n : Nat} {t : ProcessTable n} (h : t.Distinct) :
    (t.toList.filterMap Process.space).Nodup := by
  have hslot : ∀ i (hi : i < t.toList.length), t.get? i = some t.toList[i] := by
    intro i hi
    have hlt : i < n := by
      rw [toList, Vector.length_toList] at hi
      exact hi
    rw [get?, Vector.getElem?_eq_getElem hlt]
    rfl
  rw [List.Nodup, List.pairwise_filterMap, List.pairwise_iff_getElem]
  rintro i j hi hj hlt s hs s' hs' rfl
  exact Nat.ne_of_lt hlt (h i j s ((space?_of_get? (hslot i hi)).trans hs)
    ((space?_of_get? (hslot j hj)).trans hs'))

theorem ProcessTable.mem_spaces {n : Nat} {t : ProcessTable n} {s : AddressSpace} :
    s ∈ t.toList.filterMap Process.space ↔ ∃ pid, t.space? pid = some s := by
  rw [List.mem_filterMap]
  constructor
  · rintro ⟨p, hp, hs⟩
    obtain ⟨pid, hpid⟩ := mem_toList hp
    exact ⟨pid, (space?_of_get? hpid).trans hs⟩
  · rintro ⟨pid, hpid⟩
    obtain ⟨p, hp, hs⟩ := get?_of_space? hpid
    refine ⟨p, ?_, hs⟩
    have hlt := lt_of_get? hp
    rw [get?, Vector.getElem?_eq_getElem hlt] at hp
    rw [← Option.some.inj hp]
    exact Vector.mem_toList_iff.2 (Vector.getElem_mem hlt)

namespace Kernel

/-- what a process maps at `va`; a slot without an address space maps nothing -/
def lookup (k : Kernel) (pid : Pid) (va : VirtualAddress) : Except Panic (Option Mapping) :=
  match k.processes.space? pid with
  | some space => space.lookup k.memory va
  | none => .ok none

/-- the frame that a process maps page `n` to -/
def frameOf (k : Kernel) (pid : Pid) (n : Nat) : Option Frame :=
  ((k.lookup pid (pageAddress n)).toOption.bind id).map Mapping.frame

/-- the pages of all processes that map `f`: those from `processStart` up to `virtualSize`, by the
pid of the process and the number of the page -/
@[irreducible] def holders (k : Kernel) (f : Frame) : Finset (Pid × Nat) :=
  (Finset.range slotCount ×ˢ Finset.Ico k.layout.firstPage k.layout.endPage).filter fun x =>
    k.frameOf x.1 x.2 = some f

/-- the address spaces: the kernel's own, and those of the processes -/
def spaces (k : Kernel) : List AddressSpace :=
  k.space :: k.processes.toList.filterMap Process.space

/-- the frames of the tables of all spaces, one for each root and each link -/
def tableFrames (k : Kernel) : Except Panic (List Frame) := do
  return (← k.spaces.mapM fun space => space.frames k.memory).flatten

namespace Valid

variable {k : Kernel} {unfinished : Finset Pid} {pid : Nat} {s : AddressSpace} {f : Frame}

theorem lookup_of_none (h : k.processes.space? pid = none) (va : VirtualAddress) :
    k.lookup pid va = .ok none := by
  rw [Kernel.lookup, h]

theorem lookup_eq (h : k.Valid unfinished) (hs : k.processes.space? pid = some s)
    (va : VirtualAddress) :
    k.lookup pid va = .ok ((k.memory.pageAt s.root va.page.number.toNat).map
      fun (f, perms) => ⟨va, f, perms⟩) := by
  rw [Kernel.lookup, hs]
  exact h.sound.forest.lookup_eq (Finset.mem_insert_of_mem (ProcessTable.root_mem hs)) va

theorem of_lookup (h : k.Valid unfinished) {va : VirtualAddress} {m : Mapping}
    (hm : k.lookup pid va = .ok (some m)) :
    m.va = va ∧ ∃ s, k.processes.space? pid = some s ∧ s.root ∈ k.processes.roots ∧
      k.memory.pageAt s.root va.page.number.toNat = some (m.frame, m.permissions) := by
  cases hs : k.processes.space? pid with
  | none =>
    rw [lookup_of_none hs] at hm
    cases hm
  | some s =>
    have heq := (h.lookup_eq hs va).symm.trans hm
    refine ⟨?_, s, rfl, ProcessTable.root_mem hs, ?_⟩ <;>
      cases hpage : k.memory.pageAt s.root va.page.number.toNat with
      | none =>
        rw [hpage] at heq
        cases heq
      | some x =>
        rw [hpage] at heq
        cases heq
        rfl

theorem frameOf_eq (h : k.Valid unfinished) (hs : k.processes.space? pid = some s) {n : Nat}
    (hn : n < 2 ^ 52) : k.frameOf pid n = k.memory.frameAt s.root n := by
  rw [frameOf, h.lookup_eq hs, page_pageAddress hn, Memory.frameAt]
  cases k.memory.pageAt s.root n <;> rfl

theorem frameOf_of_none (h : k.processes.space? pid = none) (n : Nat) : k.frameOf pid n = none := by
  rw [frameOf, lookup_of_none h]
  rfl

theorem mem_holders (h : k.Valid unfinished) {n : Nat} :
    (pid, n) ∈ k.holders f ↔ ∃ s, k.processes.space? pid = some s ∧
      (k.layout.firstPage ≤ n ∧ n < k.layout.endPage) ∧ k.memory.frameAt s.root n = some f := by
  have hend := h.sound.ordered.endPage_le
  rw [holders, Finset.mem_filter, Finset.mem_product, Finset.mem_Ico, Finset.mem_range]
  constructor
  · rintro ⟨⟨-, hn⟩, hf⟩
    cases hs : k.processes.space? pid with
    | none =>
      rw [frameOf_of_none hs] at hf
      cases hf
    | some s =>
      rw [h.frameOf_eq hs (Nat.lt_of_lt_of_le hn.2 (by omega))] at hf
      exact ⟨s, rfl, hn, hf⟩
  · rintro ⟨s, hs, hn, hf⟩
    refine ⟨⟨ProcessTable.lt_of_space? hs, hn⟩, ?_⟩
    rw [h.frameOf_eq hs (Nat.lt_of_lt_of_le hn.2 (by omega))]
    exact hf

/-- each process holds what its address space does -/
theorem card_holders (h : k.Valid unfinished) (f : Frame) :
    (k.holders f).card = (k.memory.holders k.layout k.processes.roots f).card := by
  have hroot : ∀ {pid : Nat} {s}, k.processes.space? pid = some s →
      ((k.processes.space? pid).map AddressSpace.root).getD default = s.root := by
    intro pid s hs
    rw [hs, Option.map_some, Option.getD_some]
  refine Finset.card_bij
    (fun x _ => (((k.processes.space? x.1).map AddressSpace.root).getD default, x.2)) ?_ ?_ ?_
  · rintro ⟨pid, n⟩ hmem
    rw [Memory.mem_holders]
    obtain ⟨s, hs, hn, hf⟩ := h.mem_holders.1 hmem
    rw [hroot hs]
    exact ⟨ProcessTable.root_mem hs, hn, hf⟩
  · rintro ⟨pid, n⟩ hmem ⟨pid', n'⟩ hmem' heq
    obtain ⟨s, hs, -⟩ := h.mem_holders.1 hmem
    obtain ⟨s', hs', -⟩ := h.mem_holders.1 hmem'
    dsimp only at heq
    rw [hroot hs, hroot hs', Prod.mk.injEq] at heq
    obtain ⟨hsame, rfl⟩ := heq
    have hspace : s = s' := by
      cases s
      cases s'
      exact congrArg AddressSpace.mk hsame
    rw [h.distinct pid pid' s hs (hspace ▸ hs')]
  · rintro ⟨r, n⟩ hmem
    obtain ⟨hr, hn, hf⟩ := Memory.mem_holders.1 hmem
    obtain ⟨pid, hs⟩ := ProcessTable.mem_roots.1 hr
    exact ⟨(pid, n), h.mem_holders.2 ⟨_, hs, hn, hf⟩, Prod.ext (hroot hs) rfl⟩

/-! ## tables -/

theorem mem_spaces (h : s ∈ k.spaces) : s.root ∈ insert k.space.root k.processes.roots := by
  rcases List.mem_cons.1 h with rfl | h
  · exact Finset.mem_insert_self _ _
  · obtain ⟨pid, hs⟩ := ProcessTable.mem_spaces.1 h
    exact Finset.mem_insert_of_mem (ProcessTable.root_mem hs)

theorem nodup_spaces (h : k.Valid unfinished) : k.spaces.Nodup := by
  refine List.nodup_cons.2 ⟨fun hin => ?_, ProcessTable.nodup_spaces h.distinct⟩
  obtain ⟨pid, hs⟩ := ProcessTable.mem_spaces.1 hin
  exact h.sound.kernel (ProcessTable.root_mem hs)

/-- the tables of all spaces, as they are found in memory: none is found twice -/
theorem tableFrames_eq (h : k.Valid unfinished) :
    ∃ tables, k.tableFrames = .ok tables ∧ tables.Nodup ∧
      ∀ f, f ∈ tables ↔ ∃ r ∈ insert k.space.root k.processes.roots, k.memory.IsTable r f := by
  have hforest := h.sound.forest
  have hframes : ∀ s ∈ k.spaces, s.frames k.memory = .ok
      (s.root :: (k.memory.preorder Level.pml4.lower .pml4 0 s.root).map TableFrame.frame) := by
    intro s hs
    have htables := hforest.tables_eq (mem_spaces hs)
    generalize k.memory.preorder Level.pml4.lower .pml4 0 s.root = tables at htables
    unfold AddressSpace.frames
    rw [show s.tables k.memory = .ok tables from htables, ok_bind, ok_pure]
  have hmem : ∀ s ∈ k.spaces, ∀ f,
      f ∈ s.root :: (k.memory.preorder Level.pml4.lower .pml4 0 s.root).map TableFrame.frame ↔
        k.memory.IsTable s.root f := by
    intro s hs f
    rw [List.mem_cons, hforest.mem_preorder_iff (mem_spaces hs)]
    constructor
    · rintro (rfl | ⟨ht, -⟩)
      · exact Memory.isTable_root
      · exact ht
    · intro ht
      by_cases hf : f = s.root
      · exact .inl hf
      · exact .inr ⟨ht, hf⟩
  unfold tableFrames
  rw [mapM_ok _ k.spaces hframes, ok_bind, ok_pure]
  refine ⟨_, rfl, ?_, fun f => ?_⟩
  · rw [← List.flatMap_def, List.nodup_flatMap]
    refine ⟨fun s hs => ?_, (nodup_spaces h).imp_of_mem fun {s s'} hs hs' hne => ?_⟩
    · refine List.nodup_cons.2 ⟨fun hin => ?_, hforest.nodup_preorder (mem_spaces hs)⟩
      exact ((hforest.mem_preorder_iff (mem_spaces hs) s.root).1 hin).2 rfl
    · intro f hf hf'
      have hroot := hforest.root_eq (mem_spaces hs) (mem_spaces hs') ((hmem s hs f).1 hf)
        ((hmem s' hs' f).1 hf')
      cases s
      cases s'
      exact hne (congrArg AddressSpace.mk hroot)
  · rw [← List.flatMap_def, List.mem_flatMap]
    constructor
    · rintro ⟨s, hs, hf⟩
      exact ⟨s.root, mem_spaces hs, (hmem s hs f).1 hf⟩
    · rintro ⟨r, hr, ht⟩
      rcases Finset.mem_insert.1 hr with rfl | hr
      · exact ⟨k.space, List.mem_cons_self, (hmem _ List.mem_cons_self f).2 ht⟩
      · obtain ⟨pid, hs⟩ := ProcessTable.mem_roots.1 hr
        have hin : AddressSpace.mk r ∈ k.spaces :=
          List.mem_cons_of_mem _ (ProcessTable.mem_spaces.2 ⟨pid, hs⟩)
        exact ⟨_, hin, (hmem _ hin f).2 ht⟩

end Valid

end Kernel

end PagedKernel
