import PagedKernel.Proofs.Kernel.Mappings
import PagedKernel.Proofs.Kernel.Serves
import PagedKernel.Proofs.Process.Copy

/-!
# What a process has in its memory

Permissions and bytes as they are looked up for an address, and what the invariant says of the
frames behind them.

* `Kernel.byteAt`            the byte that a process has at an address
* `Kernel.permissionsAt`     what it may do there
* `Kernel.IsFree`            a frame can be handed out, and nobody refers to it
* `Kernel.Valid.byteAt_eq`   bytes and permissions are those of what the process sees
* `Kernel.Valid.lookup_below`   below its memory a process maps what the kernel's own space does
* `Kernel.Valid.count_page`, `Kernel.Valid.count_eq_one_iff`   a frame counts the pages that map it
* `Kernel.Adopts.alone`      such a frame of a new address space was free before
-/

namespace PagedKernel

namespace Kernel

/-- the byte that a process has at `va`, if it maps the address -/
def byteAt (k : Kernel) (pid : Pid) (va : VirtualAddress) : Option UInt8 :=
  ((k.lookup pid va).toOption.bind id).bind fun m => k.memory.byte? m.physical.value.toNat

/-- what a process may do at an address; nothing where it maps nothing -/
def permissionsAt (k : Kernel) (pid : Pid) (va : VirtualAddress) :
    Except Panic (Option Permissions) :=
  (k.lookup pid va).map (Option.map Mapping.permissions)

/-- `f` can be handed out, and nobody refers to it -/
def IsFree (k : Kernel) (f : Frame) : Prop :=
  k.layout.isAllocatable f.base = .ok true ∧ k.memory.count f = 0

namespace Valid

variable {k : Kernel} {pid n : Nat} {s : AddressSpace} {f : Frame} {p : Permissions}

/-- what is looked up for a process is what its tables hold -/
theorem pageAt_of_lookup (h : k.Valid ∅) (hs : k.processes.space? pid = some s)
    {va : VirtualAddress} {m : Mapping} (hm : k.lookup pid va = .ok (some m)) :
    k.memory.pageAt s.root va.page.number.toNat = some (m.frame, m.permissions) := by
  obtain ⟨-, s', hs', -, hpage⟩ := h.of_lookup hm
  obtain rfl := Option.some.inj (hs.symm.trans hs')
  exact hpage

theorem permissionsAt_eq (h : k.Valid ∅) (hs : k.processes.space? pid = some s)
    (va : VirtualAddress) :
    k.permissionsAt pid va
      = .ok ((k.memory.viewAt s.root va.page.number.toNat).map Prod.fst) := by
  rw [permissionsAt, h.lookup_eq hs, Memory.viewAt, Option.map_map]
  cases k.memory.pageAt s.root va.page.number.toNat <;> rfl

theorem byteAt_eq (h : k.Valid ∅) (hs : k.processes.space? pid = some s)
    {va : VirtualAddress} (hva : k.layout.isUserAddress va = true) :
    k.byteAt pid va
      = (k.memory.viewAt s.root va.page.number.toNat).map fun v => v.2.byte va.offset.toNat := by
  have hl := h.sound.ordered
  have hend := hl.endPage_le
  obtain ⟨-, hlt⟩ := (hl.isUserAddress_iff va).1 hva
  rw [byteAt, h.lookup_eq hs]
  cases hpage : k.memory.pageAt s.root va.page.number.toNat with
  | none =>
    rw [Memory.viewAt_of_none hpage]
    rfl
  | some x =>
    obtain ⟨f, p⟩ := x
    obtain ⟨hin, -⟩ :=
      AddressSpace.hasFrame_of_page h.sound (ProcessTable.root_mem hs) (by omega) hpage
    rw [Memory.viewAt_of_pageAt hpage]
    show k.memory.byte? (f.address va.offset).value.toNat = _
    rw [Memory.byte?_address _ _ va.offset_lt, if_pos (Memory.hasFrame_iff.1 hin)]
    rfl

/-- below their memory all processes map what the kernel's own space maps there -/
theorem lookup_below (h : k.Valid ∅) (hs : k.processes.space? pid = some s)
    {va : VirtualAddress} (hva : va.page.number.toNat < k.layout.firstPage) :
    k.lookup pid va = .ok ((k.layout.kernelPage va.page.number.toNat).map
      fun (f, perms) => ⟨va, f, perms⟩) := by
  rw [h.lookup_eq hs, (h.complete pid (Finset.notMem_empty _) s hs).low _ hva]

/-- a frame that is mapped for a process counts a reference for each page that maps it -/
theorem count_page (h : k.Valid ∅) (hs : k.processes.space? pid = some s)
    (h₁ : k.layout.firstPage ≤ n) (h₂ : n < k.layout.endPage)
    (hpage : k.memory.pageAt s.root n = some (f, p)) : k.memory.count f = (k.holders f).card := by
  rw [h.sound.accounts,
    Memory.tableCount_eq_zero (h.sound.of_page (ProcessTable.root_mem hs) h₁ h₂ hpage).2.2,
    ← h.card_holders, List.count_nil, Nat.zero_add, Nat.add_zero]

/-- a page is the only one that maps its frame if the frame counts one reference -/
theorem count_eq_one_iff (h : k.Valid ∅) (hs : k.processes.space? pid = some s)
    (h₁ : k.layout.firstPage ≤ n) (h₂ : n < k.layout.endPage)
    (hpage : k.memory.pageAt s.root n = some (f, p)) :
    k.memory.count f = 1 ↔ k.holders f = {(pid, n)} := by
  have hmem : (pid, n) ∈ k.holders f :=
    h.mem_holders.2 ⟨s, hs, ⟨h₁, h₂⟩, Memory.frameAt_of_pageAt hpage⟩
  rw [h.count_page hs h₁ h₂ hpage, Finset.card_eq_one]
  constructor
  · rintro ⟨x, hx⟩
    rw [hx, Finset.mem_singleton] at hmem
    rw [hx, hmem]
  · exact fun hone => ⟨_, hone⟩

end Valid

/-- a frame of a new address space that counts one reference was free, and nobody else maps it -/
theorem Adopts.alone {k k' : Kernel} {pid n : Nat} {s : AddressSpace} {f : Frame}
    {p : Permissions} (h : Adopts pid s k k') (h₁ : k.layout.firstPage ≤ n)
    (h₂ : n < k.layout.endPage) (hpage : k'.memory.pageAt s.root n = some (f, p))
    (hone : k'.memory.count f = 1) : k.IsFree f ∧ k'.holders f = {(pid, n)} := by
  have hmore := h.count_page h₁ h₂ hpage
  obtain ⟨-, hmanages, -⟩ := h.sound.of_page (Finset.mem_insert_self _ _) h₁ h₂ hpage
  refine ⟨⟨?_, by omega⟩, ?_⟩
  · rw [h.sound.managed, hmanages]
  · rw [← h.layout] at h₁ h₂
    exact (h.after.count_eq_one_iff h.space h₁ h₂ hpage).1 hone

end Kernel

end PagedKernel
