import Mathlib.Data.Finset.Prod
import Mathlib.Order.Interval.Finset.Nat
import PagedKernel.Proofs.Layout
import PagedKernel.Proofs.Paging.Growth

/-!
# Who holds what

The invariant of memory while processes are built, copied and taken down: every reference that a
frame counts is held by a table, by a page of a process, or by whoever works on memory just now.

* `Memory.holders l procs f`     the pages of processes that map `f`
* `Sound l kr procs owed mem`    the invariant; `owed` are the references that are to be placed
* `Sound.rebuild`                the tree of a process may change, if the references add up
* `Sound.update`                 frames that are no tables may change, if the references add up
* `Sound.adopt`, `Sound.disown`  a process is added, and taken away

A frame that two pages map is mapped at the same place of two processes, and by neither for writing.
-/

namespace PagedKernel

/-! ## holders -/

namespace Memory

variable {mem mem' : Memory} {l : Layout} {procs roots : Finset Frame} {r f : Frame} {n : Nat}

/-- the frame that page `n` is mapped to -/
def frameAt (mem : Memory) (root : Frame) (n : Nat) : Option Frame :=
  (mem.pageAt root n).map Prod.fst

/-- the pages of processes that map `f` -/
@[irreducible]
def holders (mem : Memory) (l : Layout) (procs : Finset Frame) (f : Frame) :
    Finset (Frame × Nat) :=
  (procs ×ˢ Finset.Ico l.firstPage l.endPage).filter fun x => mem.frameAt x.1 x.2 = some f

open Classical in
/-- the references to `f` as a table: one or none -/
noncomputable def tableCount (mem : Memory) (roots : Finset Frame) (f : Frame) : Nat :=
  if ∃ r ∈ roots, mem.IsTable r f then 1 else 0

theorem frameAt_of_pageAt {p : Permissions} (h : mem.pageAt r n = some (f, p)) :
    mem.frameAt r n = some f := by
  rw [frameAt, h, Option.map_some]

theorem pageAt_of_frameAt (h : mem.frameAt r n = some f) : ∃ p, mem.pageAt r n = some (f, p) := by
  obtain ⟨⟨g, p⟩, hpage, rfl⟩ := Option.map_eq_some_iff.1 h
  exact ⟨p, hpage⟩

theorem mem_holders :
    (r, n) ∈ mem.holders l procs f ↔
      r ∈ procs ∧ (l.firstPage ≤ n ∧ n < l.endPage) ∧ mem.frameAt r n = some f := by
  rw [holders, Finset.mem_filter, Finset.mem_product, Finset.mem_Ico, and_assoc]

theorem holders_congr
    (h : ∀ r ∈ procs, ∀ n, l.firstPage ≤ n → n < l.endPage → mem'.frameAt r n = mem.frameAt r n)
    (f : Frame) : mem'.holders l procs f = mem.holders l procs f := by
  ext ⟨r, n⟩
  rw [mem_holders, mem_holders]
  constructor
  · rintro ⟨hr, hn, hf⟩
    rw [h r hr n hn.1 hn.2] at hf
    exact ⟨hr, hn, hf⟩
  · rintro ⟨hr, hn, hf⟩
    rw [← h r hr n hn.1 hn.2] at hf
    exact ⟨hr, hn, hf⟩

theorem tableCount_eq_one (hr : r ∈ roots) (h : mem.IsTable r f) : mem.tableCount roots f = 1 :=
  if_pos ⟨r, hr, h⟩

theorem tableCount_eq_zero (h : ∀ r ∈ roots, ¬ mem.IsTable r f) : mem.tableCount roots f = 0 :=
  if_neg fun ⟨r, hr, ht⟩ => h r hr ht

/-- the tables of one tree more -/
theorem tableCount_insert (h : mem.IsTable r f → ∀ r' ∈ roots, ¬ mem.IsTable r' f) :
    mem.tableCount (insert r roots) f = mem.tableCount roots f + mem.tableCount {r} f := by
  by_cases ht : mem.IsTable r f
  · rw [tableCount_eq_one (Finset.mem_insert_self r roots) ht, tableCount_eq_zero (h ht),
      tableCount_eq_one (Finset.mem_singleton_self r) ht]
  · have hnone : mem.tableCount {r} f = 0 :=
      tableCount_eq_zero fun r' hr' => Finset.mem_singleton.1 hr' ▸ ht
    rw [hnone, Nat.add_zero]
    unfold tableCount
    congr 1
    exact propext ((Finset.exists_mem_insert _ _ _).trans (or_iff_right ht))

theorem tableCount_congr (h : ∀ r ∈ roots, mem'.IsTable r f ↔ mem.IsTable r f) :
    mem'.tableCount roots f = mem.tableCount roots f := by
  unfold tableCount
  congr 1
  apply propext
  constructor
  · rintro ⟨r, hr, ht⟩
    exact ⟨r, hr, (h r hr).1 ht⟩
  · rintro ⟨r, hr, ht⟩
    exact ⟨r, hr, (h r hr).2 ht⟩

end Memory

/-! ## the invariant -/

/-- every reference is accounted for; `kr` is the root of the kernel's own space, `procs` those of
the processes, and `owed` the references that are in nobody's hands but the kernel's -/
structure Sound (l : Layout) (kr : Frame) (procs : Finset Frame) (owed : List Frame)
    (mem : Memory) : Prop where
  ordered : l.Ordered
  forest : Forest mem (insert kr procs)
  kernel : kr ∉ procs
  size : mem.contents.size = l.frameCount
  managed : ∀ f, l.isAllocatable f.base = .ok (mem.manages f)
  /-- a frame that is never handed out is not counted -/
  reserved : ∀ f, mem.count f ≠ 0 → mem.manages f = true
  accounts : ∀ f, mem.count f
    = mem.tableCount (insert kr procs) f + (mem.holders l procs f).card + owed.count f
  kernelPages : ∀ n < 2 ^ 36, mem.pageAt kr n = l.kernelPage n
  /-- below the memory of a process lies what the kernel maps there -/
  low : ∀ r ∈ procs, ∀ n < l.firstPage, ∀ x, mem.pageAt r n = some x → l.kernelPage n = some x
  /-- above it lies nothing -/
  high : ∀ r ∈ procs, ∀ n, l.endPage ≤ n → n < 2 ^ 36 → mem.pageAt r n = none
  perms : ∀ r ∈ procs, ∀ n f p, l.firstPage ≤ n → n < l.endPage → mem.pageAt r n = some (f, p) →
    p = .userReadWrite ∨ p = .userReadOnly
  shared : ∀ r ∈ procs, ∀ r' ∈ procs, ∀ n n' f p p', l.firstPage ≤ n → n < l.endPage →
    l.firstPage ≤ n' → n' < l.endPage → mem.pageAt r n = some (f, p) →
    mem.pageAt r' n' = some (f, p') → n = n' ∧ (r = r' ∨ p.writable = false)

namespace Sound

variable {l : Layout} {kr : Frame} {procs : Finset Frame} {owed owed' : List Frame}
  {mem mem' : Memory} {r r' f g : Frame} {n n' : Nat} {p p' : Permissions}

theorem root_mem (hr : r ∈ procs) : r ∈ insert kr procs := Finset.mem_insert_of_mem hr

theorem kernel_mem : kr ∈ insert kr procs := Finset.mem_insert_self kr procs

/-! ### frames that are held -/

theorem of_isTable (h : Sound l kr procs owed mem) (hr : r ∈ insert kr procs)
    (ht : mem.IsTable r f) : mem.holders l procs f = ∅ ∧ owed.count f = 0 := by
  have hcount := h.forest.counted r hr f ht
  have haccounts := h.accounts f
  rw [Memory.tableCount_eq_one hr ht, hcount] at haccounts
  refine ⟨Finset.card_eq_zero.1 ?_, ?_⟩ <;> omega

theorem not_owed (h : Sound l kr procs owed mem) (hr : r ∈ insert kr procs)
    (ht : mem.IsTable r f) : f ∉ owed := by
  rw [← List.count_eq_zero]
  exact (h.of_isTable hr ht).2

theorem of_page (h : Sound l kr procs owed mem) (hr : r ∈ procs) (h₁ : l.firstPage ≤ n)
    (h₂ : n < l.endPage) (hpage : mem.pageAt r n = some (f, p)) :
    mem.count f ≠ 0 ∧ mem.manages f = true ∧ ∀ r' ∈ insert kr procs, ¬ mem.IsTable r' f := by
  have hmem : (r, n) ∈ mem.holders l procs f :=
    Memory.mem_holders.2 ⟨hr, ⟨h₁, h₂⟩, Memory.frameAt_of_pageAt hpage⟩
  have hpos := Finset.card_pos.2 ⟨_, hmem⟩
  have haccounts := h.accounts f
  have hcount : mem.count f ≠ 0 := by omega
  refine ⟨hcount, h.reserved f hcount, fun r' hr' ht => ?_⟩
  rw [(h.of_isTable hr' ht).1] at hmem
  exact absurd hmem (Finset.notMem_empty _)

theorem of_owed (h : Sound l kr procs owed mem) (hf : f ∈ owed) :
    mem.count f ≠ 0 ∧ mem.manages f = true ∧ ∀ r' ∈ insert kr procs, ¬ mem.IsTable r' f := by
  have hpos := List.count_pos_iff.2 hf
  have haccounts := h.accounts f
  have hcount : mem.count f ≠ 0 := by omega
  exact ⟨hcount, h.reserved f hcount, fun r' hr' ht => h.not_owed hr' ht hf⟩

theorem ne_zero (h : Sound l kr procs owed mem) (hf : mem.manages f = true) :
    f.number.toNat ≠ 0 := by
  intro hzero
  have hnull : f.base.value = 0 := by
    apply UInt64.toNat.inj
    rw [f.toNat_base, hzero]
    rfl
  have hno : l.isAllocatable f.base = .ok false := by
    unfold Layout.isAllocatable
    rw [Page.page_base, hnull]
    rfl
  rw [h.managed, hf] at hno
  cases hno

theorem toNat_lt (h : Sound l kr procs owed mem) (hf : mem.manages f = true) :
    f.number.toNat < 2 ^ 40 :=
  Nat.lt_of_lt_of_le (Memory.hasFrame_iff.1 (Memory.hasFrame_of_manages hf)) h.forest.size_le

/-- pages that map one frame lie at one place of several processes -/
theorem holders_subset (h : Sound l kr procs owed mem) (hr : r ∈ procs) (h₁ : l.firstPage ≤ n)
    (h₂ : n < l.endPage) (hpage : mem.pageAt r n = some (f, p)) :
    mem.holders l procs f ⊆ procs ×ˢ {n} := by
  rintro ⟨r', n'⟩ hmem
  obtain ⟨hr', ⟨h₁', h₂'⟩, hframe⟩ := Memory.mem_holders.1 hmem
  obtain ⟨p', hpage'⟩ := Memory.pageAt_of_frameAt hframe
  have hsame := (h.shared r hr r' hr' n n' f p p' h₁ h₂ h₁' h₂' hpage hpage').1
  rw [Finset.mem_product, Finset.mem_singleton]
  exact ⟨hr', hsame.symm⟩

/-- a page that can be written is the only one that maps its frame -/
theorem holders_writable (h : Sound l kr procs owed mem) (hr : r ∈ procs) (h₁ : l.firstPage ≤ n)
    (h₂ : n < l.endPage) (hpage : mem.pageAt r n = some (f, p)) (hw : p.writable = true) :
    mem.holders l procs f = {(r, n)} := by
  ext ⟨r', n'⟩
  rw [Finset.mem_singleton, Prod.mk.injEq]
  constructor
  · intro hmem
    obtain ⟨hr', ⟨h₁', h₂'⟩, hframe⟩ := Memory.mem_holders.1 hmem
    obtain ⟨p', hpage'⟩ := Memory.pageAt_of_frameAt hframe
    obtain ⟨rfl, rfl | hro⟩ := h.shared r hr r' hr' n n' f p p' h₁ h₂ h₁' h₂' hpage hpage'
    · exact ⟨rfl, rfl⟩
    · rw [hw] at hro
      cases hro
  · rintro ⟨rfl, rfl⟩
    exact Memory.mem_holders.2 ⟨hr, ⟨h₁, h₂⟩, Memory.frameAt_of_pageAt hpage⟩

theorem count_writable (h : Sound l kr procs [] mem) (hr : r ∈ procs) (h₁ : l.firstPage ≤ n)
    (h₂ : n < l.endPage) (hpage : mem.pageAt r n = some (f, p)) (hw : p.writable = true) :
    mem.count f = 1 := by
  rw [h.accounts, Memory.tableCount_eq_zero (h.of_page hr h₁ h₂ hpage).2.2,
    h.holders_writable hr h₁ h₂ hpage hw, Finset.card_singleton, List.count_nil]

/-- no frame has more references than there are processes, those that are owed apart -/
theorem count_le (h : Sound l kr procs owed mem) (hr : r ∈ procs) (h₁ : l.firstPage ≤ n)
    (h₂ : n < l.endPage) (hpage : mem.pageAt r n = some (f, p)) :
    mem.count f ≤ procs.card + owed.count f := by
  have hcard := Finset.card_le_card (h.holders_subset hr h₁ h₂ hpage)
  rw [Finset.card_product, Finset.card_singleton, Nat.mul_one] at hcard
  have haccounts := h.accounts f
  rw [Memory.tableCount_eq_zero (h.of_page hr h₁ h₂ hpage).2.2] at haccounts
  omega

/-- a frame that counts one reference has one holder -/
theorem eq_of_count_one (h : Sound l kr procs owed mem) (hr : r ∈ procs) (hr' : r' ∈ procs)
    (h₁ : l.firstPage ≤ n) (h₂ : n < l.endPage) (h₁' : l.firstPage ≤ n') (h₂' : n' < l.endPage)
    (hpage : mem.pageAt r n = some (f, p)) (hpage' : mem.pageAt r' n' = some (f, p'))
    (hone : mem.count f = 1) : r = r' ∧ n = n' := by
  have hmem : (r, n) ∈ mem.holders l procs f :=
    Memory.mem_holders.2 ⟨hr, ⟨h₁, h₂⟩, Memory.frameAt_of_pageAt hpage⟩
  have hmem' : (r', n') ∈ mem.holders l procs f :=
    Memory.mem_holders.2 ⟨hr', ⟨h₁', h₂'⟩, Memory.frameAt_of_pageAt hpage'⟩
  have haccounts := h.accounts f
  have hle : (mem.holders l procs f).card ≤ 1 := by omega
  have := Finset.card_le_one.1 hle _ hmem _ hmem'
  exact ⟨congrArg Prod.fst this, congrArg Prod.snd this⟩

end Sound

end PagedKernel
