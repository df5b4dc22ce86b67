import PagedKernel.Proofs.Memory.Initial
import PagedKernel.Proofs.Paging.Map

/-!
# Spaces that were built

A space that was made by calls is a tree by itself, whatever else goes on in memory.

* `AddressSpace.Built`      allocated, mapped page by page, and else left alone
* `AddressSpace.Built.tree` its tables are a forest of one tree, and its pages lie in memory
* `AddressSpace.Built.map`  one more page is mapped if there are frames for its tables
* `AddressSpace.exists_built`, `AddressSpace.exists_pages`  built spaces of the default machine
-/

namespace PagedKernel

namespace AddressSpace

variable {space : AddressSpace} {m m' : Machine}

/-- a space that was built: it was allocated, its pages were mapped to frames of memory and mapped
no more, with success or without, and nothing else wrote its tables or counted them anew.  The
frames of memory have the 40-bit numbers that an entry has room for. -/
inductive Built (space : AddressSpace) : Machine → Prop
  | allocated {m m' : Machine} (hsize : m.contents.size ≤ 2 ^ 40)
    (h : allocate m = .ok (some space) m') : Built space m'
  | mapped {m m' : Machine} {va : VirtualAddress} {f : Frame} {p : Permissions}
    {result : Except MapError Unit} (h : Built space m) (hf : m.hasFrame f = true)
    (hmap : (space.map va f p).outcome m = .ok result m') : Built space m'
  | elsewhere {m m' : Machine} (h : Built space m)
    (hsize : m'.contents.size = m.contents.size)
    (hdata : ∀ t, m.IsTable space.root t → m'.data t = m.data t)
    (hcount : ∀ t, m.IsTable space.root t → m'.count t = m.count t) : Built space m'

/-- the tables of a space are a tree, and its pages are mapped to frames of memory -/
structure Tree (space : AddressSpace) (mem : Memory) : Prop where
  forest : Forest mem {space.root}
  inside : ∀ n f p, mem.pageAt space.root n = some (f, p) → mem.hasFrame f = true

namespace Tree

variable {mem mem' : Memory} {n : Nat} {target : Option (Frame × Permissions)}

theorem of_claimed (h : Claimed mem space.root mem') (hsize : mem.contents.size ≤ 2 ^ 40)
    (hempty : ∀ i, mem'.entryAt space.root i = .empty) : space.Tree mem' where
  forest := by
    have hone := h.count space.root
    rw [if_pos rfl] at hone
    refine .of_empty hempty ?_ h.hasFrame hone
    rw [h.size]
    exact hsize
  inside n f p hpage := by
    rw [Memory.pageAt_of_empty hempty] at hpage
    cases hpage

/-- new tables for a page are as good whether the page is mapped then or is not -/
theorem grown (h : space.Tree mem) (hgrown : Grown {space.root} space.root mem mem')
    (hpages : ∀ n f p, mem'.pageAt space.root n = some (f, p) →
      mem.hasFrame f = true ∨ mem.pageAt space.root n = some (f, p)) : space.Tree mem' where
  forest := hgrown.forest
  inside n f p hpage := by
    rw [Memory.hasFrame_iff, hgrown.size, ← Memory.hasFrame_iff]
    exact (hpages n f p hpage).elim id (h.inside n f p)

theorem mapped (h : space.Tree mem) (hmapped : Mapped {space.root} space.root n target mem mem')
    (htarget : ∀ f p, target = some (f, p) → mem.hasFrame f = true) : space.Tree mem' := by
  refine h.grown hmapped.grown fun k f p hpage => ?_
  rw [hmapped.page] at hpage
  split at hpage
  · exact .inl (htarget f p hpage)
  · exact .inr hpage

theorem congr (h : space.Tree mem) (hsize : mem'.contents.size = mem.contents.size)
    (hdata : ∀ t, mem.IsTable space.root t → mem'.data t = mem.data t)
    (hcount : ∀ t, mem.IsTable space.root t → mem'.count t = mem.count t) : space.Tree mem' where
  forest := by
    refine h.forest.congr hsize (fun r hr t ht => ?_) fun r hr t ht => ?_
    · obtain rfl := Finset.mem_singleton.1 hr
      exact hdata t ht
    · have hone := h.forest.counted r hr t ht
      obtain rfl := Finset.mem_singleton.1 hr
      exact (hcount t ht).trans hone
  inside n f p hpage := by
    rw [Memory.pageAt_congr hdata] at hpage
    rw [Memory.hasFrame_iff, hsize, ← Memory.hasFrame_iff]
    exact h.inside n f p hpage

theorem root_mem (_ : space.Tree mem) : space.root ∈ ({space.root} : Finset Frame) :=
  Finset.mem_singleton_self _

theorem toNat_lt (h : space.Tree mem) {f : Frame} (hf : mem.hasFrame f = true) :
    f.number.toNat < 2 ^ 40 :=
  Nat.lt_of_lt_of_le (Memory.hasFrame_iff.1 hf) h.forest.size_le

/-- a call that maps a page, or finds no memory for its tables, or takes a mapping away -/
theorem ends_map (h : space.Tree m.toMemory) (va : VirtualAddress) {f : Frame} (p : Permissions)
    (hf : m.hasFrame f = true) :
    Ends (space.map va f p) m (fun _ m' => space.Tree m'.toMemory)
      (Fails fun _ m' => space.Tree m'.toMemory) := by
  cases hp : p.present with
  | true =>
    refine (AddressSpace.ends_map va p h.forest h.root_mem (h.toNat_lt hf) hp).mono
      (fun _ m' hm' => ?_) (Fails.mono fun e m' hm' => ?_)
    · refine h.mapped hm'.1 fun g q hg => ?_
      obtain ⟨rfl, -⟩ := Prod.mk.inj (Option.some.inj hg)
      exact hf
    · refine h.grown hm'.grown fun n g q hpage => .inr ?_
      rw [← hm'.pages]
      exact hpage
  | false =>
    exact (ends_unmap va p h.forest h.root_mem hp).mono
      (fun _ m' hm' => h.mapped hm'.1 (by rintro f p ⟨⟩)) fun _ _ hn => hn.elim

end Tree

namespace Built

theorem tree (h : space.Built m) : space.Tree m.toMemory := by
  induction h with
  | @allocated m m' hsize h =>
    have hsize' : m.contents.size ≤ 2 ^ 52 :=
      Nat.le_trans hsize (Nat.pow_le_pow_right (by decide) (by decide))
    obtain ⟨hclaimed, hempty⟩ := (ends_allocateRoot hsize').ok h
    exact .of_claimed hclaimed hsize hempty
  | @mapped m m' va f p result h hf hmap ih =>
    have hends := ih.ends_map va p hf
    have houtcome : Ends (space.map va f p).outcome m (fun _ m' => space.Tree m'.toMemory) Never :=
      ends_outcome.2 (hends.mono (fun _ _ hq => hq) fun e m' he => by cases e <;> exact he)
    exact houtcome.ok hmap
  | elsewhere h hsize hdata hcount ih => exact ih.congr hsize hdata hcount

theorem forest (h : space.Built m) : Forest m.toMemory {space.root} := h.tree.forest

/-- one more page is mapped if there are frames for its tables -/
theorem map (h : space.Built m) (va : VirtualAddress) {f : Frame} {p : Permissions}
    (hf : m.hasFrame f = true) (hp : p.present = true)
    (hroom : m.missing space.root (pagePath va.page.number.toNat) ≤ m.freeCount) :
    ∃ m', space.Built m' ∧ Mapped {space.root} space.root va.page.number.toNat
      (some (f, p.core)) m.toMemory m'.toMemory ∧
      m'.freeCount + m.missing space.root (pagePath va.page.number.toNat) = m.freeCount := by
  have hends := ends_map va p h.forest h.tree.root_mem (h.tree.toNat_lt hf) hp
  have hnever : Ends (space.map va f p) m _ (Fails fun _ _ => False) :=
    hends.mono (fun _ _ hq => hq)
      (Fails.mono fun e m' he => absurd he.less (Nat.not_lt.2 hroom))
  have houtcome : Ends (space.map va f p).outcome m
      (fun _ m' => Mapped {space.root} space.root va.page.number.toNat (some (f, p.core))
        m.toMemory m'.toMemory ∧
        m'.freeCount + m.missing space.root (pagePath va.page.number.toNat) = m.freeCount) Never :=
    ends_outcome.2 (hnever.mono (fun _ _ hq => hq) fun e m' he => by cases e <;> exact he.elim)
  obtain ⟨result, m', hmap, hmapped⟩ := houtcome.exists_ok
  exact ⟨m', h.mapped hf hmap, hmapped⟩

end Built

/-! ## the default machine -/

/-- a space of the default machine that maps nothing; memory still holds zeroes but for its root -/
theorem exists_built : ∃ (m : Machine) (space : AddressSpace), space.Built m ∧
    m.contents.size = 512 ∧ 381 ≤ m.freeCount ∧ (∀ n, m.pageAt space.root n = none) ∧
    (∀ t, m.IsTable space.root t → m.manages t = true) ∧
    ∀ f, ({} : Layout).isAllocatable f.base = .ok (m.manages f) ∧
      (m.manages f = false → m.data f = .zero) := by
  obtain ⟨mem, hmem, hledger, hsize, -, hmanages⟩ := Memory.ofLayout_eq Layout.ordered_default
  have hcount : ({} : Layout).frameCount = 512 := by decide
  rw [hcount] at hsize
  have hsmall : mem.contents.size ≤ 2 ^ 40 := by rw [hsize]; decide
  have hroot := ends_allocateRoot (m := { toMemory := mem })
    (Nat.le_trans hsmall (Nat.pow_le_pow_right (by decide) (by decide)))
  have hfree : 382 ≤ mem.freeCount := by
    have husable : ({} : Layout).frameCount
        ≤ (List.range ({} : Layout).frameCount).countP ({} : Layout).isUsable + 130 :=
      @Layout.le_countP_sized 0x200000 Layout.ordered_default
    rw [Memory.freeCount, hledger, Ledger.freeCount_initial]
    omega
  obtain ⟨space?, m', hx, hq⟩ := hroot.exists_ok
  cases space? with
  | none =>
    have hzero : mem.freeCount = 0 := hq.2
    omega
  | some space =>
    obtain ⟨hclaimed, hempty⟩ := hq
    have hstart : mem.contents.size = m'.contents.size := hclaimed.size.symm
    have htaken : m'.freeCount + 1 = mem.freeCount := hclaimed.freeCount
    refine ⟨m', space, .allocated hsmall hx, by omega, by omega,
      Memory.pageAt_of_empty hempty, fun t ht => ?_, fun f => ⟨?_, fun hf => ?_⟩⟩
    · obtain rfl := (Memory.isTable_of_empty hempty).1 ht
      exact (hclaimed.manages _).trans hclaimed.managed
    · rw [hclaimed.manages]
      exact hmanages f
    · rw [hclaimed.data f ?_]
      · exact Memory.data_ofLayout hmem f
      · rintro rfl
        rw [hclaimed.manages, hclaimed.managed] at hf
        cases hf

/-- new tables are frames that may be handed out -/
theorem Mapped.manages {n : Nat} {target : Option (Frame × Permissions)} {mem mem' : Memory}
    (h : Mapped {space.root} space.root n target mem mem')
    (hold : ∀ t, mem.IsTable space.root t → mem.manages t = true) (t : Frame)
    (ht : mem'.IsTable space.root t) : mem'.manages t = true := by
  rw [h.grown.manages]
  by_cases hwas : mem.IsTable space.root t
  · exact hold t hwas
  · exact (h.grown.fresh t ht hwas).2

/-- a space of the default machine with two pages in a row, which a process may write.  Their frames
are never handed out, and hold zeroes. -/
theorem exists_pages : ∃ (m : Machine) (space : AddressSpace) (f g : Frame), space.Built m ∧
    f ≠ g ∧ ¬ m.IsTable space.root f ∧ ¬ m.IsTable space.root g ∧
    m.data f = .zero ∧ m.data g = .zero ∧
    ∀ n < 2 ^ 36, m.pageAt space.root n = if n = 0x401 then some (g, .userReadWrite)
      else if n = 0x400 then some (f, .userReadWrite) else none := by
  obtain ⟨m₀, space, h₀, hsize, hfree, hnone, hmanaged₀, hframes⟩ := exists_built
  have hf₀ : m₀.manages (.ofNumber 0x40) = false :=
    (Except.ok.inj (hframes (.ofNumber 0x40)).1).symm
  have hg₀ : m₀.manages (.ofNumber 0x41) = false :=
    (Except.ok.inj (hframes (.ofNumber 0x41)).1).symm
  have hfin : m₀.hasFrame (.ofNumber 0x40) = true := by
    rw [Memory.hasFrame_iff, hsize]
    decide
  have hgin : m₀.hasFrame (.ofNumber 0x41) = true := by
    rw [Memory.hasFrame_iff, hsize]
    decide
  have hlack (m : Machine) (n : Nat) : m.missing space.root (pagePath n) ≤ 3 :=
    m.missing_le space.root (pagePath n)
  obtain ⟨m₁, h₁, hmapped₁, hfree₁⟩ := h₀.map ⟨0x400000⟩ (p := .userReadWrite) hfin rfl
    (Nat.le_trans (hlack _ _) (by omega))
  have hroom₁ := hlack m₀ (Address.page (⟨0x400000⟩ : VirtualAddress)).number.toNat
  have hgin₁ : m₁.hasFrame (.ofNumber 0x41) = true := by
    rw [Memory.hasFrame_iff, hmapped₁.grown.size, ← Memory.hasFrame_iff]
    exact hgin
  obtain ⟨m₂, h₂, hmapped₂, -⟩ := h₁.map ⟨0x401000⟩ (p := .userReadWrite) hgin₁ rfl
    (Nat.le_trans (hlack _ _) (by omega))
  have hmanaged₂ := hmapped₂.manages (hmapped₁.manages hmanaged₀)
  have hmanages (t : Frame) : m₂.manages t = m₀.manages t :=
    (hmapped₂.grown.manages t).trans (hmapped₁.grown.manages t)
  -- a frame that is not managed was no table at any time, so nothing wrote it
  have hkept (t : Frame) (ht : m₀.manages t = false) :
      ¬ m₂.IsTable space.root t ∧ m₂.data t = .zero := by
    have hnot₂ : ¬ m₂.IsTable space.root t := fun hyes => by
      rw [← hmanages, hmanaged₂ t hyes] at ht
      cases ht
    have hnot₁ : ¬ m₁.IsTable space.root t := fun hyes => hnot₂ (hmapped₂.grown.table t hyes)
    exact ⟨hnot₂, (hmapped₂.grown.data t hnot₂).trans
      ((hmapped₁.grown.data t hnot₁).trans ((hframes t).2 ht))⟩
  refine ⟨m₂, space, .ofNumber 0x40, .ofNumber 0x41, h₂, by decide, (hkept _ hf₀).1,
    (hkept _ hg₀).1, (hkept _ hf₀).2, (hkept _ hg₀).2, fun n hn => ?_⟩
  rw [hmapped₂.page_of_lt (by decide) hn, hmapped₁.page_of_lt (by decide) hn, hnone]
  rfl

end AddressSpace

end PagedKernel
