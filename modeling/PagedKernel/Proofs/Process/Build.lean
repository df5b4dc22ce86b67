import PagedKernel.Process.Space
import PagedKernel.Proofs.Process.Keeps

/-!
# Building the memory of a process

How the steps end with which the memory of a process is built, while memory is sound: a frame is
claimed, a page is mapped to it, a reference is given up.

* `Claimed.sound`                   a frame that was handed out is owed
* `AddressSpace.ends_claimFrame`    a frame is handed out, if one is free
* `RanOut`                          memory did not suffice, and the others have what they had
* `AddressSpace.ends_mapOrRelease`  the page holds the reference that was owed, or it is given up
* `NewPage roots r n p d mem mem'`  a page got a frame that was free
* `Spent r n mem mem'`              memory ran out before it did
* `AddressSpace.ends_mapClear`      a page of zeroes
* `AddressSpace.ends_allocate`      an empty space
-/

namespace PagedKernel

variable {l : Layout} {kr r f g : Frame} {procs others : Finset Frame} {owed owed' : List Frame}
  {m : Machine} {n : Nat} {p : Permissions}

/-- one more reference to a frame that is no table is owed -/
theorem Sound.owe {mem mem' : Memory} (h : Sound l kr procs owed mem)
    (hsize : mem'.contents.size = mem.contents.size)
    (hmanages : ∀ g, mem'.manages g = mem.manages g)
    (hdata : ∀ r ∈ insert kr procs, ∀ t, mem.IsTable r t → mem'.data t = mem.data t)
    (hcount : ∀ g, mem'.count g = if g = f then mem.count f + 1 else mem.count g)
    (hf : mem.manages f = true ∧ ∀ r ∈ insert kr procs, ¬ mem.IsTable r f) :
    Sound l kr procs (f :: owed) mem' := by
  refine h.update hsize hmanages hdata (fun g => ?_) fun g hg => ?_
  · rw [hcount]
    by_cases hgf : g = f
    · subst hgf
      rw [if_pos rfl, List.count_cons_self]
      omega
    · rw [if_neg hgf, List.count_cons_of_ne (Ne.symm hgf)]
  · rcases List.mem_cons.1 hg with rfl | hg
    · exact hf
    · exact (h.of_owed hg).2

namespace Claimed

variable {mem mem' : Memory}

theorem sound (h : Claimed mem f mem') (hs : Sound l kr procs owed mem) :
    Sound l kr procs (f :: owed) mem' := by
  have hnot : ∀ r ∈ insert kr procs, ¬ mem.IsTable r f := by
    intro r hr ht
    have := hs.forest.counted r hr f ht
    rw [h.free] at this
    exact absurd this Nat.zero_ne_one
  refine hs.owe h.size h.manages (fun r hr t ht => ?_) (fun g => ?_) ⟨h.managed, hnot⟩
  · apply h.data
    rintro rfl
    exact hnot r hr ht
  · rw [h.count, h.free]

theorem keeps (h : Claimed mem f mem') (hs : Sound l kr procs owed mem) (hsub : others ⊆ procs) :
    Keeps l kr others mem mem' :=
  .of_held hs hsub fun _ hg => h.data_of_count hg

theorem pageAt (h : Claimed mem f mem') (hs : Sound l kr procs owed mem)
    (hr : r ∈ insert kr procs) (n : Nat) : mem'.pageAt r n = mem.pageAt r n :=
  (h.keeps hs (Finset.Subset.refl procs)).pageAt hr n

theorem missing (h : Claimed mem f mem') (hs : Sound l kr procs owed mem)
    (hr : r ∈ insert kr procs) (n : Nat) :
    mem'.missing r (pagePath n) = mem.missing r (pagePath n) :=
  Memory.missing_congr ((h.keeps hs (Finset.Subset.refl procs)).tables r hr) Memory.tableAt_nil
    (Nat.le_refl 3)

end Claimed

theorem count_toList (x : Option Frame) (g : Frame) :
    x.toList.count g = if x = some g then 1 else 0 := by
  cases x with
  | none => rw [Option.toList_none, List.count_nil, if_neg (Option.some_ne_none g).symm]
  | some f =>
    rw [Option.toList_some, List.count_singleton]
    simp only [beq_iff_eq, Option.some_inj]

/-! ## references -/

theorem Sound.size_le (h : Sound l kr procs owed m.toMemory) : m.contents.size ≤ 2 ^ 52 :=
  Nat.le_trans h.forest.size_le (Nat.pow_le_pow_right (by decide) (by decide))

/-- a reference that is owed can be given up -/
theorem Sound.ends_release (h : Sound l kr procs (f :: owed) m.toMemory) :
    Ends (Machine.release f) m
      (fun _ m' => Sound l kr procs owed m'.toMemory ∧ m'.contents = m.contents ∧
        (∀ g, m'.count g = if g = f then m.count f - 1 else m.count g) ∧
        m'.freeCount = m.freeCount + if m.count f = 1 then 1 else 0) Never := by
  obtain ⟨hcount, hmanages, -⟩ := h.of_owed List.mem_cons_self
  have hin := Memory.hasFrame_of_manages hmanages
  rw [Machine.ends_release hmanages hcount (h.ne_zero hmanages)]
  have hnew (g : Frame) := Memory.count_setCount (g := g) hin (m.count f - 1)
  refine ⟨h.update rfl (fun g => Memory.manages_setCount _) (fun r hr t ht => rfl) (fun g => ?_)
    fun g hg => (h.of_owed (List.mem_cons_of_mem f hg)).2, rfl, hnew, ?_⟩
  · rw [hnew]
    by_cases hgf : g = f
    · subst hgf
      rw [if_pos rfl, List.count_cons_self]
      omega
    · rw [if_neg hgf, List.count_cons_of_ne (Ne.symm hgf)]
  · have hfree := Ledger.freeCount_setCount hmanages (m.count f - 1)
    have hlast : m.count f - 1 = 0 ↔ m.count f = 1 := by omega
    rw [if_neg (show m.ledger.count f ≠ 0 from hcount)] at hfree
    simp only [hlast] at hfree
    exact hfree

/-- one more reference to a frame that a process maps -/
theorem Sound.ends_retain (h : Sound l kr procs owed m.toMemory) (hr : r ∈ procs)
    (h₁ : l.firstPage ≤ n) (h₂ : n < l.endPage) (hpage : m.pageAt r n = some (f, p))
    (hmax : m.count f < Ledger.maxCount) :
    Ends (Machine.retain f) m
      (fun _ m' => Sound l kr procs (f :: owed) m'.toMemory ∧ m'.contents = m.contents ∧
        m'.freeCount = m.freeCount) Never := by
  obtain ⟨hcount, hmanages, hnot⟩ := h.of_page hr h₁ h₂ hpage
  have hin := Memory.hasFrame_of_manages hmanages
  rw [Machine.ends_retain hmanages hcount hmax]
  have hsound : Sound l kr procs (f :: owed) (m.setCount f (m.count f + 1)) :=
    h.owe rfl (fun _ => Memory.manages_setCount _) (fun _ _ _ _ => rfl)
      (fun _ => Memory.count_setCount hin _) ⟨hmanages, hnot⟩
  refine ⟨hsound, rfl, ?_⟩
  have hfree := Ledger.freeCount_setCount hmanages (m.count f + 1)
  rw [if_neg (show m.ledger.count f ≠ 0 from hcount), if_neg (Nat.succ_ne_zero _)] at hfree
  exact hfree

namespace AddressSpace

theorem ends_claimFrame (h : Sound l kr procs owed m.toMemory) :
    Ends claimFrame m
      (fun f m' => Claimed m.toMemory f m'.toMemory)
      (Fails fun e m' => e = .outOfMemory ∧ m'.toMemory = m.toMemory ∧ m.freeCount = 0) := by
  unfold claimFrame
  rw [ends_bind, ends_lift]
  refine Machine.ends_allocate h.size_le (fun f hc hm => ?_) fun hnone m' hm' => ?_
  · exact ends_orFail_some.2 (.of_claim hc hm)
  · exact ends_orFail_none.2 ⟨rfl, hm', hnone⟩

end AddressSpace

/-! ## mapping pages -/

/-- memory did not suffice for what the process of `r` was to get: it is sound, and the others have
what they had -/
structure RanOut (l : Layout) (kr : Frame) (procs : Finset Frame) (owed : List Frame) (r : Frame)
    (mem : Memory) (e : MemoryError) (mem' : Memory) : Prop where
  error : e = .outOfMemory
  sound : Sound l kr procs owed mem'
  keeps : Keeps l kr (procs.erase r) mem mem'

namespace RanOut

variable {mem mem₁ mem' : Memory} {e : MemoryError}

/-- nothing has been done -/
theorem refl (h : Sound l kr procs owed mem) : RanOut l kr procs owed r mem .outOfMemory mem :=
  ⟨rfl, h, .refl⟩

/-- the others had kept before what they had -/
theorem after (h : RanOut l kr procs owed r mem₁ e mem')
    (hkeeps : Keeps l kr (procs.erase r) mem mem₁) : RanOut l kr procs owed r mem e mem' :=
  ⟨h.error, h.sound, hkeeps.trans h.keeps⟩

/-- all frames that were free are tables of `r`, which has no page more -/
theorem of_exhausted {path : List TableIndex} {va : VirtualAddress} {e : MapError} {m' : Machine}
    (h : AddressSpace.Exhausted (insert kr procs) r r path va e m m')
    (hs : Sound l kr procs owed m.toMemory) (hr : r ∈ procs) :
    RanOut l kr procs owed r m.toMemory (.ofMap e) m'.toMemory :=
  ⟨rfl, hs.grown hr h.grown h.pages,
    .of_grown hs (Finset.erase_subset r procs) hr (Finset.notMem_erase r procs) h.grown⟩

end RanOut

/-- all free frames have become tables of `r` that page `n` lacked, which lacks more; then the
reference to `f` was given up -/
structure GivenUp (r : Frame) (n : Nat) (f : Frame) (mem mem' : Memory) : Prop where
  less : mem.freeCount < mem.missing r (pagePath n)
  missing : mem'.missing r (pagePath n) + mem.freeCount = mem.missing r (pagePath n)
  free : mem'.freeCount = if mem.count f = 1 then 1 else 0
  count : mem'.count f = mem.count f - 1
  counts : ∀ g, g ≠ f → mem'.count g = mem.count g ∨
    mem.count g = 0 ∧ mem'.count g = 1 ∧ mem'.IsTable r g
  full : mem.freeCount = 0 → ∀ g, g ≠ f → mem'.count g = mem.count g

namespace AddressSpace

variable {va : VirtualAddress}

/-- a page of a process takes the reference that was owed, and the one it had is owed; or memory ran
out and the reference is given up -/
theorem ends_mapOrRelease (va : VirtualAddress) (h : Sound l kr procs (f :: owed) m.toMemory)
    (hr : r ∈ procs)
    (h₁ : l.firstPage ≤ va.page.number.toNat) (h₂ : va.page.number.toNat < l.endPage)
    (hp : p = .userReadWrite ∨ p = .userReadOnly)
    (hfit : ∀ r' ∈ procs, ∀ n' p', l.firstPage ≤ n' → n' < l.endPage →
      m.pageAt r' n' = some (f, p') →
        r' = r ∧ n' = va.page.number.toNat ∨
          n' = va.page.number.toNat ∧ p'.writable = false ∧ p.writable = false) :
    Ends ((AddressSpace.mk r).mapOrRelease va f p) m
      (fun _ m' =>
        Sound l kr procs ((m.frameAt r va.page.number.toNat).toList ++ owed) m'.toMemory ∧
        Mapped (insert kr procs) r va.page.number.toNat (some (f, p)) m.toMemory m'.toMemory ∧
        m'.freeCount + m.missing r (pagePath va.page.number.toNat) = m.freeCount)
      (Fails fun e m' => RanOut l kr procs owed r m.toMemory e m'.toMemory ∧
        (∀ k, m'.pageAt r k = m.pageAt r k) ∧
        GivenUp r va.page.number.toNat f m.toMemory m'.toMemory) := by
  obtain ⟨hpres, hcore⟩ := Permissions.core_of_user hp
  obtain ⟨hcount, hmanages, -⟩ := h.of_owed List.mem_cons_self
  have hmap := ends_map va _ (f := f) h.forest (Sound.root_mem hr) (h.toNat_lt hmanages) hpres
  rw [hcore] at hmap
  unfold mapOrRelease
  refine (hmap.mono (fun _ m₁ h₁' => h₁') fun e m₁ he => he).onError ?_ |>.mono ?_ fun _ _ he => he
  · rintro e m₁ he
    have hout : RanOut l kr procs (f :: owed) r _ _ _ := .of_exhausted he h hr
    rw [ends_bind, ends_mapError]
    refine hout.sound.ends_release.mono (fun _ m₂ h₂' => ?_) fun _ _ hn => hn.elim
    obtain ⟨hsound₂, hcontents, hcounts, hfree⟩ := h₂'
    have hdata : ∀ g, m₂.data g = m₁.data g := Memory.data_congr hcontents
    have htables : ∀ t, m₁.IsTable r t → m₂.data t = m₁.data t := fun t _ => hdata t
    have hsame := he.grown.count_of_count hcount
    refine ends_fail.2 ⟨⟨rfl, hsound₂, hout.keeps.trans (.of_data hdata)⟩, fun k => ?_, he.less, ?_,
      ?_, ?_, fun g hg => ?_, fun hfull g hg => ?_⟩
    · rw [Memory.pageAt_congr htables, he.pages]
    · have hmissing : m₂.missing r (pagePath va.page.number.toNat)
          = m₁.missing r (pagePath va.page.number.toNat) :=
        Memory.missing_congr htables Memory.tableAt_nil (Nat.le_refl 3)
      rw [hmissing, he.missing]
    · rw [hfree, he.free, Nat.zero_add, hsame]
    · rw [hcounts, if_pos rfl, hsame]
    · rw [hcounts, if_neg hg, Memory.isTable_congr htables]
      exact he.grown.count_or (Sound.root_mem hr) g
    · rw [hcounts, if_neg hg, he.grown.count_of_full hfull]
  · rintro - m₁ ⟨hmapped, hfree⟩
    refine ⟨h.mapped hr h₁ h₂ hmapped hp hcount hfit fun g => ?_, hmapped, hfree⟩
    rw [List.count_append, List.count_cons, count_toList]
    simp only [beq_iff_eq, eq_comm (a := g)]
    omega

end AddressSpace

/-- page `n` of `r` was mapped to a frame that was free and holds `d` -/
def NewPage (roots : Finset Frame) (r : Frame) (n : Nat) (p : Permissions) (d : FrameData)
    (mem mem' : Memory) : Prop :=
  ∃ f mem₁, Claimed mem f mem₁ ∧ mem₁.data f = d ∧
    AddressSpace.Mapped roots r n (some (f, p)) mem₁ mem'

namespace NewPage

variable {mem mem' : Memory} {d : FrameData}

theorem keeps (h : NewPage (insert kr procs) r n p d mem mem') (hs : Sound l kr procs owed mem)
    (hr : r ∈ procs) : Keeps l kr (procs.erase r) mem mem' := by
  obtain ⟨f, mem₁, hclaimed, -, hmapped⟩ := h
  have hsub := Finset.erase_subset r procs
  exact (hclaimed.keeps hs hsub).trans
    (.of_grown (hclaimed.sound hs) hsub hr (Finset.notMem_erase r procs) hmapped.grown)

theorem data_of_count (h : NewPage (insert kr procs) r n p d mem mem')
    (hs : Sound l kr procs owed mem) (hr : r ∈ insert kr procs) (hg : mem.count g ≠ 0)
    (ht : ¬ mem.IsTable r g) : mem'.data g = mem.data g := by
  obtain ⟨f, mem₁, hclaimed, -, hmapped⟩ := h
  have hgf : g ≠ f := by
    rintro rfl
    exact hg hclaimed.free
  have htables := (hclaimed.keeps hs (Finset.Subset.refl procs)).tables r hr
  rw [hmapped.grown.data_of_count, hclaimed.data g hgf]
  · rw [Memory.isTable_congr htables]
    exact ht
  · rw [hclaimed.count, if_neg hgf]
    exact hg

theorem count_of_count {roots : Finset Frame} (h : NewPage roots r n p d mem mem')
    (hg : mem.count g ≠ 0) : mem'.count g = mem.count g := by
  obtain ⟨f, mem₁, hclaimed, -, hmapped⟩ := h
  have hgf : g ≠ f := by
    rintro rfl
    exact hg hclaimed.free
  have hsame : mem₁.count g = mem.count g := by rw [hclaimed.count, if_neg hgf]
  rw [hmapped.grown.count_of_count, hsame]
  rw [hsame]
  exact hg

theorem page (h : NewPage (insert kr procs) r n p d mem mem') (hs : Sound l kr procs owed mem)
    (hr : r ∈ insert kr procs) (hn : n < 2 ^ 36) :
    ∃ f, mem.count f = 0 ∧ mem.manages f = true ∧ mem'.count f = 1 ∧ mem'.data f = d ∧
      ∀ k < 2 ^ 36, mem'.pageAt r k = if k = n then some (f, p) else mem.pageAt r k := by
  obtain ⟨f, mem₁, hclaimed, hd, hmapped⟩ := h
  have hone : mem₁.count f = 1 := by rw [hclaimed.count, if_pos rfl]
  have hne : mem₁.count f ≠ 0 := by rw [hone]; exact Nat.one_ne_zero
  have hnot : ¬ mem₁.IsTable r f := (hclaimed.sound hs).of_owed List.mem_cons_self |>.2.2 r hr
  refine ⟨f, hclaimed.free, hclaimed.managed, ?_, ?_, fun k hk => ?_⟩
  · rw [hmapped.grown.count_of_count hne, hone]
  · rw [hmapped.grown.data_of_count hnot hne, hd]
  · rw [hmapped.page_of_lt hn hk, hclaimed.pageAt hs hr]

/-- where no table was lacking, the new frame is the only one with another count -/
theorem count_eq (h : NewPage (insert kr procs) r n p d mem mem') (hs : Sound l kr procs owed mem)
    (hr : r ∈ insert kr procs) (hmissing : mem.missing r (pagePath n) = 0)
    (hpage : mem'.pageAt r n = some (f, p)) (g : Frame) :
    mem'.count g = if g = f then 1 else mem.count g := by
  obtain ⟨f', mem₁, hclaimed, -, hmapped⟩ := h
  rw [hmapped.page, if_pos rfl] at hpage
  obtain ⟨rfl, -⟩ := Prod.mk.inj (Option.some.inj hpage)
  rw [Memory.count, hmapped.settled ((hclaimed.missing hs hr n).trans hmissing)]
  exact hclaimed.count g

end NewPage

/-- memory ran out before page `n` of `r` could be mapped to a new frame.  One free frame is left,
if there was any; the others have become tables of `r` that the page lacked, and no frame has
another count -/
structure Spent (r : Frame) (n : Nat) (mem mem' : Memory) : Prop where
  less : mem.freeCount < mem.missing r (pagePath n) + 1
  missing : mem'.missing r (pagePath n) + mem.freeCount
    = mem.missing r (pagePath n) + mem'.freeCount
  free : mem'.freeCount = min mem.freeCount 1
  counts : ∀ g, mem'.count g = mem.count g ∨
    mem.count g = 0 ∧ mem'.count g = 1 ∧ mem'.IsTable r g
  full : mem.freeCount ≤ 1 → ∀ g, mem'.count g = mem.count g

/-- no frame was free -/
theorem Spent.of_none {mem : Memory} (h : mem.freeCount = 0) : Spent r n mem mem where
  less := by omega
  missing := rfl
  free := by omega
  counts g := .inl rfl
  full _ _ := rfl

/-- the new frame is free again -/
theorem Claimed.spent {mem mem₁ mem' : Memory} (h : Claimed mem f mem₁)
    (hs : Sound l kr procs owed mem) (hr : r ∈ insert kr procs) (hup : GivenUp r n f mem₁ mem') :
    Spent r n mem mem' := by
  have hone : mem₁.count f = 1 := by rw [h.count, if_pos rfl]
  have hfree := hup.free
  have hless := hup.less
  have hmissing := hup.missing
  have hcost := h.freeCount
  rw [if_pos hone] at hfree
  rw [h.missing hs hr] at hless hmissing
  have hself : mem'.count f = mem.count f := by rw [hup.count, hone, h.free]
  have hother : ∀ g, g ≠ f → mem₁.count g = mem.count g := fun g hg => by rw [h.count, if_neg hg]
  refine ⟨by omega, by omega, by omega, fun g => ?_, fun hfull g => ?_⟩
  all_goals by_cases hg : g = f
  · exact .inl (hg ▸ hself)
  · rw [← hother g hg]
    exact hup.counts g hg
  · exact hg ▸ hself
  · rw [← hother g hg]
    exact hup.full (by omega) g hg

/-- a frame that was handed out is mapped to a page of a process -/
theorem Claimed.ends_mapOrRelease {mem : Memory} {d : FrameData} (va : VirtualAddress)
    (hs : Sound l kr procs owed mem)
    (hclaimed : Claimed mem f m.toMemory) (hd : m.data f = d) (hr : r ∈ procs)
    (h₁ : l.firstPage ≤ va.page.number.toNat) (h₂ : va.page.number.toNat < l.endPage)
    (hp : p = .userReadWrite ∨ p = .userReadOnly) :
    Ends ((AddressSpace.mk r).mapOrRelease va f p) m
      (fun _ m' =>
        Sound l kr procs ((mem.frameAt r va.page.number.toNat).toList ++ owed) m'.toMemory ∧
        NewPage (insert kr procs) r va.page.number.toNat p d mem m'.toMemory ∧
        m'.freeCount + (mem.missing r (pagePath va.page.number.toNat) + 1) = mem.freeCount)
      (Fails fun e m' => RanOut l kr procs owed r mem e m'.toMemory ∧
        (∀ k, m'.pageAt r k = mem.pageAt r k) ∧
        Spent r va.page.number.toNat mem m'.toMemory) := by
  have hsound := hclaimed.sound hs
  have hkeeps := hclaimed.keeps hs (Finset.erase_subset r procs)
  have hpage := fun k => hclaimed.pageAt hs (Sound.root_mem hr) k
  have hframe : m.frameAt r va.page.number.toNat = mem.frameAt r va.page.number.toNat := by
    rw [Memory.frameAt, Memory.frameAt, hpage]
  have hmap := AddressSpace.ends_mapOrRelease va hsound hr h₁ h₂ hp
    fun r' hr' n' p' h₁' h₂' hpage' => by
      rw [hclaimed.pageAt hs (Sound.root_mem hr')] at hpage'
      exact absurd hclaimed.free (hs.of_page hr' h₁' h₂' hpage').1
  have hmissing := hclaimed.missing hs (Sound.root_mem hr) va.page.number.toNat
  have hfree := hclaimed.freeCount
  rw [hframe] at hmap
  refine hmap.mono (fun _ m₁ h => ?_) (Fails.mono fun e m₁ h => ?_)
  · obtain ⟨hsound₁, hmapped, hused⟩ := h
    exact ⟨hsound₁, ⟨f, m.toMemory, hclaimed, hd, hmapped⟩, by omega⟩
  · obtain ⟨hout, hpages₁, hup⟩ := h
    exact ⟨hout.after hkeeps, fun k => (hpages₁ k).trans (hpage k),
      hclaimed.spent hs (Sound.root_mem hr) hup⟩

namespace AddressSpace

variable {va : VirtualAddress}

/-- a page of zeroes; the frame that was there is owed.  It costs the frame of the page, and the
tables that are lacking -/
theorem ends_mapClear (va : VirtualAddress) (h : Sound l kr procs owed m.toMemory) (hr : r ∈ procs)
    (h₁ : l.firstPage ≤ va.page.number.toNat) (h₂ : va.page.number.toNat < l.endPage)
    (hp : p = .userReadWrite ∨ p = .userReadOnly) :
    Ends ((AddressSpace.mk r).mapClear va p) m
      (fun _ m' =>
        Sound l kr procs ((m.frameAt r va.page.number.toNat).toList ++ owed) m'.toMemory ∧
        NewPage (insert kr procs) r va.page.number.toNat p .zero m.toMemory m'.toMemory ∧
        m'.freeCount + (m.missing r (pagePath va.page.number.toNat) + 1) = m.freeCount)
      (Fails fun e m' => RanOut l kr procs owed r m.toMemory e m'.toMemory ∧
        (∀ k, m'.pageAt r k = m.pageAt r k) ∧
        Spent r va.page.number.toNat m.toMemory m'.toMemory) := by
  unfold mapClear
  refine ends_bind.2 ((ends_claimFrame h).mono (fun f m₁ hclaimed => ?_)
    (Fails.mono fun e m₁ he => ?_))
  · rw [ends_bind, ends_lift, Machine.ends_clear hclaimed.hasFrame]
    have hd : (m₁.modifyFrame f.number.toNat fun _ => FrameData.zero).data f = .zero := by
      rw [Memory.data_modifyFrame hclaimed.hasFrame, if_pos rfl]
    exact (hclaimed.modify fun _ => .zero).ends_mapOrRelease va h hd hr h₁ h₂ hp
  · obtain ⟨rfl, hsame, hfull⟩ := he
    rw [hsame]
    exact ⟨.refl h, fun k => rfl, .of_none hfull⟩

/-! ## empty spaces -/

/-- an empty space, whose root is nobody else's; or no frame is free -/
theorem ends_allocate (h : Sound l kr procs owed m.toMemory) :
    Ends allocate m
      (fun space? m' =>
        match space? with
        | some space =>
          space.root ∉ procs ∧ Sound l kr (insert space.root procs) owed m'.toMemory ∧
            Keeps l kr procs m.toMemory m'.toMemory ∧ (∀ n, m'.pageAt space.root n = none) ∧
            m'.freeCount + 1 = m.freeCount ∧ KeepsReserved l m.toMemory m'.toMemory ∧
            ∀ i, m'.link? space.root i = none
        | none => m'.toMemory = m.toMemory ∧ m.freeCount = 0) Never := by
  refine (ends_allocateRoot h.size_le).mono (fun space? m' hm' => ?_) fun _ _ hn => hn
  cases space? with
  | none => exact hm'
  | some space =>
    obtain ⟨hclaimed, hempty⟩ := hm'
    have hone := hclaimed.count space.root
    rw [if_pos rfl] at hone
    obtain ⟨hnew, hsound, hpages⟩ := (hclaimed.sound h).adopt hone hempty
    exact ⟨hnew, hsound, hclaimed.keeps h (Finset.Subset.refl procs), hpages, hclaimed.freeCount,
      .of_claimed hclaimed h, fun i => Memory.link?_of_empty (hempty i)⟩

end AddressSpace

end PagedKernel
