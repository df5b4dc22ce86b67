import PagedKernel.Proofs.Paging.UserMemory
import PagedKernel.Proofs.Process.Demand
import PagedKernel.Proofs.Process.Views

/-!
# Copying and changing the memory of a process

* `AddressSpace.PageCopied`      a page has been copied, in one of three ways
* `AddressSpace.CopyRanOut`      memory did not suffice for that
* `AddressSpace.Copying`         the pages below some page have been copied
* `AddressSpace.ends_copyInto`   the memory of a process is copied into an empty space
* `AddressSpace.Replaced`        a page has got a new frame of zeroes
* `AddressSpace.ends_replace`    so it ends when one is asked for
* `AddressSpace.ends_copyTo`     a process writes

A page that cannot be written is shared by a copy, and stays a page that cannot be written.
-/

namespace PagedKernel

variable {l : Layout} {kr q r f g : Frame} {procs : Finset Frame} {owed : List Frame}
  {m : Machine} {mem mem' : Memory} {n : Nat} {p : Permissions}

namespace AddressSpace

variable {va : VirtualAddress}

/-! ## copying -/

theorem value_lt_processStart (h : l.Ordered) :
    va.value < l.processStart ↔ va.page.number.toNat < l.firstPage := by
  rw [UInt64.lt_iff_toNat_lt, h.processStart_eq, va.toNat_page]
  omega

/-- the frames that a copy of page `n` takes, tables apart -/
def copyFrames (l : Layout) (n : Nat) (p : Permissions) : Nat :=
  if l.firstPage ≤ n ∧ p.writable = true then 1 else 0

/-- what a target got when it got a copy of page `n`, which another process maps to `f` -/
structure PageCopied (l : Layout) (kr : Frame) (procs : Finset Frame) (r : Frame) (n : Nat)
    (f : Frame) (p : Permissions) (mem mem' : Memory) : Prop where
  sound : Sound l kr procs [] mem'
  keeps : Keeps l kr (procs.erase r) mem mem'
  added : PageAdded r n mem mem'
  low : n < l.firstPage → mem'.pageAt r n = l.kernelPage n
  shares : l.firstPage ≤ n → p.writable = false → mem'.pageAt r n = some (f, p)
  shows : Shows l r n (some (p, mem.data f)) mem mem'
  cost : mem'.freeCount + (mem.missing r (pagePath n) + copyFrames l n p) = mem.freeCount

/-- memory did not suffice for a copy of page `n` -/
structure CopyRanOut (l : Layout) (kr : Frame) (procs : Finset Frame) (r : Frame) (n : Nat)
    (p : Permissions) (mem : Memory) (e : MemoryError) (mem' : Memory) : Prop
    extends RanOut l kr procs [] r mem e mem' where
  less : mem.freeCount < mem.missing r (pagePath n) + copyFrames l n p

/-- the space of `r` shows in `mem'` what that of `q` showed in `mem`, and shares with it what
cannot be written -/
structure CopyOf (l : Layout) (q r : Frame) (mem mem' : Memory) : Prop where
  views : ∀ n, l.firstPage ≤ n → n < l.endPage → mem'.viewAt r n = mem.viewAt q n
  shares : ∀ n f p, l.firstPage ≤ n → n < l.endPage → mem.pageAt q n = some (f, p) →
    p.writable = false → mem'.pageAt r n = some (f, p)

theorem CopyOf.of_keeps {mem₀ : Memory} (h : CopyOf l q r mem mem')
    (hkeeps : Keeps l kr procs mem₀ mem) (hq : q ∈ procs) : CopyOf l q r mem₀ mem' where
  views n hn hn' := (h.views n hn hn').trans (hkeeps.viewAt hq hn hn')
  shares n f p hn hn' hpage hro :=
    h.shares n f p hn hn' ((hkeeps.pageAt (Finset.mem_insert_of_mem hq) n).trans hpage) hro

section

variable (hs : Sound l kr procs [] m.toMemory) (hr : r ∈ procs) (hq : q ∈ procs)
  (hpage : m.pageAt q va.page.number.toNat = some (f, p))

include hs hr hq hpage

/-- below the memory of the processes a copy maps what the kernel maps -/
theorem ends_copyPage_kernel (hlow : va.page.number.toNat < l.firstPage) :
    Ends ((AddressSpace.mk r).copyPage l ⟨va, f, p⟩) m
      (fun _ m' =>
        PageCopied l kr procs r va.page.number.toNat f p m.toMemory m'.toMemory)
      (Fails fun e m' =>
        CopyRanOut l kr procs r va.page.number.toNat p m.toMemory e m'.toMemory) := by
  have hl := hs.ordered
  have hfirst := hl.firstPage_lt
  have hend := hl.endPage_le
  have hsub := Finset.erase_subset r procs
  have hnot := Finset.notMem_erase r procs
  obtain ⟨hf, hcore, hpres⟩ := Memory.pageAt_eq_some hpage
  have hkernel := hs.low q hq _ hlow _ hpage
  have hmap := ends_map va p hs.forest (Sound.root_mem hr) hf hpres
  rw [hcore] at hmap
  have hnone : copyFrames l va.page.number.toNat p = 0 := if_neg fun h => Nat.not_lt.2 h.1 hlow
  unfold copyPage
  rw [if_pos ((value_lt_processStart hl).2 hlow)]
  refine (hmap.mapError fun e m₁ he => ?_).mono (fun _ m₁ hm₁ => ?_) fun _ _ he => he
  · exact ⟨.of_exhausted he hs hr, Nat.lt_add_right _ he.less⟩
  · obtain ⟨hmapped, hcost⟩ := hm₁
    have hpages := fun k (hk : k < 2 ^ 36) => hmapped.page_of_lt (by omega) hk
    have hself := hpages va.page.number.toNat (by omega)
    rw [if_pos rfl] at hself
    exact ⟨hs.mapped_low hr hlow hkernel hmapped, .of_grown hs hsub hr hnot hmapped.grown,
      hmapped.added (by omega), fun _ => hself.trans hkernel.symm, fun _ _ => hself,
      hmapped.shows hs hr (by omega) fun hhigh => absurd hlow (Nat.not_lt.2 hhigh),
      by rw [hnone, Nat.add_zero]; exact hcost⟩

/-- of a page that can be written a copy gets a frame of its own -/
theorem ends_copyPage_own (h₁ : l.firstPage ≤ va.page.number.toNat)
    (hn : va.page.number.toNat < l.endPage)
    (hempty : m.pageAt r va.page.number.toNat = none) (hw : p.writable = true) :
    Ends ((AddressSpace.mk r).copyPage l ⟨va, f, p⟩) m
      (fun _ m' =>
        PageCopied l kr procs r va.page.number.toNat f p m.toMemory m'.toMemory)
      (Fails fun e m' =>
        CopyRanOut l kr procs r va.page.number.toNat p m.toMemory e m'.toMemory) := by
  have hl := hs.ordered
  have hend := hl.endPage_le
  have hframe : m.frameAt r va.page.number.toNat = none := by
    rw [Memory.frameAt, hempty, Option.map_none]
  have hperms := hs.perms q hq _ f p h₁ hn hpage
  have hmanages := (hs.of_page hq h₁ hn hpage).2.1
  have hone : copyFrames l va.page.number.toNat p = 1 := if_pos ⟨h₁, hw⟩
  unfold copyPage
  rw [if_neg (mt (value_lt_processStart hl).1 (Nat.not_lt.2 h₁)), if_pos hw, ends_bind]
  refine (ends_claimFrame hs).mono (fun f' m₁ hclaimed => ?_) (Fails.mono fun e m₁ he => ?_)
  · have hin : m₁.hasFrame f = true := by
      rw [Memory.hasFrame_iff, hclaimed.size, ← Memory.hasFrame_iff]
      exact Memory.hasFrame_of_manages hmanages
    have hd : (m₁.modifyFrame f'.number.toNat fun _ => m₁.data f).data f' = m₁.data f := by
      rw [Memory.data_modifyFrame hclaimed.hasFrame, if_pos rfl]
    have hmap := (hclaimed.modify fun _ => m₁.data f).ends_mapOrRelease
      (m := { m₁ with toMemory := m₁.modifyFrame f'.number.toNat fun _ => m₁.data f })
      va hs hd hr h₁ hn hperms
    rw [hframe] at hmap
    rw [ends_bind, ends_lift, Machine.ends_copyFrame hin hclaimed.hasFrame]
    refine hmap.mono (fun _ m₂ hm₂ => ?_) (Fails.mono fun e m₂ he => ?_)
    · obtain ⟨hs₂, hnew, hcost⟩ := hm₂
      have hshows := hnew.shows hs hr (by omega)
      rw [hclaimed.data_of_count (hs.of_page hq h₁ hn hpage).1] at hshows
      refine ⟨hs₂, hnew.keeps hs hr, hnew.added hs hr (by omega), fun hyes => ?_, fun _ hro => ?_,
        hshows, by rw [hone]; exact hcost⟩
      · omega
      · rw [hw] at hro
        cases hro
    · exact ⟨he.1, by rw [hone]; exact he.2.2.less⟩
  · obtain ⟨rfl, hsame, hfull⟩ := he
    rw [hsame]
    exact ⟨.refl hs, by omega⟩

/-- a page that cannot be written is shared by a copy -/
theorem ends_copyPage_shared (hcard : procs.card < Ledger.maxCount)
    (h₁ : l.firstPage ≤ va.page.number.toNat) (hn : va.page.number.toNat < l.endPage)
    (hempty : m.pageAt r va.page.number.toNat = none) (hro : p.writable = false) :
    Ends ((AddressSpace.mk r).copyPage l ⟨va, f, p⟩) m
      (fun _ m' =>
        PageCopied l kr procs r va.page.number.toNat f p m.toMemory m'.toMemory)
      (Fails fun e m' =>
        CopyRanOut l kr procs r va.page.number.toNat p m.toMemory e m'.toMemory) := by
  have hl := hs.ordered
  have hend := hl.endPage_le
  have hle := hs.count_le hq h₁ hn hpage
  rw [List.count_nil] at hle
  have hretain := hs.ends_retain hq h₁ hn hpage (by omega)
  have hnotWritable : ¬ p.writable = true := by
    rw [hro]
    exact Bool.false_ne_true
  have hnone : copyFrames l va.page.number.toNat p = 0 := if_neg fun h => hnotWritable h.2
  unfold copyPage
  rw [if_neg (mt (value_lt_processStart hl).1 (Nat.not_lt.2 h₁)), if_neg hnotWritable, ends_bind]
  refine (ends_mapError.2 ((hretain.mono (fun _ m₁ h => h) fun _ _ hn => hn.elim))).mono
    (fun _ m₁ hm₁ => ?_) fun _ _ he => he
  obtain ⟨hs₁, hcontents, hfree⟩ := hm₁
  have hmissing : m₁.missing r (pagePath va.page.number.toNat)
      = m.missing r (pagePath va.page.number.toNat) :=
    Memory.missing_congr (fun t _ => Memory.data_congr hcontents t) Memory.tableAt_nil
      (Nat.le_refl 3)
  have hpages₁ := Memory.pageAt_contents hcontents
  have hframe₁ : m₁.frameAt r va.page.number.toNat = none := by
    rw [Memory.frameAt, hpages₁, hempty, Option.map_none]
  have hmap := ends_mapOrRelease va hs₁ hr h₁ hn (hs.perms q hq _ f p h₁ hn hpage)
    fun r' hr' n' p' h₁' h₂' hpage' => by
      rw [hpages₁] at hpage'
      obtain ⟨rfl, hor⟩ := hs.shared_both hq hr' h₁ hn h₁' h₂' hpage hpage'
      refine .inr ⟨rfl, ?_, hro⟩
      rcases hor with rfl | ⟨-, hro'⟩
      · rw [hpage] at hpage'
        obtain ⟨-, rfl⟩ := Prod.mk.inj (Option.some.inj hpage')
        exact hro
      · exact hro'
  rw [hframe₁] at hmap
  have hkeeps : Keeps l kr (procs.erase r) m.toMemory m₁.toMemory :=
    .of_data (Memory.data_congr hcontents)
  refine hmap.mono (fun _ m₂ hm₂ => ?_) (Fails.mono fun e m₂ he => ?_)
  · obtain ⟨hs₂, hmapped, hcost⟩ := hm₂
    have hpages₂ := fun k (hk : k < 2 ^ 36) => hmapped.page_of_lt (by omega) hk
    obtain ⟨hcount₁, -, hnot₁⟩ := hs₁.of_page hq h₁ hn ((hpages₁ q _).trans hpage)
    have hshows := hmapped.shows hs₁ hr (by omega) fun _ => ⟨hcount₁, hnot₁ r (Sound.root_mem hr)⟩
    rw [Memory.data_congr hcontents] at hshows
    have hself := hpages₂ va.page.number.toNat (by omega)
    rw [if_pos rfl] at hself
    exact ⟨hs₂, hkeeps.trans (.of_grown hs₁ (Finset.erase_subset r procs) hr
      (Finset.notMem_erase r procs) hmapped.grown),
      (hmapped.added (by omega)).of_contents hcontents, fun hyes => absurd hyes (Nat.not_lt.2 h₁),
      fun _ _ => hself, hshows.of_contents hcontents, by rw [hnone]; omega⟩
  · obtain ⟨hout, -, hup⟩ := he
    have hless := hup.less
    exact ⟨hout.after hkeeps, by omega⟩

theorem ends_copyPage (hcard : procs.card < Ledger.maxCount)
    (hn : va.page.number.toNat < l.endPage)
    (hempty : m.pageAt r va.page.number.toNat = none) :
    Ends ((AddressSpace.mk r).copyPage l ⟨va, f, p⟩) m
      (fun _ m' =>
        PageCopied l kr procs r va.page.number.toNat f p m.toMemory m'.toMemory)
      (Fails fun e m' =>
        CopyRanOut l kr procs r va.page.number.toNat p m.toMemory e m'.toMemory) := by
  by_cases hlow : va.page.number.toNat < l.firstPage
  · exact ends_copyPage_kernel hs hr hq hpage hlow
  · have h₁ := Nat.le_of_not_lt hlow
    cases hw : p.writable with
    | true => exact ends_copyPage_own hs hr hq hpage h₁ hn hempty hw
    | false => exact ends_copyPage_shared hs hr hq hpage hcard h₁ hn hempty hw

end

/-- as many frames as a copy of the pages below `n` takes at most: those of the pages with three
tables each, and the tables of the kernel's part -/
def copyCost (l : Layout) (n : Nat) : Nat :=
  tablesFor (min n l.firstPage) + 4 * (n - l.firstPage)

theorem copyCost_mono {k : Nat} (h : n ≤ k) : copyCost l n ≤ copyCost l k := by
  have hmono := tablesFor_mono (show min n l.firstPage ≤ min k l.firstPage by omega)
  unfold copyCost
  omega

/-- the copy of one more page takes no more than what is allowed for it -/
theorem copyCost_succ (hs : Sound l kr procs [] mem) (hq : q ∈ procs)
    (hbelow : ∀ k < n, k < l.firstPage → mem.pageAt r k = l.kernelPage k)
    (hpage : mem.pageAt q n = some (f, p)) :
    mem.missing r (pagePath n) + copyFrames l n p + copyCost l n ≤ copyCost l (n + 1) := by
  have hle := hs.ordered.firstPage_le
  unfold copyCost
  by_cases hlow : n < l.firstPage
  · have hpos := Layout.pos_of_kernelPage (hs.low q hq n hlow _ hpage)
    have hlacks : mem.missing r (pagePath n) + tablesFor n ≤ tablesFor (n + 1) :=
      Memory.missing_add_le hpos fun k hk hlt =>
        ⟨_, (hbelow k hlt (by omega)).trans (if_pos ⟨hk, by omega⟩)⟩
    have hnone : copyFrames l n p = 0 := if_neg fun h => Nat.not_lt.2 h.1 hlow
    have hmin : min (n + 1) l.firstPage = n + 1 := Nat.min_eq_left hlow
    rw [hnone, hmin, Nat.min_eq_left (Nat.le_of_lt hlow)]
    omega
  · have hthree : mem.missing r (pagePath n) ≤ 3 := Memory.missing_le _ _ _
    have hone : copyFrames l n p ≤ 1 := by
      unfold copyFrames
      split <;> omega
    rw [Nat.min_eq_right (by omega), Nat.min_eq_right (by omega)]
    omega

/-- the pages of its own that the process of `r` can write -/
def writablePages (l : Layout) (r : Frame) (mem : Memory) : Finset Nat :=
  (Finset.Ico l.firstPage l.endPage).filter fun n =>
    (mem.pageAt r n).any (fun x => x.2.writable) = true

theorem mem_writablePages_iff (hn : n < l.endPage) (hpage : mem.pageAt r n = some (f, p)) :
    n ∈ writablePages l r mem ↔ l.firstPage ≤ n ∧ p.writable = true := by
  rw [writablePages, Finset.mem_filter, Finset.mem_Ico, hpage, Option.any_some]
  exact ⟨fun h => ⟨h.1.1, h.2⟩, fun h => ⟨⟨h.1, hn⟩, h.2⟩⟩

theorem lt_of_mem_writablePages (h : n ∈ writablePages l r mem) :
    l.firstPage ≤ n ∧ n < l.endPage := by
  rw [writablePages, Finset.mem_filter, Finset.mem_Ico] at h
  exact h.1

/-- of the pages of `q` those below `n` have been copied into the space of `r` -/
structure Copying (l : Layout) (kr : Frame) (procs : Finset Frame) (q r : Frame) (start : Memory)
    (n : Nat) (mem : Memory) : Prop where
  sound : Sound l kr procs [] mem
  keeps : Keeps l kr (procs.erase r) start mem
  below : ∀ k < n, k < l.firstPage → mem.pageAt r k = l.kernelPage k
  above : ∀ k, n ≤ k → k < 2 ^ 36 → mem.pageAt r k = none
  views : ∀ k < n, l.firstPage ≤ k → mem.viewAt r k = start.viewAt q k
  shares : ∀ k < n, l.firstPage ≤ k → ∀ f p, start.pageAt q k = some (f, p) →
    p.writable = false → mem.pageAt r k = some (f, p)
  reserved : KeepsReserved l start mem
  cost : start.freeCount ≤ mem.freeCount + copyCost l n
  meets : Meets l r (writablePages l q start) start mem

namespace Copying

variable {start : Memory}

theorem initial (hs : Sound l kr procs [] mem) (hnone : ∀ n, mem.pageAt r n = none) :
    Copying l kr procs q r mem 0 mem :=
  ⟨hs, .refl, fun k hk => absurd hk (Nat.not_lt_zero k), fun k _ _ => hnone k,
    fun k hk => absurd hk (Nat.not_lt_zero k), fun k hk => absurd hk (Nat.not_lt_zero k), .refl,
    Nat.le_add_right _ _, .refl⟩

/-- a page that is not mapped -/
theorem skip (h : Copying l kr procs q r start n mem) (hq : q ∈ procs.erase r)
    (hcomplete : Complete l q start) (hn : n < l.endPage) (hpage : mem.pageAt q n = none) :
    Copying l kr procs q r start (n + 1) mem := by
  have hend := h.sound.ordered.endPage_le
  have hcost := h.cost
  have hmore : copyCost l n ≤ copyCost l (n + 1) := copyCost_mono (Nat.le_succ _)
  have hself := h.above n (Nat.le_refl n) (by omega)
  have hstart : start.pageAt q n = none :=
    (h.keeps.pageAt (Finset.mem_insert_of_mem hq) n).symm.trans hpage
  refine ⟨h.sound, h.keeps, fun k hk hlow => ?_, fun k hk hk' => h.above k (by omega) hk',
    fun k hk hhigh => ?_, fun k hk hhigh f p hmap hro => ?_, h.reserved, by omega, h.meets⟩
  all_goals rcases Nat.lt_succ_iff_lt_or_eq.1 hk with hk | rfl
  · exact h.below k hk hlow
  · rw [hself, ← hcomplete.low _ hlow, hstart]
  · exact h.views k hk hhigh
  · rw [Memory.viewAt_of_none hself, Memory.viewAt_of_none hstart]
  · exact h.shares k hk hhigh f p hmap hro
  · cases hstart.symm.trans hmap

/-- the next page is one that is still needed -/
theorem needs (h : Copying l kr procs q r start n mem) (hn : n < l.endPage)
    (hstart : start.pageAt q n = some (f, p)) :
    mem.missing r (pagePath n) + copyFrames l n p ≤ mem.demand l r (writablePages l q start) := by
  have hend := h.sound.ordered.endPage_le
  have hnone := h.above n (Nat.le_refl n) (by omega)
  by_cases hin : l.firstPage ≤ n ∧ p.writable = true
  · rw [copyFrames, if_pos hin]
    exact Nat.succ_le_of_lt
      (Memory.missing_lt_demand hn ((mem_writablePages_iff hn hstart).2 hin) hnone)
  · rw [copyFrames, if_neg hin, Nat.add_zero]
    exact Memory.missing_le_demand hn

/-- what a copy of the next page takes was needed -/
theorem meets_copied (h : Copying l kr procs q r start n mem) (hn : n < l.endPage)
    (hstart : start.pageAt q n = some (f, p)) (hcopied : PageCopied l kr procs r n f p mem mem') :
    Meets l r (writablePages l q start) mem mem' := by
  have hend := h.sound.ordered.endPage_le
  have hnone := h.above n (Nat.le_refl n) (by omega)
  have hlt : ∀ k ∈ writablePages l q start, k < 2 ^ 36 := by
    intro k hk
    have := (lt_of_mem_writablePages hk).2
    omega
  have hcost := hcopied.cost
  by_cases hin : l.firstPage ≤ n ∧ p.writable = true
  · rw [copyFrames, if_pos hin] at hcost
    exact .of_new hcopied.added hn hlt ((mem_writablePages_iff hn hstart).2 hin) hnone hcost
  · rw [copyFrames, if_neg hin, Nat.add_zero] at hcost
    exact .of_old hcopied.added hn hlt
      (fun hin' => absurd ((mem_writablePages_iff hn hstart).1 hin') hin) hcost

/-- a page that was copied -/
theorem copied (h : Copying l kr procs q r start n mem) (hq : q ∈ procs.erase r)
    (hn : n < l.endPage) (hpage : mem.pageAt q n = some (f, p))
    (hcopied : PageCopied l kr procs r n f p mem mem') :
    Copying l kr procs q r start (n + 1) mem' := by
  have hend := h.sound.ordered.endPage_le
  have hcost := hcopied.cost
  have hless := h.cost
  have hmore := copyCost_succ h.sound (Finset.mem_of_mem_erase hq) h.below hpage
  have hstart : start.pageAt q n = some (f, p) :=
    (h.keeps.pageAt (Finset.mem_insert_of_mem hq) n).symm.trans hpage
  refine ⟨hcopied.sound, h.keeps.trans hcopied.keeps, fun k hk hlow => ?_, fun k hk hk' => ?_,
    fun k hk hhigh => ?_, fun k hk hhigh g q' hmap hro => ?_,
    h.reserved.trans hcopied.shows.reserved, by omega,
    h.meets.trans (h.meets_copied hn hstart hcopied)⟩
  · rcases Nat.lt_succ_iff_lt_or_eq.1 hk with hk | rfl
    · rw [hcopied.added.others k (by omega) (by omega)]
      exact h.below k hk hlow
    · exact hcopied.low hlow
  · rw [hcopied.added.others k hk' (by omega)]
    exact h.above k (by omega) hk'
  · rw [hcopied.shows.pages k hhigh (by omega)]
    rcases Nat.lt_succ_iff_lt_or_eq.1 hk with hk | rfl
    · rw [if_neg (Nat.ne_of_lt hk)]
      exact h.views k hk hhigh
    · rw [if_pos rfl, ← h.keeps.viewAt hq hhigh hn, Memory.viewAt_of_pageAt hpage]
  · rcases Nat.lt_succ_iff_lt_or_eq.1 hk with hk | rfl
    · rw [hcopied.added.others k (by omega) (Nat.ne_of_lt hk)]
      exact h.shares k hk hhigh g q' hmap hro
    · obtain ⟨rfl, rfl⟩ := Prod.mk.inj (Option.some.inj (hstart.symm.trans hmap))
      exact hcopied.shares hhigh hro

/-- when all pages have been copied, there is a copy of the process -/
theorem copyOf (h : Copying l kr procs q r start l.endPage mem) : CopyOf l q r start mem :=
  ⟨fun n h₁ h₂ => h.views n h₂ h₁, fun n f p h₁ h₂ => h.shares n h₂ h₁ f p⟩

theorem complete (h : Copying l kr procs q r start l.endPage mem)
    (hcomplete : Complete l q start) : Complete l r mem := by
  have hfirst := h.sound.ordered.firstPage_lt
  refine ⟨fun n hn => h.below n (by omega) hn, fun hnone => hcomplete.stack ?_⟩
  exact Memory.pageAt_of_viewAt_none
    ((h.views _ (by omega) (by omega)).symm.trans (Memory.viewAt_of_none hnone))

end Copying

/-- the memory of a process is copied into an empty space, which shows the same then -/
theorem ends_copyInto (hs : Sound l kr procs [] m.toMemory) (hr : r ∈ procs) (hq : q ∈ procs)
    (hne : q ≠ r) (hcard : procs.card < Ledger.maxCount) (hnone : ∀ n, m.pageAt r n = none)
    (hcomplete : Complete l q m.toMemory) :
    Ends ((AddressSpace.mk q).copyInto (AddressSpace.mk r) l) m
      (fun _ m' => Sound l kr procs [] m'.toMemory ∧
        Keeps l kr (procs.erase r) m.toMemory m'.toMemory ∧ Complete l r m'.toMemory ∧
        CopyOf l q r m.toMemory m'.toMemory ∧ KeepsReserved l m.toMemory m'.toMemory ∧
        Meets l r (writablePages l q m.toMemory) m.toMemory m'.toMemory)
      (Fails fun e m' => RanOut l kr procs [] r m.toMemory e m'.toMemory ∧
        m.freeCount < copyCost l l.endPage ∧
        m.freeCount < m.demand l r (writablePages l q m.toMemory)) := by
  have hl := hs.ordered
  have hend := hl.endPage_le
  have hzero : (Address.mk 0 : VirtualAddress).page.number.toNat = 0 := rfl
  have hother : q ∈ procs.erase r := Finset.mem_erase.2 ⟨hne, hq⟩
  unfold copyInto
  refine (Ends.forPages hzero (hl.virtualSize_eq : l.userEnd.value.toNat = _) (Nat.zero_le _)
    (fun n (t : Machine) => Copying l kr procs q r m.toMemory n t.toMemory)
    (.initial hs hnone) ?_).mono (fun _ m' h => ?_) fun _ _ he => he
  · rintro n w t - hn rfl - ht
    have hlookup := ht.sound.forest.lookup_eq (Sound.root_mem hq) w
    rw [ends_bind, ends_lift, Machine.ends_inspect hlookup]
    cases hpage : t.pageAt q w.page.number.toNat with
    | none =>
      rw [Option.map_none]
      exact ends_pure.2 (ht.skip hother hcomplete hn hpage)
    | some x =>
      obtain ⟨f, p⟩ := x
      have hcost := ht.cost
      have hlacks := copyCost_succ ht.sound hq ht.below hpage
      have hall : copyCost l (w.page.number.toNat + 1) ≤ copyCost l l.endPage := copyCost_mono hn
      rw [Option.map_some]
      refine (ends_copyPage ht.sound hr hq hpage hcard hn
        (ht.above _ (Nat.le_refl _) (by omega))).mono
        (fun _ t' ht' => ht.copied hother hn hpage ht') (Fails.mono fun e t' he => ?_)
      obtain ⟨hout, hless⟩ := he
      have hstart := (ht.keeps.pageAt (Finset.mem_insert_of_mem hother) _).symm.trans hpage
      exact ⟨hout.after ht.keeps, by omega,
        ht.meets.less (Nat.lt_of_lt_of_le hless (ht.needs hn hstart))⟩
  · exact ⟨h.sound, h.keeps, h.complete hcomplete, h.copyOf, h.reserved, h.meets⟩

/-! ## one page -/

/-- the frames that are free when page `n` of `r` is not mapped any more: its own, if it is the only
page of it -/
def freedBy (r : Frame) (n : Nat) (mem : Memory) : Nat :=
  (mem.frameAt r n).elim 0 fun f => if mem.count f = 1 then 1 else 0

/-- page `n` of the process of `r` has a new frame of zeroes, and the frame that it had before has
lost a reference -/
structure Replaced (l : Layout) (r : Frame) (n : Nat) (mem mem' : Memory) : Prop where
  page : ∃ f, mem.count f = 0 ∧ mem.manages f = true ∧
    mem'.pageAt r n = some (f, .userReadWrite) ∧
    (mem.missing r (pagePath n) = 0 → ∀ g, mem'.count g
      = if g = f then 1 else if mem.frameAt r n = some g then mem.count g - 1 else mem.count g)
  others : ∀ k < 2 ^ 36, k ≠ n → mem'.pageAt r k = mem.pageAt r k
  cost : mem'.freeCount + (mem.missing r (pagePath n) + 1) = mem.freeCount + freedBy r n mem
  shows : Shows l r n (some (.userReadWrite, .zero)) mem mem'

theorem Replaced.complete (h : Replaced l r n mem mem') (hl : l.Ordered) (hn : l.firstPage ≤ n)
    (hold : Complete l r mem) : Complete l r mem' := by
  have hend := hl.endPage_le
  have hfirst := hl.firstPage_lt
  obtain ⟨f, -, -, hpage, -⟩ := h.page
  refine ⟨fun k hk => ?_, ?_⟩
  · rw [h.others k (by omega) (by omega)]
    exact hold.low k hk
  · by_cases heq : l.endPage - 1 = n
    · rw [heq, hpage]
      exact Option.some_ne_none _
    · rw [h.others _ (by omega) heq]
      exact hold.stack

/-- a page gets a new frame of zeroes, and then the reference to its old frame is given up -/
theorem Replaced.of_newPage {m₁ : Memory}
    (h : NewPage (insert kr procs) r n .userReadWrite .zero mem m₁) (hs : Sound l kr procs [] mem)
    (hr : r ∈ procs) (hn : n < 2 ^ 36) (hcontents : mem'.contents = m₁.contents)
    (hcount : ∀ g, mem'.count g
      = if mem.frameAt r n = some g then m₁.count g - 1 else m₁.count g)
    (hheld : ∀ g, mem.frameAt r n = some g → mem.count g ≠ 0)
    (hcost : mem'.freeCount + (mem.missing r (pagePath n) + 1) = mem.freeCount + freedBy r n mem) :
    Replaced l r n mem mem' := by
  obtain ⟨f, hfree, hmanages, -, -, hpages⟩ := h.page hs (Sound.root_mem hr) hn
  have hself := hpages n hn
  rw [if_pos rfl] at hself
  have hsame := Memory.pageAt_contents hcontents r
  refine ⟨⟨f, hfree, hmanages, (hsame n).trans hself, fun hmissing g => ?_⟩, fun k hk hne => ?_,
    hcost, (h.shows hs hr hn).contents hcontents⟩
  · have hnew := h.count_eq hs (Sound.root_mem hr) hmissing hself g
    rw [hcount, hnew]
    by_cases hg : g = f
    · subst hg
      rw [if_neg fun hold => hheld g hold hfree, if_pos rfl, if_pos rfl]
    · simp only [if_neg hg]
  · rw [hsame, hpages k hk, if_neg hne]

/-- a page gets a new frame of zeroes, and the one that it had loses a reference -/
theorem ends_replace (va : VirtualAddress) (hs : Sound l kr procs [] m.toMemory) (hr : r ∈ procs)
    (h₁ : l.firstPage ≤ va.page.number.toNat) (h₂ : va.page.number.toNat < l.endPage) :
    Ends ((AddressSpace.mk r).replace va) m
      (fun _ m' => Sound l kr procs [] m'.toMemory ∧
        Keeps l kr (procs.erase r) m.toMemory m'.toMemory ∧
        Replaced l r va.page.number.toNat m.toMemory m'.toMemory)
      (Fails fun e m' => RanOut l kr procs [] r m.toMemory e m'.toMemory ∧
        (∀ k, m'.pageAt r k = m.pageAt r k) ∧
        Spent r va.page.number.toNat m.toMemory m'.toMemory) := by
  have hlookup := hs.forest.lookup_eq (Sound.root_mem hr) va
  have hend := hs.ordered.endPage_le
  unfold replace
  rw [ends_bind, ends_lift, Machine.ends_inspect hlookup, ends_bind]
  refine (ends_mapClear va (p := .userReadWrite) hs hr h₁ h₂ (.inl rfl)).mono
    (fun _ m₁ hm₁ => ?_) fun _ _ he => he
  obtain ⟨hs₁, hnew, hcost⟩ := hm₁
  have hkeeps := hnew.keeps hs hr
  cases hpage : m.pageAt r va.page.number.toNat with
  | none =>
    have hframe : m.frameAt r va.page.number.toNat = none := by
      rw [Memory.frameAt, hpage, Option.map_none]
    rw [hframe] at hs₁
    rw [Option.map_none]
    refine ends_pure.2 ⟨hs₁, hkeeps, .of_newPage hnew hs hr (by omega) rfl
      (fun g => ?_) (fun g hg => ?_) ?_⟩
    · rw [hframe, if_neg (Option.some_ne_none g).symm]
    · rw [hframe] at hg
      cases hg
    · rw [freedBy, hframe, Option.elim_none]
      exact hcost
  | some x =>
    obtain ⟨f, p⟩ := x
    have hframe := Memory.frameAt_of_pageAt hpage
    rw [hframe] at hs₁
    rw [Option.map_some]
    refine ends_mapError.2 (hs₁.ends_release.mono (fun _ m₂ hm₂ => ?_) fun _ _ hn => hn.elim)
    obtain ⟨hs₂, hcontents, hcount, hfree⟩ := hm₂
    have hheld := (hs.of_page hr h₁ h₂ hpage).1
    rw [hnew.count_of_count hheld] at hfree
    refine ⟨hs₂, hkeeps.trans (.of_data (Memory.data_congr hcontents)),
      .of_newPage hnew hs hr (by omega) hcontents (fun g => ?_) (fun g hg => ?_) ?_⟩
    · rw [hcount, hframe]
      by_cases hg : g = f
      · rw [hg, if_pos rfl, if_pos rfl]
      · rw [if_neg hg, if_neg fun heq => hg (Option.some.inj heq).symm]
    · obtain rfl := Option.some.inj (hframe.symm.trans hg)
      exact hheld
    · rw [freedBy, hframe, Option.elim_some]
      omega

/-- the frames that a process may write: those of its pages that can be written, and the console -/
def Writable (l : Layout) (r : Frame) (mem : Memory) (f : Frame) : Prop :=
  (∃ n p, l.firstPage ≤ n ∧ n < l.endPage ∧ mem.pageAt r n = some (f, p) ∧ p.writable = true) ∨
    f = Page.ofNumber (UInt64.ofNat l.consolePage)

/-- what the kernel maps is never handed out where processes may use it -/
theorem not_manages_console (hs : Sound l kr procs owed mem) :
    mem.manages (Page.ofNumber (UInt64.ofNat l.consolePage)) = false :=
  Except.ok.inj ((hs.managed l.consoleFrame).symm.trans hs.ordered.isAllocatable_console)

/-- what a process may use below its own memory is the console -/
theorem console_of_user (hs : Sound l kr procs owed mem) (hr : r ∈ procs) (hn : n < l.firstPage)
    (hpage : mem.pageAt r n = some (f, p)) (hu : p.user = true) :
    n = l.consolePage ∧ f = Page.ofNumber (UInt64.ofNat l.consolePage) := by
  have hkernel := hs.low r hr n hn _ hpage
  unfold Layout.kernelPage at hkernel
  split at hkernel
  · obtain ⟨rfl, rfl⟩ := Prod.mk.inj (Option.some.inj hkernel)
    unfold Layout.kernelPermissions at hu
    split at hu
    · cases hu
    · next hcase =>
      have : n = l.consolePage := by
        by_contra hne
        exact hcase ⟨hn, hne⟩
      exact ⟨this, by rw [this]⟩
  · cases hkernel

theorem hasFrame_of_page (hs : Sound l kr procs owed mem) (hr : r ∈ procs) (hn : n < 2 ^ 36)
    (hpage : mem.pageAt r n = some (f, p)) : mem.hasFrame f = true ∧ n < l.endPage := by
  have hlt : n < l.endPage := by
    by_contra hge
    rw [hs.high r hr n (Nat.le_of_not_lt hge) hn] at hpage
    cases hpage
  refine ⟨?_, hlt⟩
  by_cases hlow : n < l.firstPage
  · have hkernel := hs.low r hr n hlow _ hpage
    unfold Layout.kernelPage at hkernel
    split at hkernel
    · next hin =>
      obtain ⟨rfl, -⟩ := Prod.mk.inj (Option.some.inj hkernel)
      have := hs.ordered.frameCount_le
      rw [Memory.hasFrame_iff, hs.size, Page.toNat_ofNumber (by omega)]
      exact hin.2
    · cases hkernel
  · exact Memory.hasFrame_of_manages (hs.of_page hr (Nat.le_of_not_lt hlow) hlt hpage).2.1

/-- a process that accesses memory comes to pages of its own and to the console -/
theorem runs_process (hs : Sound l kr procs owed mem) (hr : r ∈ procs) (a : Access)
    (ha : a.user = true) :
    Runs mem r (.process a) (fun n => n < 2 ^ 52) fun f =>
      a.write = true → Writable l r mem f := by
  intro n f p hn hpage hgrant
  have hend := hs.ordered.endPage_le
  rw [← Memory.pageAt_mod] at hpage
  obtain ⟨hin, hlt⟩ := hasFrame_of_page hs hr (Nat.mod_lt _ (by decide)) hpage
  -- the page after the last of all is not reached, as the last is not mapped
  have hnext : n + 1 < 2 ^ 52 := by omega
  have hrefuse : AddressSpace.refuses p a = false := by
    rw [Memory.grants, Bool.not_eq_true'] at hgrant
    exact hgrant
  rw [AddressSpace.refuses, Bool.or_eq_false_iff, ha, Bool.true_and, Bool.not_eq_false'] at hrefuse
  refine ⟨hnext, hnext, fun hw => ?_, hin⟩
  rw [hw, Bool.true_and, Bool.not_eq_false'] at hrefuse
  by_cases hlow : n % 2 ^ 36 < l.firstPage
  · exact .inr (console_of_user hs hr hlow hpage hrefuse.1).2
  · exact .inl ⟨_, p, Nat.le_of_not_lt hlow, hlt, hpage, hrefuse.2⟩

theorem not_isTable_of_writable (hs : Sound l kr procs owed mem) (hr : r ∈ procs)
    (hf : Writable l r mem f) : ∀ r' ∈ insert kr procs, ¬ mem.IsTable r' f := by
  rcases hf with ⟨n, p, h₁, h₂, hpage, -⟩ | rfl
  · exact (hs.of_page hr h₁ h₂ hpage).2.2
  · intro r' hr' ht
    have hone := hs.forest.counted r' hr' _ ht
    have hmanages := hs.reserved _ (by rw [hone]; exact Nat.one_ne_zero)
    rw [not_manages_console hs] at hmanages
    cases hmanages

/-- a process writes into its own memory and the console, and into nothing that others hold -/
theorem ends_copyTo (hs : Sound l kr procs [] m.toMemory) (hr : r ∈ procs) (bytes : ByteArray) :
    Ends ((AddressSpace.mk r).copyTo va bytes) m
      (fun _ m' => Touched (Writable l r m.toMemory) m.toMemory m'.toMemory ∧
        Granted m.toMemory r (.process .userWrite) va bytes.size)
      (Fails fun fault m' => Touched (Writable l r m.toMemory) m.toMemory m'.toMemory ∧
        Denied m.toMemory r (.process .userWrite) va bytes.size fault) := by
  have hruns : Runs m.toMemory r (.process .userWrite) (fun n => n < 2 ^ 52)
      (Writable l r m.toMemory) := by
    intro n f p hn hpage hgrant
    obtain ⟨h₁, h₂, h₃, h₄⟩ := runs_process hs hr .userWrite rfl n f p hn hpage hgrant
    exact ⟨h₁, h₂, h₃ rfl, h₄⟩
  have hok := fun f hf => not_isTable_of_writable (f := f) hs hr hf
  have hvalue := va.value.toNat_lt
  have hinv : va.page.number.toNat < 2 ^ 52 := by
    rw [va.toNat_page]
    omega
  exact (ends_writeFrom va bytes hs.forest (Sound.root_mem hr) (hruns.within hinv bytes.size) hok 0
    .refl .none .zero (Nat.zero_le _)).mono (fun _ _ hm' => ⟨hm'.1.1, hm'.2⟩)
    (Fails.mono fun _ _ he => ⟨he.1, he.2.elim fun _ hi => hi.1.denied⟩)

theorem keeps_writable (hs : Sound l kr procs [] mem) (hr : r ∈ procs)
    (ht : Touched (Writable l r mem) mem mem') :
    Sound l kr procs [] mem' ∧ Keeps l kr (procs.erase r) mem mem' := by
  have hok := fun f hf => not_isTable_of_writable (f := f) hs hr hf
  refine ⟨hs.touched ht hok, Sound.keeps_touched ht (Finset.erase_subset r procs) hok ?_⟩
  rintro f (⟨n, p, h₁, h₂, hpage, hw⟩ | rfl) r' hr' n' p' h₁' h₂' hpage'
  · obtain ⟨hne, hr'⟩ := Finset.mem_erase.1 hr'
    obtain ⟨-, rfl | hro⟩ := hs.shared r hr r' hr' n n' f p p' h₁ h₂ h₁' h₂' hpage hpage'
    · exact hne rfl
    · rw [hw] at hro
      cases hro
  · have hmanages := (hs.of_page (Finset.mem_of_mem_erase hr') h₁' h₂' hpage').2.1
    rw [not_manages_console hs] at hmanages
    cases hmanages

end AddressSpace

end PagedKernel
