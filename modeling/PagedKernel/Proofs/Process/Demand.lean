import PagedKernel.Proofs.Paging.Lacking
import PagedKernel.Proofs.Process.Build

/-!
# The frames that a process still needs

What is taken from free memory while the memory of a process is built: the frames of the tables that
it lacks, and one for each page that is to have a frame of its own.  No step takes more than that,
and a step that fails could not have been the last.

* `PageAdded r n mem mem'`   page `n` of `r` is mapped, with the tables that it lacked
* `Memory.demand`            the frames that are needed until all pages are there
* `Layout.spaceFrames`       for an empty space they are these, its root among them
* `Wanted l pages wanted`    what is wanted of a process, some pages among it
* `Meets`                    what was taken is needed no more
-/

namespace PagedKernel

variable {l : Layout} {kr r f : Frame} {procs roots : Finset Frame} {owed : List Frame}
  {mem mem' mem'' : Memory} {n : Nat} {p : Permissions} {wanted : Finset Nat}

/-- page `n` of `r` is mapped, and has its tables; no other page and no other table of `r` has
changed -/
structure PageAdded (r : Frame) (n : Nat) (mem mem' : Memory) : Prop where
  page : mem'.pageAt r n ≠ none
  others : ∀ k < 2 ^ 36, k ≠ n → mem'.pageAt r k = mem.pageAt r k
  tables : ∀ q, q.length ≤ 3 → ¬ q <+: pagePath n → mem'.tableAt r q = mem.tableAt r q
  grown : ∀ q, q.length ≤ 3 → mem.tableAt r q ≠ none → mem'.tableAt r q ≠ none

theorem AddressSpace.Mapped.added {x : Frame × Permissions}
    (h : AddressSpace.Mapped roots r n (some x) mem mem') (hn : n < 2 ^ 36) :
    PageAdded r n mem mem' where
  page := by
    rw [h.page, if_pos rfl]
    exact Option.some_ne_none x
  others k hk hne := by rw [h.page_of_lt hn hk, if_neg hne]
  tables := h.tables
  grown q hq hsome := by
    obtain ⟨t, ht⟩ := Option.ne_none_iff_exists'.1 hsome
    rw [h.grown.path q t hq ht]
    exact Option.some_ne_none t

/-- a page that gets a new frame is added -/
theorem NewPage.added {d : FrameData} (h : NewPage (insert kr procs) r n p d mem mem')
    (hs : Sound l kr procs owed mem) (hr : r ∈ procs) (hn : n < 2 ^ 36) :
    PageAdded r n mem mem' := by
  obtain ⟨f, mem₁, hclaimed, -, hmapped⟩ := h
  have hroot : r ∈ insert kr procs := Sound.root_mem hr
  have hpages := hclaimed.pageAt hs hroot
  have htables : ∀ q, q.length ≤ 3 → mem₁.tableAt r q = mem.tableAt r q := fun q hq =>
    Memory.tableAt_congr ((hclaimed.keeps hs (Finset.Subset.refl procs)).tables r hroot) hq
  have hadded := hmapped.added hn
  refine ⟨hadded.page, fun k hk hne => (hadded.others k hk hne).trans (hpages k),
    fun q hq hnot => (hadded.tables q hq hnot).trans (htables q hq), fun q hq hsome => ?_⟩
  exact hadded.grown q hq (by rw [htables q hq]; exact hsome)

/-- the frames of the tables that lead to all pages of an address space, and those of some pages of
its own -/
def Layout.spaceFrames (l : Layout) (wanted : Finset Nat) : Nat :=
  1 + ((Finset.range l.endPage).biUnion pathsTo).card + wanted.card

namespace Memory

/-- the frames that are needed until the process of `r` has the tables of all its pages, and the
pages of `wanted` are mapped -/
def demand (mem : Memory) (l : Layout) (r : Frame) (wanted : Finset Nat) : Nat :=
  mem.lacking r (Finset.range l.endPage) + (wanted.filter fun n => mem.pageAt r n = none).card

theorem missing_le_demand (hn : n < l.endPage) :
    mem.missing r (pagePath n) ≤ mem.demand l r wanted :=
  Nat.le_trans (missing_le_lacking mem r (Finset.mem_range.2 hn)) (Nat.le_add_right _ _)

theorem missing_lt_demand (hn : n < l.endPage) (hwanted : n ∈ wanted)
    (hnone : mem.pageAt r n = none) :
    mem.missing r (pagePath n) < mem.demand l r wanted := by
  have hle := missing_le_lacking mem r (Finset.mem_range.2 hn)
  have hpos : 0 < (wanted.filter fun n => mem.pageAt r n = none).card :=
    Finset.card_pos.2 ⟨n, Finset.mem_filter.2 ⟨hwanted, hnone⟩⟩
  unfold demand
  omega

theorem demand_congr (hpages : ∀ n, mem'.pageAt r n = mem.pageAt r n)
    (htables : ∀ q, q.length ≤ 3 → mem'.tableAt r q = mem.tableAt r q) :
    mem'.demand l r wanted = mem.demand l r wanted := by
  simp only [demand, lacking_congr htables, hpages]

/-- an empty space needs all but its root -/
theorem demand_of_empty (hlinks : ∀ i, mem.link? r i = none)
    (hpages : ∀ n, mem.pageAt r n = none) :
    mem.demand l r wanted + 1 = l.spaceFrames wanted := by
  rw [demand, lacking_of_empty hlinks, Finset.filter_true_of_mem fun n _ => hpages n,
    Layout.spaceFrames]
  omega

theorem demand_eq_zero (htables : ∀ n < l.endPage, mem.missing r (pagePath n) = 0)
    (hpages : ∀ n ∈ wanted, mem.pageAt r n ≠ none) : mem.demand l r wanted = 0 := by
  rw [demand, lacking_eq_zero fun n hn => htables n (Finset.mem_range.1 hn),
    Finset.filter_false_of_mem hpages, Finset.card_empty]

end Memory

namespace PageAdded

/-- references that are counted before do not matter -/
theorem of_contents {mem₀ : Memory} (h : PageAdded r n mem mem')
    (hcontents : mem.contents = mem₀.contents) : PageAdded r n mem₀ mem' := by
  have hdata : ∀ t, mem₀.IsTable r t → mem.data t = mem₀.data t :=
    fun t _ => Memory.data_congr hcontents t
  have htables : ∀ q, q.length ≤ 3 → mem.tableAt r q = mem₀.tableAt r q :=
    fun q hq => Memory.tableAt_congr hdata hq
  refine ⟨h.page, fun k hk hne => (h.others k hk hne).trans (Memory.pageAt_congr hdata k),
    fun q hq hnot => (h.tables q hq hnot).trans (htables q hq), fun q hq hsome => ?_⟩
  exact h.grown q hq (by rw [htables q hq]; exact hsome)

/-- a page that had not been wanted, or was there, needed its tables only -/
theorem demand_old (h : PageAdded r n mem mem') (hn : n < l.endPage)
    (hwanted : ∀ k ∈ wanted, k < 2 ^ 36) (hold : n ∈ wanted → mem.pageAt r n ≠ none) :
    mem'.demand l r wanted + mem.missing r (pagePath n) = mem.demand l r wanted := by
  have hsame : (wanted.filter fun k => mem'.pageAt r k = none)
      = wanted.filter fun k => mem.pageAt r k = none := by
    refine Finset.filter_congr fun k hk => ?_
    by_cases hkn : k = n
    · subst hkn
      exact iff_of_false h.page (hold hk)
    · rw [h.others k (hwanted k hk) hkn]
  have := Memory.lacking_add (Finset.mem_range.2 hn) h.page h.tables h.grown
  unfold Memory.demand
  rw [hsame]
  omega

/-- a page that was wanted needed a frame as well -/
theorem demand_new (h : PageAdded r n mem mem') (hn : n < l.endPage)
    (hwanted : ∀ k ∈ wanted, k < 2 ^ 36) (hin : n ∈ wanted) (hnone : mem.pageAt r n = none) :
    mem'.demand l r wanted + (mem.missing r (pagePath n) + 1) = mem.demand l r wanted := by
  have hless : (wanted.filter fun k => mem'.pageAt r k = none)
      = (wanted.filter fun k => mem.pageAt r k = none).erase n := by
    ext k
    rw [Finset.mem_erase, Finset.mem_filter, Finset.mem_filter]
    constructor
    · rintro ⟨hk, hknone⟩
      have hkn : k ≠ n := fun heq => h.page (heq ▸ hknone)
      exact ⟨hkn, hk, (h.others k (hwanted k hk) hkn).symm.trans hknone⟩
    · rintro ⟨hkn, hk, hknone⟩
      exact ⟨hk, (h.others k (hwanted k hk) hkn).trans hknone⟩
  have hmem : n ∈ wanted.filter fun k => mem.pageAt r k = none :=
    Finset.mem_filter.2 ⟨hin, hnone⟩
  have hcard := Finset.card_erase_add_one hmem
  have := Memory.lacking_add (Finset.mem_range.2 hn) h.page h.tables h.grown
  unfold Memory.demand
  rw [hless]
  omega

end PageAdded

/-- `wanted` are pages of a process, all of `pages` among them -/
structure Wanted (l : Layout) (pages wanted : Finset Nat) : Prop where
  own : ∀ n ∈ wanted, l.firstPage ≤ n ∧ n < l.endPage
  all : pages ⊆ wanted

theorem Wanted.mono {pages pages' : Finset Nat} (h : Wanted l pages' wanted)
    (hsub : pages ⊆ pages') : Wanted l pages wanted :=
  ⟨h.own, hsub.trans h.all⟩

/-- all of them can be addressed -/
theorem Wanted.lt {pages : Finset Nat} (h : Wanted l pages wanted) (hl : l.Ordered) :
    ∀ n ∈ wanted, n < 2 ^ 36 := by
  intro n hn
  have := (h.own n hn).2
  have := hl.endPage_le
  omega

/-- the frames that were taken are those that the process of `r` needs no more -/
def Meets (l : Layout) (r : Frame) (wanted : Finset Nat) (mem mem' : Memory) : Prop :=
  mem'.freeCount + mem.demand l r wanted = mem.freeCount + mem'.demand l r wanted

namespace Meets

theorem refl : Meets l r wanted mem mem := rfl

theorem trans (h : Meets l r wanted mem mem') (h' : Meets l r wanted mem' mem'') :
    Meets l r wanted mem mem'' := by
  unfold Meets at *
  omega

/-- whoever does not find what is needed next did not have enough from the start -/
theorem less (h : Meets l r wanted mem mem')
    (hless : mem'.freeCount < mem'.demand l r wanted) :
    mem.freeCount < mem.demand l r wanted := by
  unfold Meets at h
  omega

theorem of_congr (hfree : mem'.freeCount = mem.freeCount)
    (hpages : ∀ n, mem'.pageAt r n = mem.pageAt r n)
    (htables : ∀ q, q.length ≤ 3 → mem'.tableAt r q = mem.tableAt r q) :
    Meets l r wanted mem mem' := by
  unfold Meets
  rw [Memory.demand_congr hpages htables, hfree]

/-- a page that was there, or that is not wanted, has got its tables -/
theorem of_old (h : PageAdded r n mem mem') (hn : n < l.endPage)
    (hwanted : ∀ k ∈ wanted, k < 2 ^ 36)
    (hold : n ∈ wanted → mem.pageAt r n ≠ none)
    (hcost : mem'.freeCount + mem.missing r (pagePath n) = mem.freeCount) :
    Meets l r wanted mem mem' := by
  have := h.demand_old hn hwanted hold
  unfold Meets
  omega

/-- a page that is wanted has got its tables and a frame -/
theorem of_new (h : PageAdded r n mem mem') (hn : n < l.endPage)
    (hwanted : ∀ k ∈ wanted, k < 2 ^ 36)
    (hin : n ∈ wanted) (hnone : mem.pageAt r n = none)
    (hcost : mem'.freeCount + (mem.missing r (pagePath n) + 1) = mem.freeCount) :
    Meets l r wanted mem mem' := by
  have := h.demand_new hn hwanted hin hnone
  unfold Meets
  omega

end Meets

end PagedKernel
