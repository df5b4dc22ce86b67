import PagedKernel.Proofs.Process.Demand
import PagedKernel.Proofs.Process.Picture

/-!
# Loading a program

While the memory of a process is built, no other process maps any of it, so that what is written
into it is written nowhere else.

* `Fresh l kr procs r mem`        the process of `r` shares its memory with nobody
* `ProgramImage.Refusal`          why a program is not loaded
* `AddressSpace.ends_shareKernel` the kernel's part
* `AddressSpace.PageCovered`, `AddressSpace.Covered`   a page of a segment is mapped; some of them
* `AddressSpace.ends_loadSegment` a segment
* `AddressSpace.Loaded`           a program is in memory, as its segments say
* `AddressSpace.ends_load`        so it ends: memory stays sound, and others keep what they have
-/

namespace PagedKernel

variable {l : Layout} {kr r f g : Frame} {procs others : Finset Frame} {owed owed' : List Frame}
  {m : Machine} {mem mem' : Memory} {n : Nat} {p : Permissions} {ok : Frame → Prop}

/-! ## a process that shares nothing -/

/-- what the process of `r` maps counts one reference, so that nobody else maps it -/
def Alone (l : Layout) (r : Frame) (mem : Memory) : Prop :=
  ∀ n f p, l.firstPage ≤ n → n < l.endPage → mem.pageAt r n = some (f, p) → mem.count f = 1

/-- a page more, of a frame that nobody else maps -/
theorem Alone.of_page (h : Alone l r mem) (hend : l.endPage ≤ 2 ^ 36)
    (hpage : ∀ k < 2 ^ 36, mem'.pageAt r k = if k = n then some (f, p) else mem.pageAt r k)
    (hone : mem'.count f = 1) (hcount : ∀ g, mem.count g = 1 → mem'.count g = 1) :
    Alone l r mem' := by
  intro k g q hk hk' hx
  rw [hpage k (by omega)] at hx
  split at hx
  · obtain ⟨rfl, rfl⟩ := Prod.mk.inj (Option.some.inj hx)
    exact hone
  · exact hcount g (h k g q hk hk' hx)

/-- the process of `r` shares nothing, and has no stack yet -/
structure Fresh (l : Layout) (kr : Frame) (procs : Finset Frame) (r : Frame) (mem : Memory) :
    Prop where
  sound : Sound l kr procs [] mem
  alone : Alone l r mem
  stack : mem.pageAt r (l.endPage - 1) = none
  complete : ∀ n < l.firstPage, mem.pageAt r n = l.kernelPage n

namespace Fresh

theorem mapped (h : Fresh l kr procs r mem) (hs : Sound l kr procs [] mem')
    (hlast : n + 1 < l.endPage) (h₁ : l.firstPage ≤ n)
    (hpage : ∀ k < 2 ^ 36, mem'.pageAt r k = if k = n then some (f, p) else mem.pageAt r k)
    (hone : mem'.count f = 1) (hcount : ∀ g, mem.count g = 1 → mem'.count g = 1) :
    Fresh l kr procs r mem' := by
  have hend := h.sound.ordered.endPage_le
  refine ⟨hs, h.alone.of_page (by omega) hpage hone hcount, ?_, fun k hk => ?_⟩
  · rw [hpage _ (by omega), if_neg (by omega)]
    exact h.stack
  · rw [hpage k (by omega), if_neg (by omega)]
    exact h.complete k hk

/-- whatever is written into the memory of the process is written nowhere else -/
theorem touched (h : Fresh l kr procs r mem) (hr : r ∈ procs)
    (ht : Touched (fun f => ∃ n p, l.firstPage ≤ n ∧ n < l.endPage ∧ mem.pageAt r n = some (f, p))
      mem mem') :
    Fresh l kr procs r mem' ∧ Keeps l kr (procs.erase r) mem mem' ∧
      (∀ n, mem'.pageAt r n = mem.pageAt r n) ∧ ∀ wanted, Meets l r wanted mem mem' := by
  have hok : ∀ f, (∃ n p, l.firstPage ≤ n ∧ n < l.endPage ∧ mem.pageAt r n = some (f, p)) →
      ∀ r' ∈ insert kr procs, ¬ mem.IsTable r' f := by
    rintro f ⟨n, p, h₁, h₂, hpage⟩
    exact (h.sound.of_page hr h₁ h₂ hpage).2.2
  have htables : ∀ t, mem.IsTable r t → mem'.data t = mem.data t :=
    fun t htable => ht.data t fun hyes => hok t hyes r (Sound.root_mem hr) htable
  have hpage : ∀ n, mem'.pageAt r n = mem.pageAt r n := Memory.pageAt_congr htables
  have hfree : mem'.freeCount = mem.freeCount := by
    rw [Memory.freeCount, Memory.freeCount, ht.ledger]
  refine ⟨⟨h.sound.touched ht hok, fun n f p h₁ h₂ hx => ?_, ?_, fun n hn => ?_⟩, ?_, hpage,
    fun _ => .of_congr hfree hpage fun q hq => Memory.tableAt_congr htables hq⟩
  · rw [hpage] at hx
    rw [ht.count]
    exact h.alone n f p h₁ h₂ hx
  · rw [hpage]
    exact h.stack
  · rw [hpage]
    exact h.complete n hn
  · refine Sound.keeps_touched ht (Finset.erase_subset r procs) hok ?_
    rintro f ⟨n, p, h₁, h₂, hx⟩ r' hr' n' p' h₁' h₂' hx'
    have hone := h.alone n f p h₁ h₂ hx
    obtain ⟨rfl, -⟩ := h.sound.eq_of_count_one hr (Finset.mem_of_mem_erase hr') h₁ h₂ h₁' h₂' hx
      hx' hone
    exact Finset.notMem_erase r procs hr'

end Fresh

/-! ## segments -/

/-- the pages of a segment -/
def Segment.pages (s : Segment) : Finset Nat :=
  Finset.Ico s.va.page.number.toNat ((s.va.value.toNat + s.size.toNat + 4095) / 4096)

/-- the pages that the segments of a program lie in, each of them once -/
def ProgramImage.pages (image : ProgramImage) : Finset Nat :=
  image.segments.foldr (fun s pages => s.pages ∪ pages) ∅

/-- the pages of a program when it is loaded: those of its segments, and its stack -/
def ProgramImage.footprint (l : Layout) (image : ProgramImage) : Finset Nat :=
  insert (l.endPage - 1) image.pages

theorem Segment.mem_pages {s : Segment} : n ∈ s.pages ↔ s.covers n = true := by
  rw [Segment.pages, Finset.mem_Ico, Segment.covers_iff]

theorem ProgramImage.mem_pages {image : ProgramImage} :
    n ∈ image.pages ↔ ∃ s ∈ image.segments, n ∈ s.pages := by
  rw [ProgramImage.pages]
  induction image.segments with
  | nil => exact iff_of_false (Finset.notMem_empty n) nofun
  | cons s rest ih => rw [List.foldr_cons, Finset.mem_union, ih, List.exists_mem_cons_iff]

theorem ProgramImage.pages_subset {image : ProgramImage} {s : Segment} (hs : s ∈ image.segments) :
    s.pages ⊆ image.pages :=
  fun _ hn => mem_pages.2 ⟨s, hs, hn⟩

/-- the segments that fit lie below the stack -/
theorem ProgramImage.wanted_footprint {image : ProgramImage} (hl : l.Ordered)
    (h : ∀ s ∈ image.segments, s.InRange l) :
    Wanted l (image.footprint l) (image.footprint l) ∧ l.endPage - 1 ∉ image.pages := by
  have hfirst := hl.firstPage_lt
  have hpage : ∀ n ∈ image.pages, l.firstPage ≤ n ∧ n + 1 < l.endPage := by
    intro n hn
    obtain ⟨s, hs, hn⟩ := mem_pages.1 hn
    obtain ⟨hstart, hstop⟩ := (Segment.inRange_iff hl).1 (h s hs)
    rw [Segment.pages, Finset.mem_Ico] at hn
    omega
  refine ⟨⟨fun n hn => ?_, Finset.Subset.refl _⟩, fun hin => ?_⟩
  · rcases Finset.mem_insert.1 hn with rfl | hn
    · omega
    · have := hpage n hn
      omega
  · have := (hpage _ hin).2
    omega

/-- how many pages a segment lies in -/
def Segment.pageCount (s : Segment) : Nat :=
  (s.va.value.toNat + s.size.toNat + 4095) / 4096 - s.va.page.number.toNat

/-- a segment lies in the memory of a process, below its stack, and is as large as its data -/
def Segment.Fits (l : Layout) (s : Segment) : Prop :=
  AddressSpace.segmentStop? l s ≠ .ok none ∧ s.data.size ≤ s.size.toNat

/-- the pages that segments lie in, one segment after the other -/
def Segment.totalPages : List Segment → Nat
  | [] => 0
  | s :: rest => s.pageCount + totalPages rest

/-- the pages of all segments of a program -/
def ProgramImage.pageCount (image : ProgramImage) : Nat :=
  Segment.totalPages image.segments

/-- the frames that the memory of a program takes at most, its root apart: those of its pages and
its stack with three tables each, and the tables of the kernel's part -/
def ProgramImage.cost (l : Layout) (image : ProgramImage) : Nat :=
  tablesFor l.firstPage + 4 * image.pageCount + 4

/-- all segments of a program fit -/
def ProgramImage.Fits (l : Layout) (image : ProgramImage) : Prop :=
  ∀ s ∈ image.segments, s.Fits l

/-- why a program whose segments are as large as their data is not loaded: memory ran out, or there
is a segment, the first of these, that does not lie in the memory of a process -/
inductive ProgramImage.Refusal (l : Layout) (image : ProgramImage) : SetupError → Prop where
  | outOfMemory : Refusal l image (.memory .outOfMemory)
  | outOfRange {done rest : List Segment} {s : Segment} (h : image.segments = done ++ s :: rest)
      (hdone : ∀ s' ∈ done, s'.InRange l) (hs : ¬ s.InRange l) :
      Refusal l image (.segmentOutOfRange s.va)

/-- a program without segments takes seven frames besides its root, if the kernel's part of its
memory is small -/
theorem ProgramImage.cost_le_of_nil {image : ProgramImage} (hnil : image.segments = [])
    (hsmall : l.firstPage ≤ 512) : image.cost l ≤ 7 := by
  have hthree := tablesFor_le_three hsmall
  rw [cost, pageCount, hnil, Segment.totalPages]
  omega

theorem ProgramImage.fits_of_nil {image : ProgramImage} (hnil : image.segments = []) :
    image.Fits l := by
  intro s hs
  rw [hnil] at hs
  cases hs

namespace AddressSpace

variable {va : VirtualAddress}

/-- page `n` is mapped for a segment now, and all that was mapped still is -/
structure PageCovered (l : Layout) (kr : Frame) (procs : Finset Frame) (r : Frame) (s : Segment)
    (n : Nat) (mem mem' : Memory) : Prop where
  fresh : Fresh l kr procs r mem'
  keeps : Keeps l kr (procs.erase r) mem mem'
  mapped : ∀ k < 2 ^ 36, k = n ∨ mem.pageAt r k ≠ none → mem'.pageAt r k ≠ none
  cost : mem.freeCount ≤ mem'.freeCount + 4
  meets : ∀ wanted, Wanted l {n} wanted → Meets l r wanted mem mem'
  shows : Shows l r n (some (segmentView s (mem.viewAt r n))) mem mem'

namespace PageCovered

variable {s : Segment}

/-- all that was mapped still is, if only the page changed, whatever it is mapped to -/
theorem mapped_of_pages (hpages : ∀ k < 2 ^ 36, mem'.pageAt r k
      = if k = n then some (f, p) else mem.pageAt r k) :
    ∀ k < 2 ^ 36, k = n ∨ mem.pageAt r k ≠ none → mem'.pageAt r k ≠ none := by
  intro k hk hold
  rw [hpages k hk]
  split
  · exact Option.some_ne_none _
  · next hne => exact hold.resolve_left hne

/-- the page was not mapped, and has got a frame of zeroes -/
theorem of_newPage (h : Fresh l kr procs r mem) (hr : r ∈ procs) (h₁ : l.firstPage ≤ n)
    (h₂ : n + 1 < l.endPage) (hpage : mem.pageAt r n = none) (hs' : Sound l kr procs [] mem')
    (hnew : NewPage (insert kr procs) r n (segmentPermissions s) .zero mem mem')
    (hcost : mem'.freeCount + (mem.missing r (pagePath n) + 1) = mem.freeCount) :
    PageCovered l kr procs r s n mem mem' := by
  have hs := h.sound
  have hend := hs.ordered.endPage_le
  have hthree : mem.missing r (pagePath n) ≤ 3 := Memory.missing_le _ _ _
  obtain ⟨f, -, -, hone, -, hpages⟩ := hnew.page hs (Sound.root_mem hr) (by omega)
  refine ⟨h.mapped hs' h₂ h₁ hpages hone fun g hg => ?_, hnew.keeps hs hr,
    mapped_of_pages hpages, by omega, fun wanted hwanted => ?_, ?_⟩
  · rw [hnew.count_of_count (by rw [hg]; exact Nat.one_ne_zero), hg]
  · exact .of_new (hnew.added hs hr (by omega)) (by omega) (hwanted.lt hs.ordered)
      (hwanted.all (Finset.mem_singleton_self n)) hpage hcost
  · rw [Memory.viewAt_of_none hpage]
    exact hnew.shows hs hr (by omega)

/-- the page was mapped, and may be written now.  It is the only one of its frame. -/
theorem of_mapped (h : Fresh l kr procs r mem) (hr : r ∈ procs) (h₁ : l.firstPage ≤ n)
    (h₂ : n + 1 < l.endPage) (hpage : mem.pageAt r n = some (f, p))
    (hmore : (s.writable && !p.writable) = true)
    (hmapped : Mapped (insert kr procs) r n (some (f, .userReadWrite)) mem mem')
    (hcost : mem'.freeCount + mem.missing r (pagePath n) = mem.freeCount) :
    PageCovered l kr procs r s n mem mem' := by
  have hs := h.sound
  have hend := hs.ordered.endPage_le
  have hthree : mem.missing r (pagePath n) ≤ 3 := Memory.missing_le _ _ _
  have hone := h.alone _ f p h₁ (by omega) hpage
  have hcount : mem.count f ≠ 0 := by
    rw [hone]
    exact Nat.one_ne_zero
  have hs' : Sound l kr procs [] mem' := by
    refine hs.mapped hr h₁ (by omega) hmapped (.inl rfl) hcount ?_ fun g => ?_
    · intro r' hr' n' p' h₁' h₂' hpage'
      obtain ⟨rfl, rfl⟩ := hs.eq_of_count_one hr hr' h₁ (by omega) h₁' h₂' hpage hpage' hone
      exact .inl ⟨rfl, rfl⟩
    · rw [Memory.frameAt_of_pageAt hpage]
      simp only [Option.some_inj, eq_comm]
  have hcounts : ∀ g, mem.count g = 1 → mem'.count g = 1 := by
    intro g hg
    rw [hmapped.grown.count_of_count (by rw [hg]; exact Nat.one_ne_zero), hg]
  have hpages : ∀ k < 2 ^ 36, mem'.pageAt r k
      = if k = n then some (f, .userReadWrite) else mem.pageAt r k :=
    fun k hk => hmapped.page_of_lt (by omega) hk
  refine ⟨h.mapped hs' h₂ h₁ hpages (hcounts f hone) hcounts, .of_grown hs
    (Finset.erase_subset r procs) hr (Finset.notMem_erase r procs) hmapped.grown,
    mapped_of_pages hpages, by omega, fun wanted hwanted => ?_, ?_⟩
  · refine .of_old (hmapped.added (by omega)) (by omega) (hwanted.lt hs.ordered) (fun _ => ?_) hcost
    rw [hpage]
    exact Option.some_ne_none _
  rw [Memory.viewAt_of_pageAt hpage, segmentView, Option.elim_some, if_pos hmore]
  have hnotTable := (hs.of_page hr h₁ (by omega) hpage).2.2 r (Sound.root_mem hr)
  exact hmapped.shows hs hr (by omega) fun _ => ⟨hcount, hnotTable⟩

/-- the page was mapped, and allows what the segment needs -/
theorem of_enough (h : Fresh l kr procs r mem) (hpage : mem.pageAt r n = some (f, p))
    (henough : ¬ (s.writable && !p.writable) = true) : PageCovered l kr procs r s n mem mem := by
  refine ⟨h, .refl, fun k _ hold => ?_, Nat.le_add_right _ 4, fun _ _ => .refl, ?_⟩
  · rcases hold with rfl | hold
    · rw [hpage]
      exact Option.some_ne_none _
    · exact hold
  · have hview : some (segmentView s (mem.viewAt r n)) = mem.viewAt r n := by
      rw [Memory.viewAt_of_pageAt hpage, segmentView, Option.elim_some, if_neg henough]
    rw [hview]
    exact .refl

end PageCovered

/-- a page is mapped for a segment if four frames are free -/
theorem ends_mapSegmentPage (va : VirtualAddress) (h : Fresh l kr procs r m.toMemory)
    (hr : r ∈ procs) (s : Segment)
    (h₁ : l.firstPage ≤ va.page.number.toNat) (h₂ : va.page.number.toNat + 1 < l.endPage) :
    Ends ((AddressSpace.mk r).mapSegmentPage s va) m
      (fun _ m' => PageCovered l kr procs r s va.page.number.toNat m.toMemory m'.toMemory)
      (Fails fun e m' => RanOut l kr procs [] r m.toMemory e m'.toMemory ∧ m.freeCount < 4 ∧
        ∀ wanted, Wanted l {va.page.number.toNat} wanted →
          m.freeCount < m.demand l r wanted) := by
  have hs := h.sound
  have hlookup := hs.forest.lookup_eq (Sound.root_mem hr) va
  have hthree : m.missing r (pagePath va.page.number.toNat) ≤ 3 := Memory.missing_le _ _ _
  unfold mapSegmentPage
  rw [ends_bind, ends_lift, Machine.ends_inspect hlookup]
  cases hpage : m.pageAt r va.page.number.toNat with
  | none =>
    have hframe : m.frameAt r va.page.number.toNat = none := by
      rw [Memory.frameAt, hpage, Option.map_none]
    have hclear := ends_mapClear va hs hr h₁ (by omega) (segmentPermissions_cases s)
    rw [hframe] at hclear
    refine hclear.mono (fun _ m₁ hm₁ => ?_) (Fails.mono fun e m₁ hm₁ => ?_)
    · obtain ⟨hs₁, hnew, hcost⟩ := hm₁
      exact .of_newPage h hr h₁ h₂ hpage hs₁ hnew hcost
    · obtain ⟨hout, -, hspent⟩ := hm₁
      have hless := hspent.less
      refine ⟨hout, by omega, fun wanted hwanted => ?_⟩
      have hin := hwanted.all (Finset.mem_singleton_self _)
      have hlack := Memory.missing_lt_demand (hwanted.own _ hin).2 hin hpage
      omega
  | some x =>
    obtain ⟨f, q⟩ := x
    rw [Option.map_some]
    dsimp only
    refine ends_ite.2 ⟨fun hmore => ?_, fun henough => ends_pure.2 (.of_enough h hpage henough)⟩
    have hmap := ends_map va .userReadWrite hs.forest (Sound.root_mem hr)
      (Memory.pageAt_eq_some hpage).1 rfl
    refine (hmap.mapError fun e m₁ hm₁ => ?_).mono (fun _ m₁ hm₁ => ?_) fun _ _ he => he
    · have hless := hm₁.less
      rw [Memory.missing_of_pageAt hpage rfl] at hless
      exact absurd hless (Nat.not_lt_zero _)
    · obtain ⟨hmapped, hused⟩ := hm₁
      exact .of_mapped h hr h₁ h₂ hpage hmore hmapped hused

/-- a segment that is not refused lies in the memory of a process, below its stack -/
theorem segmentStop_cases (h : l.Ordered) (s : Segment) :
    ∃ stop?, segmentStop? l s = .ok stop? ∧ ∀ stop, stop? = some stop →
      s.InRange l ∧ stop.toNat = s.va.value.toNat + s.size.toNat := by
  obtain ⟨hstack, hvalue⟩ := h.userStackPage_eq
  have hvirtual := h.virtualSize_eq
  have hfirst := h.firstPage_lt
  unfold segmentStop?
  rw [hstack, ok_bind]
  by_cases hin : (decide (s.va.value.toNat + s.size.toNat < 0x10000000000000000)
      && decide (l.processStart ≤ s.va.value)) = true
  · rw [if_pos hin]
    refine ⟨_, rfl, fun stop hstop => ?_⟩
    rw [Bool.and_eq_true, decide_eq_true_eq, decide_eq_true_eq] at hin
    have hsum : (s.va.value + s.size).toNat = s.va.value.toNat + s.size.toNat := by
      rw [UInt64.toNat_add]
      exact Nat.mod_eq_of_lt hin.1
    split at hstop
    · next hle =>
      obtain rfl := Option.some.inj hstop
      rw [UInt64.le_iff_toNat_le, hvalue] at hle
      exact ⟨⟨hin.2, by omega⟩, hsum⟩
    · cases hstop
  · rw [if_neg hin]
    exact ⟨none, rfl, fun stop hstop => by cases hstop⟩

/-- a segment that lies in the memory of a process, below its stack, is not refused -/
theorem segmentStop_of_inRange {s : Segment} (h : l.Ordered) (hrange : s.InRange l) :
    ∃ stop, segmentStop? l s = .ok (some stop) := by
  obtain ⟨hstack, hvalue⟩ := h.userStackPage_eq
  obtain ⟨hstart, hstop⟩ := hrange
  have hend := h.endPage_le
  have hvirtual := h.virtualSize_eq
  have hsum : (s.va.value + s.size).toNat = s.va.value.toNat + s.size.toNat := by
    rw [UInt64.toNat_add]
    exact Nat.mod_eq_of_lt (by omega)
  have hin : (decide (s.va.value.toNat + s.size.toNat < 0x10000000000000000)
      && decide (l.processStart ≤ s.va.value)) = true := by
    rw [Bool.and_eq_true, decide_eq_true_eq, decide_eq_true_eq]
    exact ⟨by omega, hstart⟩
  have hle : s.va.value + s.size ≤ l.virtualSize - 4096 := by
    rw [UInt64.le_iff_toNat_le, hsum, hvalue]
    omega
  unfold segmentStop?
  rw [hstack, ok_bind, if_pos hin, ok_pure]
  exact ⟨_, congrArg Except.ok (if_pos hle)⟩

/-- the segments of a program that fits lie in the memory of a process, below its stack -/
theorem inRange_of_fits {image : ProgramImage} (h : l.Ordered) (hfits : image.Fits l) :
    ∀ s ∈ image.segments, s.InRange l := by
  intro s hs
  obtain ⟨stop?, hstop, hcases⟩ := segmentStop_cases h s
  cases stop? with
  | none => exact absurd hstop (hfits s hs).1
  | some stop => exact (hcases stop rfl).1

theorem alignUp_eq {x : UInt64} (hx : x.toNat + 4096 < 2 ^ 64) :
    ∃ last, Word.alignUp x 4096 = .ok last ∧ last.toNat = 4096 * ((x.toNat + 4095) / 4096) := by
  have hpower : Word.isPowerOfTwo 4096 = true := by decide
  have hbound : (x + 4096).toNat = x.toNat + 4096 := by
    rw [UInt64.toNat_add]
    simp only [UInt64.reduceToNat]
    omega
  have hone : (1 : UInt64) ≤ x + 4096 := by
    rw [UInt64.le_iff_toNat_le, hbound]
    simp only [UInt64.reduceToNat]
    omega
  have hlast : (x + 4096 - 1).toNat = x.toNat + 4095 := by
    rw [UInt64.toNat_sub_of_le _ _ hone, hbound]
    rfl
  have hmod : ((x + 4096 - 1) % 4096).toNat = (x.toNat + 4095) % 4096 := by
    rw [UInt64.toNat_mod, hlast]
    rfl
  refine ⟨x + 4096 - 1 - (x + 4096 - 1) % 4096, ?_, ?_⟩
  · unfold Word.alignUp
    rw [if_pos hpower, Word.add_of_lt (by simp only [UInt64.reduceToNat]; omega), ok_bind]
    rfl
  · rw [UInt64.toNat_sub_of_le, hmod, hlast]
    · omega
    · rw [UInt64.le_iff_toNat_le, hmod, hlast]
      exact Nat.mod_le _ _

/-- what the kernel writes from a page of the process on lies in the memory of the process -/
theorem runs_kernel (hs : Sound l kr procs owed mem) (hr : r ∈ procs) :
    Runs mem r .kernel (fun n => l.firstPage ≤ n ∧ n ≤ l.endPage)
      fun f => ∃ n p, l.firstPage ≤ n ∧ n < l.endPage ∧ mem.pageAt r n = some (f, p) := by
  have hend := hs.ordered.endPage_le
  rintro n f p ⟨hn, hn'⟩ hpage -
  have hlt : n < l.endPage := by
    rcases Nat.lt_or_eq_of_le hn' with hlt | rfl
    · exact hlt
    · rw [hs.high r hr _ (Nat.le_refl _) (by omega)] at hpage
      cases hpage
  exact ⟨by omega, ⟨by omega, hlt⟩, ⟨n, p, hn, hlt, hpage⟩,
    Memory.hasFrame_of_manages (hs.of_page hr hn hlt hpage).2.1⟩

/-- writing as the kernel from a page of the process on stays in the memory of the process.  It
fails at a page that is not mapped -/
theorem ends_kernelWrite (va : VirtualAddress) (h : Fresh l kr procs r m.toMemory)
    (hr : r ∈ procs) (bytes : ByteArray)
    (h₁ : l.firstPage ≤ va.page.number.toNat) (h₂ : va.page.number.toNat < l.endPage) :
    Ends ((AddressSpace.mk r).kernelWrite va bytes) m
      (fun _ m' => Fresh l kr procs r m'.toMemory ∧
        Keeps l kr (procs.erase r) m.toMemory m'.toMemory ∧
        (∀ n, m'.pageAt r n = m.pageAt r n) ∧ m'.freeCount = m.freeCount ∧
        (∀ wanted, Meets l r wanted m.toMemory m'.toMemory) ∧
        Stored m.toMemory r va bytes bytes.size m'.toMemory)
      (Fails fun _ m' => Fresh l kr procs r m'.toMemory ∧
        Keeps l kr (procs.erase r) m.toMemory m'.toMemory ∧
        ∃ i < bytes.size, m.pageAt r ((va.value.toNat + i) / 4096) = none) := by
  have hs := h.sound
  have hok : ∀ f, (∃ n p, l.firstPage ≤ n ∧ n < l.endPage ∧ m.pageAt r n = some (f, p)) →
      ∀ r' ∈ insert kr procs, ¬ m.IsTable r' f := by
    rintro f ⟨n, p, hn, hn', hpage⟩
    exact (hs.of_page hr hn hn' hpage).2.2
  have hwrite := ends_writeFrom va bytes hs.forest (Sound.root_mem hr)
    ((runs_kernel hs hr).within ⟨h₁, Nat.le_of_lt h₂⟩ bytes.size) hok 0 .refl .none .zero
    (Nat.zero_le _)
  refine hwrite.mono (fun _ m' hm' => ?_) (Fails.mono fun _ m' ht => ?_)
  · obtain ⟨⟨ht, hstored⟩, -⟩ := hm'
    obtain ⟨hfresh, hkeeps, hpages, hmeets⟩ := h.touched hr ht
    refine ⟨hfresh, hkeeps, hpages, ?_, hmeets, hstored⟩
    rw [Memory.freeCount, Memory.freeCount, ht.ledger]
  · obtain ⟨ht, _, hdenied, -⟩ := ht
    obtain ⟨i, hi, hrefused⟩ := hdenied.denied.refused
    obtain ⟨hfresh, hkeeps, -⟩ := h.touched hr ht
    refine ⟨hfresh, hkeeps, i, hi, Option.eq_none_iff_forall_ne_some.2 fun x hx => ?_⟩
    exact hrefused x.1 x.2 hx rfl

/-- of the pages of a segment those before page `n` are mapped -/
structure Covered (l : Layout) (kr : Frame) (procs : Finset Frame) (r : Frame) (s : Segment)
    (start : Memory) (n : Nat) (mem : Memory) : Prop where
  fresh : Fresh l kr procs r mem
  keeps : Keeps l kr (procs.erase r) start mem
  mapped : ∀ k, s.va.page.number.toNat ≤ k → k < n → mem.pageAt r k ≠ none
  cost : start.freeCount ≤ mem.freeCount + 4 * (n - s.va.page.number.toNat)
  meets : ∀ wanted, Wanted l s.pages wanted → Meets l r wanted start mem
  /-- these pages allow what the segment needs; no byte has been written yet -/
  picture : ∀ done, Pictured l r (Segment.allowed done) (Segment.shown done) start →
    Pictured l r (fun k => Segment.allowed (if k < n then done ++ [s] else done) k)
      (Segment.shown done) mem

namespace Covered

variable {start : Memory} {s : Segment}

theorem initial (h : Fresh l kr procs r mem) :
    Covered l kr procs r s mem s.va.page.number.toNat mem := by
  refine ⟨h, .refl, fun k hk hk' => absurd hk' (Nat.not_lt.2 hk), Nat.le_add_right _ _,
    fun _ _ => .refl, fun done hpic => hpic.congr (fun k _ _ => ?_) fun _ => rfl⟩
  split
  · next hlt =>
    exact Segment.allowed_append_of_not (mt Segment.covers_iff.1 fun h => absurd hlt (by omega))
  · rfl

/-- one more page of the segment -/
theorem step (h : Covered l kr procs r s start n mem) (hcovers : s.covers n = true)
    (h₁ : l.firstPage ≤ n) (h₂ : n < l.endPage) (hpage : PageCovered l kr procs r s n mem mem') :
    Covered l kr procs r s start (n + 1) mem' := by
  have hend := h.fresh.sound.ordered.endPage_le
  have hfirst := (Segment.covers_iff.1 hcovers).1
  have hless := h.cost
  have hcost := hpage.cost
  refine ⟨hpage.fresh, h.keeps.trans hpage.keeps, fun k hk hk' => ?_, by omega,
    fun wanted hwanted => (h.meets wanted hwanted).trans (hpage.meets wanted
      (hwanted.mono (Finset.singleton_subset_iff.2 (Segment.mem_pages.2 hcovers)))),
    fun done hold =>
      (h.picture done hold).mapped h₁ h₂ hpage.shows hcovers ?_ ?_ fun k hne => ?_⟩
  · refine hpage.mapped k (by omega) ?_
    rcases Nat.lt_succ_iff_lt_or_eq.1 hk' with hlt | rfl
    · exact .inr (h.mapped k hk hlt)
    · exact .inl rfl
  · rw [if_neg (Nat.lt_irrefl n)]
  · rw [if_pos (Nat.lt_succ_self n)]
  · have hiff : k < n + 1 ↔ k < n := by omega
    simp only [hiff]

/-- when all pages of a segment are mapped they allow what it needs -/
theorem picture_all {done : List Segment}
    (h : Covered l kr procs r s start ((s.va.value.toNat + s.size.toNat + 4095) / 4096) mem)
    (hold : Pictured l r (Segment.allowed done) (Segment.shown done) start) :
    Pictured l r (Segment.allowed (done ++ [s])) (Segment.shown done) mem := by
  refine (h.picture done hold).congr (fun k _ _ => ?_) fun _ => rfl
  split
  · rfl
  · next hge =>
    exact Segment.allowed_append_of_not (mt Segment.covers_iff.1 fun h => hge h.2)

end Covered

/-- the pages of a segment are mapped, if four frames are free for each of them -/
theorem ends_coverSegment (h : Fresh l kr procs r m.toMemory) (hr : r ∈ procs) {s : Segment}
    {last : UInt64} (hrange : s.InRange l)
    (hlast : last.toNat = 4096 * ((s.va.value.toNat + s.size.toNat + 4095) / 4096)) :
    Ends (s.va.forPages ⟨last⟩ fun va =>
        ((AddressSpace.mk r).mapSegmentPage s va).mapError SetupError.memory) m
      (fun _ m' => Covered l kr procs r s m.toMemory
        ((s.va.value.toNat + s.size.toNat + 4095) / 4096) m'.toMemory)
      (Fails fun e m' => e = .memory .outOfMemory ∧ Sound l kr procs [] m'.toMemory ∧
        Keeps l kr (procs.erase r) m.toMemory m'.toMemory ∧ m.freeCount < 4 * s.pageCount ∧
        ∀ wanted, Wanted l s.pages wanted →
          m.freeCount < m.demand l r wanted) := by
  have hl := h.sound.ordered
  have hend := hl.endPage_le
  obtain ⟨hstart, hstop⟩ := (Segment.inRange_iff hl).1 hrange
  have hpage := s.va.toNat_page
  refine Ends.forPages rfl hlast (by omega)
    (fun n (t : Machine) => Covered l kr procs r s m.toMemory n t.toMemory) (.initial h)
    fun n w t hn hn' hw _ ht => ?_
  have hcost := ht.cost
  have hcovers : s.covers n = true := Segment.covers_iff.2 ⟨hn, hn'⟩
  have hstep := ends_mapSegmentPage w ht.fresh hr s (by omega) (by omega)
  rw [hw] at hstep
  refine (hstep.mapError fun e t' he => ?_).mono (fun _ t' ht' => ?_) fun _ _ he => he
  · obtain ⟨⟨rfl, hs', hkeeps'⟩, hless, hshort⟩ := he
    refine ⟨rfl, hs', ht.keeps.trans hkeeps', ?_, fun wanted hwanted => ?_⟩
    · rw [Segment.pageCount]
      omega
    · exact (ht.meets wanted hwanted).less
        (hshort wanted (hwanted.mono (Finset.singleton_subset_iff.2 (Segment.mem_pages.2 hcovers))))
  · exact ht.step hcovers (by omega) (by omega) ht'

/-- a segment whose pages are mapped is filled with zeroes, and then with its data; this fails only
if there are more data than bytes -/
theorem ends_fillSegment {start : Memory} {s : Segment} {blank : ByteArray}
    (h : Covered l kr procs r s start ((s.va.value.toNat + s.size.toNat + 4095) / 4096) m.toMemory)
    (hr : r ∈ procs) (hrange : s.InRange l) (hsize : blank.size = s.size.toNat)
    (hzero : ∀ i (h : i < blank.size), blank[i] = 0) :
    Ends (do
        ((AddressSpace.mk r).kernelWrite s.va blank).mapError fun fault =>
          SetupError.unmapped fault.va
        ((AddressSpace.mk r).kernelWrite s.va s.data).mapError fun fault =>
          .unmapped fault.va : Attempt Machine SetupError Unit) m
      (fun _ m' => Fresh l kr procs r m'.toMemory ∧
        Keeps l kr (procs.erase r) start m'.toMemory ∧ m'.freeCount = m.freeCount ∧
        (∀ wanted, Meets l r wanted m.toMemory m'.toMemory) ∧
        (s.data.size ≤ s.size.toNat → ∀ done,
          Pictured l r (Segment.allowed done) (Segment.shown done) start →
          Pictured l r (Segment.allowed (done ++ [s])) (Segment.shown (done ++ [s])) m'.toMemory))
      (Fails fun _ m' => Sound l kr procs [] m'.toMemory ∧
        Keeps l kr (procs.erase r) start m'.toMemory ∧ ¬ s.data.size ≤ s.size.toNat) := by
  obtain ⟨h₁, hstop⟩ := (Segment.inRange_iff h.fresh.sound.ordered).1 hrange
  have hpage := s.va.toNat_page
  have h₂ : s.va.page.number.toNat < l.endPage := by omega
  -- the bytes of the segment lie in its pages, which are mapped
  have hin : ∀ i < s.size.toNat, m.pageAt r ((s.va.value.toNat + i) / 4096) ≠ none :=
    fun i hi => h.mapped _ (by omega) (by omega)
  rw [ends_bind]
  refine ((ends_kernelWrite s.va h.fresh hr blank h₁ h₂).mapError fun e t' he => ?_).mono
    (fun _ m₂ hm₂ => ?_) fun _ _ he => he
  · obtain ⟨-, -, i, hi, hnone⟩ := he
    exact absurd hnone (hin i (hsize ▸ hi))
  obtain ⟨hfresh₂, hkeeps₂, hpages₂, hfree₂, hmeets₂, hstored₂⟩ := hm₂
  have hkeeps₂ := h.keeps.trans hkeeps₂
  refine ((ends_kernelWrite s.va hfresh₂ hr s.data h₁ h₂).mapError fun e t' he => ?_).mono
    (fun _ m₃ hm₃ => ?_) fun _ _ he => he
  · obtain ⟨hfresh₃, hkeeps₃, i, hi, hnone⟩ := he
    rw [hpages₂] at hnone
    exact ⟨hfresh₃.sound, hkeeps₂.trans hkeeps₃,
      fun hfits => absurd hnone (hin i (Nat.lt_of_lt_of_le hi hfits))⟩
  · obtain ⟨hfresh₃, hkeeps₃, hpages₃, hfree₃, hmeets₃, hstored₃⟩ := hm₃
    exact ⟨hfresh₃, hkeeps₂.trans hkeeps₃, hfree₃.trans hfree₂,
      fun wanted => (hmeets₂ wanted).trans (hmeets₃ wanted), fun hfits done hold =>
      (h.picture_all hold).filled h.fresh.sound hfresh₂.sound hr hpages₂ hpages₃ hzero hsize
        hstored₂ hstored₃ hrange hfits⟩

/-- a segment that fits is loaded if there are four free frames for each of its pages, and then it
is seen after those that were loaded before -/
theorem ends_loadSegment (h : Fresh l kr procs r m.toMemory) (hr : r ∈ procs) (s : Segment) :
    Ends ((AddressSpace.mk r).loadSegment l s) m
      (fun _ m' => Fresh l kr procs r m'.toMemory ∧
        Keeps l kr (procs.erase r) m.toMemory m'.toMemory ∧
        m.freeCount ≤ m'.freeCount + 4 * s.pageCount ∧ s.InRange l ∧
        (∀ wanted, Wanted l s.pages wanted →
          Meets l r wanted m.toMemory m'.toMemory) ∧
        (s.data.size ≤ s.size.toNat → ∀ done,
          Pictured l r (Segment.allowed done) (Segment.shown done) m.toMemory →
          Pictured l r (Segment.allowed (done ++ [s])) (Segment.shown (done ++ [s])) m'.toMemory))
      (Fails fun e m' => Sound l kr procs [] m'.toMemory ∧
        Keeps l kr (procs.erase r) m.toMemory m'.toMemory ∧
        (s.Fits l → m.freeCount < 4 * s.pageCount ∧
          ∀ wanted, Wanted l s.pages wanted →
            m.freeCount < m.demand l r wanted) ∧
        (s.data.size ≤ s.size.toNat →
          e = .memory .outOfMemory ∨ ¬ s.InRange l ∧ e = .segmentOutOfRange s.va)) := by
  have hl := h.sound.ordered
  have hend := hl.endPage_le
  obtain ⟨stop?, hstop, hcases⟩ := segmentStop_cases hl s
  unfold loadSegment
  rw [ends_bind, ends_attemptExcept hstop, ends_bind]
  cases stop? with
  | none =>
    refine ends_orFail_none.2 ⟨h.sound, .refl, fun hfits => absurd hstop hfits.1,
      fun _ => .inr ⟨fun hin => ?_, rfl⟩⟩
    obtain ⟨stop, hsome⟩ := segmentStop_of_inRange hl hin
    cases hstop.symm.trans hsome
  | some stop =>
    obtain ⟨hrange, hsum⟩ := hcases stop rfl
    obtain ⟨-, hbound⟩ := (Segment.inRange_iff hl).1 hrange
    obtain ⟨last, halign, hlast⟩ := alignUp_eq (x := stop) (by omega)
    rw [hsum] at hlast
    rw [ends_orFail_some, ends_bind, ends_attemptExcept halign, ends_bind]
    refine (ends_coverSegment h hr hrange hlast).mono (fun _ m₁ hcovered => ?_)
      (Fails.mono fun e m₁ he => ?_)
    · have hcost := hcovered.cost
      rw [← Segment.pageCount] at hcost
      refine (ends_fillSegment hcovered hr hrange Array.size_replicate
        fun i _ => Array.getElem_replicate _).mono (fun _ m₂ hm₂ => ?_)
        (Fails.mono fun e m₂ he => ?_)
      · obtain ⟨hfresh, hkeeps, hfree, hmeets, hpic⟩ := hm₂
        exact ⟨hfresh, hkeeps, by omega, hrange,
          fun wanted hwanted => (hcovered.meets wanted hwanted).trans (hmeets wanted), hpic⟩
      · obtain ⟨hs₂, hkeeps, hmore⟩ := he
        exact ⟨hs₂, hkeeps, fun hfits => absurd hfits.2 hmore, fun hfits => absurd hfits hmore⟩
    · obtain ⟨rfl, hs₁, hkeeps, hless⟩ := he
      exact ⟨hs₁, hkeeps, fun _ => hless, fun _ => .inl rfl⟩

/-! ## the kernel's part and the stack -/

/-- of what the kernel maps, the first `n` pages are shared -/
structure Sharing (l : Layout) (kr : Frame) (procs : Finset Frame) (r : Frame) (start : Memory)
    (n : Nat) (mem : Memory) : Prop where
  sound : Sound l kr procs [] mem
  keeps : Keeps l kr (procs.erase r) start mem
  below : ∀ k < n, mem.pageAt r k = l.kernelPage k
  above : ∀ k, n ≤ k → k < 2 ^ 36 → mem.pageAt r k = none
  cost : start.freeCount ≤ mem.freeCount + tablesFor n
  meets : ∀ wanted, Wanted l ∅ wanted → Meets l r wanted start mem
  reserved : KeepsReserved l start mem

namespace Sharing

variable {start : Memory}

theorem skip (h : Sharing l kr procs r start n mem) (hn : n < 2 ^ 36)
    (hpage : l.kernelPage n = none) : Sharing l kr procs r start (n + 1) mem := by
  refine ⟨h.sound, h.keeps, fun k hk => ?_, fun k hk hk' => h.above k (by omega) hk',
    Nat.le_trans h.cost (Nat.add_le_add_left (tablesFor_mono (Nat.le_succ n)) _), h.meets,
    h.reserved⟩
  rcases Nat.lt_succ_iff_lt_or_eq.1 hk with hk | rfl
  · exact h.below k hk
  · rw [h.above k (Nat.le_refl k) hn, hpage]

/-- the tables that the next page lacks -/
theorem missing_le (h : Sharing l kr procs r start n mem) (hn : n < l.firstPage)
    (hpage : l.kernelPage n = some (f, p)) :
    mem.missing r (pagePath n) + tablesFor n ≤ tablesFor (n + 1) := by
  have hcount := h.sound.ordered.firstPage_le
  exact Memory.missing_add_le (Layout.pos_of_kernelPage hpage) fun k hk hlt =>
    ⟨_, (h.below k hlt).trans (if_pos ⟨hk, by omega⟩)⟩

theorem mapped (h : Sharing l kr procs r start n mem) (hr : r ∈ procs) (hn : n < l.firstPage)
    (hpage : l.kernelPage n = some (f, p))
    (hm : Mapped (insert kr procs) r n (some (f, p)) mem mem')
    (hused : mem'.freeCount + mem.missing r (pagePath n) = mem.freeCount) :
    Sharing l kr procs r start (n + 1) mem' := by
  have hl := h.sound.ordered
  have hfirst := hl.firstPage_lt
  have hend := hl.endPage_le
  have hpages : ∀ k < 2 ^ 36, mem'.pageAt r k = if k = n then some (f, p) else mem.pageAt r k :=
    fun k hk => hm.page_of_lt (by omega) hk
  refine ⟨h.sound.mapped_low hr hn hpage hm, h.keeps.trans (.of_grown h.sound
    (Finset.erase_subset r procs) hr (Finset.notMem_erase r procs) hm.grown), fun k hk => ?_,
    fun k hk hk' => ?_, ?_, fun wanted hwanted => (h.meets wanted hwanted).trans ?_,
    h.reserved.trans (.of_grown hm.grown h.sound (Sound.root_mem hr))⟩
  · rw [hpages k (by omega)]
    rcases Nat.lt_succ_iff_lt_or_eq.1 hk with hk | rfl
    · rw [if_neg (by omega)]
      exact h.below k hk
    · rw [if_pos rfl, hpage]
  · rw [hpages k hk', if_neg (by omega)]
    exact h.above k (by omega) hk'
  · have := h.cost
    have := h.missing_le hn hpage
    omega
  · refine .of_old (hm.added (by omega)) (by omega) (hwanted.lt hl) (fun hin => ?_) hused
    have := (hwanted.own n hin).1
    omega

/-- one more page of the kernel is shared, if there is memory for the tables that it lacks -/
theorem ends_map {w : VirtualAddress} (h : Sharing l kr procs r start n m.toMemory) (hr : r ∈ procs)
    (hn : n < l.firstPage) (hw : w.page.number.toNat = n) (hpage : l.kernelPage n = some (f, p)) :
    Ends (((AddressSpace.mk r).map w f p).mapError MemoryError.ofMap) m
      (fun _ m' => Sharing l kr procs r start (n + 1) m'.toMemory)
      (Fails fun e m' => RanOut l kr procs [] r start e m'.toMemory ∧
        start.freeCount < tablesFor l.firstPage ∧
        ∀ wanted, Wanted l ∅ wanted → start.freeCount < start.demand l r wanted) := by
  have hs := h.sound
  have hfirst := hs.ordered.firstPage_lt
  have hend := hs.ordered.endPage_le
  obtain ⟨hf, hcore, hpres⟩ := Memory.pageAt_eq_some ((hs.kernelPages n (by omega)).trans hpage)
  have hmap := AddressSpace.ends_map w p hs.forest (Sound.root_mem hr) hf hpres
  rw [hw, hcore] at hmap
  refine (hmap.mapError fun e m' he => ?_).mono (fun _ m' hm' => ?_) fun _ _ he => he
  · have hless := he.less
    have hcost := h.cost
    have hlacks := h.missing_le hn hpage
    have hall := tablesFor_mono (show n + 1 ≤ _ from hn)
    refine ⟨(RanOut.of_exhausted he hs hr).after h.keeps, by omega,
      fun wanted hwanted => (h.meets wanted hwanted).less ?_⟩
    exact Nat.lt_of_lt_of_le hless (Memory.missing_le_demand (by omega))
  · exact h.mapped hr hn hpage hm'.1 hm'.2

end Sharing

/-- what the kernel maps below the memory of a process is shared -/
theorem ends_shareKernel (hs : Sound l kr procs [] m.toMemory) (hr : r ∈ procs)
    (hnone : ∀ n, m.pageAt r n = none) :
    Ends ((AddressSpace.mk r).shareKernel (AddressSpace.mk kr) l) m
      (fun _ m' => Fresh l kr procs r m'.toMemory ∧
        Keeps l kr (procs.erase r) m.toMemory m'.toMemory ∧
        m.freeCount ≤ m'.freeCount + tablesFor l.firstPage ∧
        (∀ n, l.firstPage ≤ n → n < 2 ^ 36 → m'.pageAt r n = none) ∧
        KeepsReserved l m.toMemory m'.toMemory ∧
        ∀ wanted, Wanted l ∅ wanted → Meets l r wanted m.toMemory m'.toMemory)
      (Fails fun e m' => RanOut l kr procs [] r m.toMemory e m'.toMemory ∧
        m.freeCount < tablesFor l.firstPage ∧
        ∀ wanted, Wanted l ∅ wanted → m.freeCount < m.demand l r wanted) := by
  have hl := hs.ordered
  have hfirst := hl.firstPage_lt
  have hend := hl.endPage_le
  have hzero : (Address.mk 0 : VirtualAddress).page.number.toNat = 0 := rfl
  unfold shareKernel
  refine (Ends.forPages hzero (hl.processStart_eq : l.userStart.value.toNat = _) (Nat.zero_le _)
    (fun n (t : Machine) => Sharing l kr procs r m.toMemory n t.toMemory)
    ⟨hs, .refl, fun k hk => absurd hk (Nat.not_lt_zero k), fun k _ _ => hnone k,
      Nat.le_refl _, fun _ _ => .refl, .refl⟩ ?_).mono ?_ fun _ _ he => he
  · rintro n w t - hn hw - ht
    have hlookup := ht.sound.forest.lookup_eq Sound.kernel_mem w
    rw [hw, ht.sound.kernelPages n (by omega)] at hlookup
    rw [ends_bind, ends_lift, Machine.ends_inspect hlookup]
    cases hpage : l.kernelPage n with
    | none =>
      rw [Option.map_none]
      exact ends_pure.2 (ht.skip (by omega) hpage)
    | some x =>
      rw [Option.map_some]
      exact ht.ends_map hr hn hw hpage
  · intro _ m' hm'
    refine ⟨⟨hm'.sound, fun n f p h₁ h₂ hx => ?_, hm'.above _ (by omega) (by omega), hm'.below⟩,
      hm'.keeps, hm'.cost, hm'.above, hm'.reserved, hm'.meets⟩
    rw [hm'.above n h₁ (by omega)] at hx
    cases hx

/-- the stack is a page of zeroes like any other -/
theorem mapStack_eq {page : VirtualAddress} (h : l.userStackPage = .ok page)
    (space : AddressSpace) :
    (do
        let stack ← claimFrame.mapError SetupError.memory
        Machine.clear stack
        (space.mapOrRelease (← l.userStackPage) stack .userReadWrite).mapError .memory :
          Attempt Machine SetupError Unit)
      = (space.mapClear page .userReadWrite).mapError SetupError.memory := by
  rw [h, mapClear, Attempt.mapError_bind]
  simp only [Attempt.mapError_bind, Attempt.mapError_lift]
  rfl

/-- a process whose segments are loaded gets a page of stack -/
theorem ends_mapStack (h : Fresh l kr procs r m.toMemory) (hr : r ∈ procs) :
    Ends (do
        let stack ← claimFrame.mapError SetupError.memory
        Machine.clear stack
        ((AddressSpace.mk r).mapOrRelease (← l.userStackPage) stack .userReadWrite).mapError
          .memory : Attempt Machine SetupError Unit) m
      (fun _ m' => Sound l kr procs [] m'.toMemory ∧
        Keeps l kr (procs.erase r) m.toMemory m'.toMemory ∧
        Complete l r m'.toMemory ∧ m.freeCount ≤ m'.freeCount + 4 ∧
        Alone l r m'.toMemory ∧
        Shows l r (l.endPage - 1) (some (.userReadWrite, .zero)) m.toMemory m'.toMemory ∧
        ∀ wanted, Wanted l {l.endPage - 1} wanted → Meets l r wanted m.toMemory m'.toMemory)
      (Fails fun e m' => e = .memory .outOfMemory ∧ Sound l kr procs [] m'.toMemory ∧
        Keeps l kr (procs.erase r) m.toMemory m'.toMemory ∧ m.freeCount < 4 ∧
        ∀ wanted, Wanted l {l.endPage - 1} wanted → m.freeCount < m.demand l r wanted) := by
  have hs := h.sound
  have hl := hs.ordered
  have hfirst := hl.firstPage_lt
  have hend := hl.endPage_le
  obtain ⟨hstack, hvalue⟩ := hl.userStackPage_eq
  have hpage : (Address.mk (l.virtualSize - 4096) : VirtualAddress).page.number.toNat
      = l.endPage - 1 := by
    rw [Address.toNat_page, hvalue]
    omega
  have hlacks : ∀ wanted, Wanted l {l.endPage - 1} wanted →
      m.missing r (pagePath (l.endPage - 1)) < m.demand l r wanted := fun wanted hwanted =>
    Memory.missing_lt_demand (by omega) (hwanted.all (Finset.mem_singleton_self _)) h.stack
  have hframe : m.frameAt r (l.endPage - 1) = none := by
    rw [Memory.frameAt, h.stack, Option.map_none]
  have hthree : m.missing r (pagePath (l.endPage - 1)) ≤ 3 := Memory.missing_le _ _ _
  have hclear := ends_mapClear ⟨l.virtualSize - 4096⟩ (p := .userReadWrite) hs hr (by omega)
    (by omega) (.inl rfl)
  rw [hpage, hframe] at hclear
  rw [mapStack_eq hstack]
  refine (hclear.mapError fun e m₁ he => ?_).mono (fun _ m₁ hm₁ => ?_) fun _ _ he => he
  · obtain ⟨⟨rfl, hs₁, hkeeps₁⟩, -, hspent⟩ := he
    have hless := hspent.less
    refine ⟨rfl, hs₁, hkeeps₁, by omega, fun wanted hwanted => ?_⟩
    have := hlacks wanted hwanted
    omega
  · obtain ⟨hs₁, hnew, hcost⟩ := hm₁
    obtain ⟨f', -, -, hone, -, hpages⟩ := hnew.page hs (Sound.root_mem hr) (by omega)
    refine ⟨hs₁, hnew.keeps hs hr, ⟨fun n hn => ?_, ?_⟩, by omega,
      h.alone.of_page (by omega) hpages hone fun g hg => ?_,
      hnew.shows hs hr (by omega), fun wanted hwanted =>
        .of_new (hnew.added hs hr (by omega)) (by omega) (hwanted.lt hl)
          (hwanted.all (Finset.mem_singleton_self _)) h.stack hcost⟩
    · rw [hpages n (by omega), if_neg (by omega)]
      exact h.complete n hn
    · rw [hpages _ (by omega), if_pos rfl]
      exact Option.some_ne_none _
    · rw [hnew.count_of_count (by rw [hg]; exact Nat.one_ne_zero), hg]

/-- the process of `r` has the memory of a program that has just been loaded -/
structure Loaded (l : Layout) (r : Frame) (image : ProgramImage) (mem : Memory) : Prop where
  inRange : ∀ s ∈ image.segments, s.InRange l
  alone : Alone l r mem
  picture : image.WellFormed → Pictured l r (image.allowed l) image.shown mem

/-- a process that gets its stack sees the program that was loaded before -/
theorem Loaded.of_stack {image : ProgramImage} (h : Fresh l kr procs r mem)
    (hrange : ∀ s ∈ image.segments, s.InRange l) (halone : Alone l r mem')
    (hshows : Shows l r (l.endPage - 1) (some (.userReadWrite, .zero)) mem mem')
    (hpic : image.WellFormed →
      Pictured l r (Segment.allowed image.segments) (Segment.shown image.segments) mem) :
    Loaded l r image mem' := by
  have hfirst := h.sound.ordered.firstPage_lt
  refine ⟨hrange, halone, fun hwell => (hpic hwell).shows hshows (if_pos rfl)
    (fun k hne => if_neg hne) fun a ha => ?_⟩
  have hnone := (hpic hwell).permissions (l.endPage - 1) (by omega) (by omega)
  rw [Memory.viewAt_of_none h.stack, Option.map_none, ← ha] at hnone
  rw [Segment.shown_of_none hnone.symm]
  exact FrameData.byte_filled 0 (Nat.mod_lt _ (by decide))

/-- the segments of a program are loaded one after the other into a memory that is empty -/
theorem ends_loadSegments (h : Fresh l kr procs r m.toMemory) (hr : r ∈ procs)
    (hempty : ∀ n, l.firstPage ≤ n → n < l.endPage → m.pageAt r n = none) (image : ProgramImage) :
    Ends (image.segments.forM fun s => (AddressSpace.mk r).loadSegment l s) m
      (fun _ m' => Fresh l kr procs r m'.toMemory ∧
        Keeps l kr (procs.erase r) m.toMemory m'.toMemory ∧
        m.freeCount ≤ m'.freeCount + 4 * image.pageCount ∧
        (∀ s ∈ image.segments, s.InRange l) ∧
        (∀ wanted, Wanted l image.pages wanted → Meets l r wanted m.toMemory m'.toMemory) ∧
        (image.WellFormed → Pictured l r (Segment.allowed image.segments)
          (Segment.shown image.segments) m'.toMemory))
      (Fails fun e m' => Sound l kr procs [] m'.toMemory ∧
        Keeps l kr (procs.erase r) m.toMemory m'.toMemory ∧
        (image.Fits l → m.freeCount < 4 * image.pageCount ∧
          ∀ wanted, Wanted l image.pages wanted → m.freeCount < m.demand l r wanted) ∧
        (image.WellFormed → image.Refusal l e)) := by
  -- what is left of the segments is still to be paid for
  refine (Ends.forM (fun rest (t : Machine) => Fresh l kr procs r t.toMemory ∧
    Keeps l kr (procs.erase r) m.toMemory t.toMemory ∧
    m.freeCount + 4 * Segment.totalPages rest ≤ t.freeCount + 4 * image.pageCount ∧
    (∀ wanted, Wanted l image.pages wanted → Meets l r wanted m.toMemory t.toMemory) ∧
    ∃ done, done ++ rest = image.segments ∧ (∀ s ∈ done, s.InRange l) ∧ (image.WellFormed →
      Pictured l r (Segment.allowed done) (Segment.shown done) t.toMemory))
    (fun s rest t ht => ?_) image.segments
    ⟨h, .refl, Nat.le_refl _, fun _ _ => .refl, [], rfl, nofun, fun _ => .empty hempty⟩).mono
    (fun _ m' hm' => ?_) fun _ _ he => he
  · obtain ⟨hfresh, hkeeps, hcost, hmeets, done, happend, hrange, hpic⟩ := ht
    rw [Segment.totalPages] at hcost
    have hin : s ∈ image.segments := happend ▸ List.mem_append_right done List.mem_cons_self
    have hpages := ProgramImage.pages_subset hin
    refine (ends_loadSegment hfresh hr s).mono (fun _ t' ht' => ?_) (Fails.mono fun e t' he => ?_)
    · obtain ⟨hfresh', hkeeps', hcost', hrange', hmeets', hpic'⟩ := ht'
      refine ⟨hfresh', hkeeps.trans hkeeps', by omega, fun wanted hwanted =>
        (hmeets wanted hwanted).trans (hmeets' wanted (hwanted.mono hpages)), done ++ [s], ?_,
        fun s' hs' => ?_, fun hwell => hpic' (hwell s hin) done (hpic hwell)⟩
      · rw [List.append_assoc]
        exact happend
      · rcases List.mem_append.1 hs' with hs' | hs'
        · exact hrange s' hs'
        · rw [List.mem_singleton.1 hs']
          exact hrange'
    · obtain ⟨hs', hkeeps', hless, hwhy⟩ := he
      refine ⟨hs', hkeeps.trans hkeeps', fun hfits => ?_, fun hwell => ?_⟩
      · obtain ⟨hless, hshort⟩ := hless (hfits s hin)
        exact ⟨by omega, fun wanted hwanted =>
          (hmeets wanted hwanted).less (hshort wanted (hwanted.mono hpages))⟩
      · obtain rfl | ⟨hout, rfl⟩ := hwhy (hwell s hin)
        · exact .outOfMemory
        · exact .outOfRange happend.symm hrange hout
  · obtain ⟨hfresh, hkeeps, hcost, hmeets, done, happend, hrange, hpic⟩ := hm'
    rw [List.append_nil] at happend
    subst happend
    exact ⟨hfresh, hkeeps, hcost, hrange, hmeets, hpic⟩

/-- the memory of a program is built, if its segments fit and there is memory for it -/
theorem ends_load (hs : Sound l kr procs [] m.toMemory) (hr : r ∈ procs)
    (hnone : ∀ n, m.pageAt r n = none) (image : ProgramImage) :
    Ends ((AddressSpace.mk r).load (AddressSpace.mk kr) l image) m
      (fun _ m' => Sound l kr procs [] m'.toMemory ∧
        Keeps l kr (procs.erase r) m.toMemory m'.toMemory ∧
        Complete l r m'.toMemory ∧ m.freeCount ≤ m'.freeCount + image.cost l ∧
        Meets l r (image.footprint l) m.toMemory m'.toMemory ∧ Loaded l r image m'.toMemory)
      (Fails fun e m' => Sound l kr procs [] m'.toMemory ∧
        Keeps l kr (procs.erase r) m.toMemory m'.toMemory ∧
        (image.Fits l → m.freeCount < image.cost l ∧
          m.freeCount < m.demand l r (image.footprint l)) ∧
        (image.WellFormed → image.Refusal l e)) := by
  have hl := hs.ordered
  have hend := hl.endPage_le
  have hall : ∀ pages, pages ⊆ image.footprint l → (∀ s ∈ image.segments, s.InRange l) →
      Wanted l pages (image.footprint l) := fun pages hsub hrange =>
    (ProgramImage.wanted_footprint hl hrange).1.mono hsub
  have hpages : image.pages ⊆ image.footprint l := Finset.subset_insert _ _
  have hstack : {l.endPage - 1} ⊆ image.footprint l :=
    Finset.singleton_subset_iff.2 (Finset.mem_insert_self _ _)
  rw [ProgramImage.cost]
  unfold load
  rw [ends_bind]
  refine ((ends_shareKernel hs hr hnone).mapError fun e m₁ he => ?_).mono (fun _ m₁ hm₁ => ?_)
    fun _ _ he => he
  · obtain ⟨⟨rfl, hs₁, hkeeps₁⟩, hless, hshort⟩ := he
    exact ⟨hs₁, hkeeps₁, fun hfits => ⟨by omega, hshort _ (hall ∅ (Finset.empty_subset _)
      (inRange_of_fits hl hfits))⟩, fun _ => .outOfMemory⟩
  obtain ⟨hfresh₁, hkeeps₁, hcost₁, hnone₁, -, hmeets₁⟩ := hm₁
  rw [ends_bind]
  refine (ends_loadSegments hfresh₁ hr (fun n h₁ h₂ => hnone₁ n h₁ (by omega)) image).mono
    (fun _ m₂ hm₂ => ?_) (Fails.mono fun e m₂ he => ?_)
  · obtain ⟨hfresh₂, hkeeps₂, hcost₂, hrange, hmeets₂, hpic⟩ := hm₂
    have hkeeps₂ := hkeeps₁.trans hkeeps₂
    have hmeets₂ := (hmeets₁ _ (hall ∅ (Finset.empty_subset _) hrange)).trans
      (hmeets₂ _ (hall _ hpages hrange))
    have hstack := hall _ hstack hrange
    refine (ends_mapStack hfresh₂ hr).mono (fun _ m₃ hm₃ => ?_) (Fails.mono fun e m₃ he => ?_)
    · obtain ⟨hs₃, hkeeps₃, hcomplete, hcost₃, halone, hshows, hmeets₃⟩ := hm₃
      exact ⟨hs₃, hkeeps₂.trans hkeeps₃, hcomplete, by omega, hmeets₂.trans (hmeets₃ _ hstack),
        .of_stack hfresh₂ hrange halone hshows hpic⟩
    · obtain ⟨rfl, hs₃, hkeeps₃, hless, hshort⟩ := he
      exact ⟨hs₃, hkeeps₂.trans hkeeps₃, fun _ => ⟨by omega, hmeets₂.less (hshort _ hstack)⟩,
        fun _ => .outOfMemory⟩
  · obtain ⟨hs₂, hkeeps₂, hless, hwhy⟩ := he
    refine ⟨hs₂, hkeeps₁.trans hkeeps₂, fun hfits => ?_, hwhy⟩
    obtain ⟨hless, hshort⟩ := hless hfits
    have hrange := inRange_of_fits hl hfits
    exact ⟨by omega, (hmeets₁ _ (hall ∅ (Finset.empty_subset _) hrange)).less
      (hshort _ (hall _ hpages hrange))⟩

end AddressSpace

end PagedKernel
