import PagedKernel.Proofs.Kernel.Pages

/-!
# What the life of a process costs

On the default machine all pages of a process hang below the same five tables.  A process takes
these and a frame for each page of its own, whatever operations it came from, and it is made if that
many frames are free.

* `Kernel.Costs`                      a computation takes so many frames, and fails for lack of them
* `Layout.spaceFrames_withPhysical`   an address space takes five tables, and its pages
* `Kernel.writable`                   the pages of its own that a process can write
* `Kernel.freedAt`                    the frames that are free once a page is not mapped any more
* `Kernel.Reachable.costs`            what it costs to load a program, to duplicate a process and to
  give it a page
-/

namespace PagedKernel

/-! ## the default machine -/

/-- all pages lead through one table of each kind, but for two of the last -/
theorem Layout.spaceFrames_withPhysical (size : UInt64) (wanted : Finset Nat) :
    (withPhysical size).spaceFrames wanted = 5 + wanted.card := by
  have hend : (withPhysical size).endPage = 768 :=
    show (0x300000 : UInt64).toNat / 4096 = 768 by decide
  rw [spaceFrames, hend, card_biUnion_pathsTo (by decide)]
  rfl

/-- a process that has all its tables and all pages of `wanted` needs nothing -/
theorem Complete.demand_eq_zero {size : UInt64} {r : Frame} {mem : Memory} {wanted : Finset Nat}
    (h : Complete (.withPhysical size) r mem) (hl : (Layout.withPhysical size).Ordered)
    (hpages : ∀ n ∈ wanted, mem.pageAt r n ≠ none) :
    mem.demand (.withPhysical size) r wanted = 0 := by
  have hfirst : (Layout.withPhysical size).firstPage = 256 := Layout.firstPage_sized
  refine Memory.demand_eq_zero (fun n hn => ?_) hpages
  by_cases hlow : n < 256
  · -- the kernel's part lies below the same tables as the first page of the process
    rw [pagePath_congr (n := n) (k := 256) (by omega)]
    exact h.missing_eq_zero hl (by omega) (hfirst ▸ hl.firstPage_lt)
  · exact h.missing_eq_zero hl (by omega) hn

namespace Kernel

variable {k k' k₀ : Kernel} {pid n : Nat} {s : AddressSpace} {va : VirtualAddress}
  {size : UInt64} {image : ProgramImage} {ε α : Type} {x : Attempt Kernel ε α} {cost freed : Nat}
  {short : ε}

/-- `x` takes `cost` frames, and gives `freed` back; it fails for lack of memory if there are not as
many, and only then -/
structure Costs (x : Attempt Kernel ε α) (k : Kernel) (cost freed : Nat) (short : ε) : Prop where
  enough : cost ≤ k.freeCount →
    ∃ a k', x k = .ok a k' ∧ k'.freeCount + cost = k.freeCount + freed
  short : k.freeCount < cost → ∃ k', x k = .error (.error short) k'

theorem Costs.of_ends (h : Ends x k
    (fun _ k' => cost ≤ k.freeCount ∧ k'.freeCount + cost = k.freeCount + freed)
    (Fails fun e _ => e = short ∧ k.freeCount < cost)) : Costs x k cost freed short := by
  constructor
  · intro hle
    have hends : Ends x k (fun _ k' => k'.freeCount + cost = k.freeCount + freed) Never := by
      refine h.mono (fun _ _ hk' => hk'.2) fun e k' he => ?_
      cases e with
      | panic e => exact he
      | error e => exact absurd he.2 (Nat.not_lt.2 hle)
    exact hends.exists_ok
  · intro hless
    have hends : Ends x k (fun _ _ => False) (Fails fun e _ => e = short ∧ k.freeCount < cost) :=
      h.mono (fun _ _ hk' => absurd hless (Nat.not_lt.2 hk'.1)) fun _ _ he => he
    obtain ⟨e, k', hx, he⟩ := hends.exists_error
    cases e with
    | panic e => exact he.elim
    | error e => exact ⟨k', he.1 ▸ hx⟩

/-! ## programs -/

/-- a program that is loaded has all it needs -/
theorem Loads.demand_eq_zero (h : Loads pid image k k') (hlayout : k.layout = .withPhysical size)
    (hwell : image.WellFormed) (hs : k'.processes.space? pid = some s) :
    k'.memory.demand k.layout s.root (image.footprint k.layout) = 0 := by
  obtain ⟨s', hadopts, hloaded⟩ := h.memory
  obtain rfl := Option.some.inj (hadopts.space.symm.trans hs)
  have hl := hadopts.before.sound.ordered
  have hcomplete := hadopts.after.complete pid (Finset.notMem_empty pid) s' hs
  rw [hadopts.layout] at hcomplete
  have hpages : ∀ n ∈ image.footprint k.layout, k'.memory.pageAt s'.root n ≠ none := by
    intro n hn hnone
    obtain ⟨h₁, h₂⟩ := (ProgramImage.wanted_footprint hl hloaded.inRange).1.own n hn
    have hallowed := (hloaded.picture hwell).permissions n h₁ h₂
    rw [Memory.viewAt_of_none hnone, Option.map_none, ProgramImage.allowed] at hallowed
    rcases Finset.mem_insert.1 hn with rfl | hn
    · rw [if_pos rfl] at hallowed
      cases hallowed
    · obtain ⟨sg, hsg, hn⟩ := ProgramImage.mem_pages.1 hn
      have hany : (image.segments.any fun s => s.covers n) = true :=
        List.any_eq_true.2 ⟨sg, hsg, Segment.mem_pages.1 hn⟩
      split at hallowed
      · cases hallowed
      · rw [Segment.allowed, if_pos hany] at hallowed
        cases hallowed
  rw [hlayout] at hcomplete hl hpages ⊢
  exact hcomplete.demand_eq_zero hl hpages

theorem Valid.setup_costs (h : k.Valid ∅) (hlayout : k.layout = .withPhysical size)
    (hpid : pid ≠ 0) (hslot : ∃ p, k.processes.get? pid = some p ∧ p.isVacant = true)
    (himage : ∀ s ∈ image.segments, s.InRange k.layout ∧ s.data.size ≤ s.size.toNat) :
    Costs (setup pid image) k (6 + image.pages.card) 0 (.memory .outOfMemory) := by
  have hl := h.sound.ordered
  have hwell : image.WellFormed := fun s hs => (himage s hs).2
  have hrange := fun s hs => (himage s hs).1
  have hfits : image.Fits k.layout := by
    intro s hs
    obtain ⟨stop, hstop⟩ := AddressSpace.segmentStop_of_inRange hl (hrange s hs)
    refine ⟨?_, hwell s hs⟩
    rw [hstop]
    nofun
  have hframes : k.layout.spaceFrames (image.footprint k.layout) = 6 + image.pages.card := by
    rw [hlayout, Layout.spaceFrames_withPhysical, ← hlayout, ProgramImage.footprint,
      Finset.card_insert_of_notMem (ProgramImage.wanted_footprint hl hrange).2]
    omega
  rw [← hframes]
  refine .of_ends ((ends_setup h image).mono (fun _ k' hk' => ?_) (Fails.mono fun e k' he => ?_))
  · obtain ⟨-, -, -, -, -, hloads⟩ := hk'
    obtain ⟨s, hadopts, -⟩ := hloads.memory
    have hcost := hloads.cost s hadopts.space
    rw [hloads.demand_eq_zero hlayout hwell hadopts.space] at hcost
    omega
  · obtain ⟨-, -, hwhy⟩ := he
    obtain ⟨hless, hrefusal⟩ := hwhy hpid hslot
    refine ⟨?_, (hless hfits).2⟩
    cases hrefusal hwell with
    | outOfMemory => rfl
    | outOfRange happend _ hout =>
      exact absurd (hrange _ (happend ▸ List.mem_append_right _ List.mem_cons_self)) hout

/-! ## duplicates -/

/-- the pages of its own that a process can write -/
def writable (k : Kernel) (pid : Pid) : Finset Nat :=
  (Finset.Ico k.layout.firstPage k.layout.endPage).filter fun n =>
    ((k.permissionsAt pid (pageAddress n)).toOption.bind id).any Permissions.writable = true

theorem Valid.writable_eq (h : k.Valid ∅) (hs : k.processes.space? pid = some s) :
    k.writable pid = AddressSpace.writablePages k.layout s.root k.memory := by
  have hend := h.sound.ordered.endPage_le
  rw [writable, AddressSpace.writablePages]
  refine Finset.filter_congr fun n hn => ?_
  have hlt := (Finset.mem_Ico.1 hn).2
  rw [permissionsAt, h.lookup_eq hs, page_pageAddress (by omega)]
  cases k.memory.pageAt s.root n <;> rfl

/-- a duplicate has all it needs -/
theorem Begets.demand_eq_zero {parent child : Nat} {s' : AddressSpace}
    (h : Begets parent child k k') (hlayout : k.layout = .withPhysical size)
    (hs : k.processes.space? parent = some s) (hs' : k'.processes.space? child = some s') :
    k'.memory.demand k.layout s'.root
      (AddressSpace.writablePages k.layout s.root k.memory) = 0 := by
  obtain ⟨_, _, hs₁, hadopts, hcopy⟩ := h.memory
  obtain rfl := Option.some.inj (hs.symm.trans hs₁)
  obtain rfl := Option.some.inj (hs'.symm.trans hadopts.space)
  have hl := hadopts.before.sound.ordered
  have hcomplete := hadopts.after.complete child (Finset.notMem_empty child) _ hs'
  rw [hadopts.layout] at hcomplete
  have hpages : ∀ n ∈ AddressSpace.writablePages k.layout s.root k.memory,
      k'.memory.pageAt s'.root n ≠ none := by
    intro n hn hnone
    obtain ⟨h₁, h₂⟩ := AddressSpace.lt_of_mem_writablePages hn
    have hview := hcopy.views n h₁ h₂
    rw [Memory.viewAt_of_none hnone] at hview
    rw [AddressSpace.writablePages, Finset.mem_filter,
      Memory.pageAt_of_viewAt_none hview.symm] at hn
    cases hn.2
  rw [hlayout] at hcomplete hl hpages ⊢
  exact hcomplete.demand_eq_zero hl hpages

theorem Valid.fork_costs {parent : Nat} (h : k.Valid ∅) (hlayout : k.layout = .withPhysical size)
    (hs : k.processes.space? parent = some s) (hfree : k.processes.firstFree? ≠ none) :
    Costs (fork parent) k (5 + (k.writable parent).card) 0 (.memory .outOfMemory) := by
  have hframes : k.layout.spaceFrames (AddressSpace.writablePages k.layout s.root k.memory)
      = 5 + (k.writable parent).card := by
    rw [h.writable_eq hs]
    conv_lhs => rw [hlayout]
    rw [Layout.spaceFrames_withPhysical, ← hlayout]
  rw [← hframes]
  refine .of_ends ((ends_fork h).mono (fun child k' hk' => ?_) (Fails.mono fun e k' he => ?_))
  · obtain ⟨-, hbegets⟩ := hk'
    obtain ⟨_, s', -, hadopts, -⟩ := hbegets.memory
    have hcost := hbegets.cost s s' hs hadopts.space
    rw [hbegets.demand_eq_zero hlayout hs hadopts.space] at hcost
    omega
  · obtain ⟨⟨hwhy, -⟩, -⟩ := he
    cases hwhy with
    | notLoaded hnone => cases hnone.symm.trans hs
    | noSlot hnone => exact absurd hnone hfree
    | outOfMemory hs' hshort =>
      obtain rfl := Option.some.inj (hs.symm.trans hs')
      exact ⟨rfl, hshort⟩

/-! ## new pages -/

/-- the frames that are free once a process does not map the page of `va` any more: the one of the
page, if nothing else refers to it -/
def freedAt (k : Kernel) (pid : Pid) (va : VirtualAddress) : Nat :=
  (k.frameOf pid va.page.number.toNat).elim 0 fun f => if k.memory.count f = 1 then 1 else 0

theorem Valid.freedAt_eq (h : k.Valid ∅) (hs : k.processes.space? pid = some s)
    (hn : va.page.number.toNat < k.layout.endPage) :
    k.freedAt pid va = AddressSpace.freedBy s.root va.page.number.toNat k.memory := by
  have hend := h.sound.ordered.endPage_le
  rw [freedAt, h.frameOf_eq hs (by omega), AddressSpace.freedBy]

theorem Valid.pageAlloc_costs (h : k.Valid ∅) (hlayout : k.layout = .withPhysical size)
    (hs : k.processes.space? pid = some s) (hrange : k.layout.isUserAddress va = true)
    (haligned : va.isAligned = true) :
    Costs (pageAlloc pid va) k 1 (k.freedAt pid va) (.memory .outOfMemory) := by
  obtain ⟨h₁, h₂⟩ := (h.sound.ordered.isUserAddress_iff va).1 hrange
  have hmissing := h.missing_eq_zero hlayout hs h₁ h₂
  rw [h.freedAt_eq hs h₂]
  refine .of_ends ((ends_pageAlloc h va).mono (fun _ k' hk' => ?_) (Fails.mono fun e k' he => ?_))
  · obtain ⟨s', hs', hreplaced⟩ := hk'.memory
    obtain rfl := Option.some.inj (hs.symm.trans hs')
    obtain ⟨f, hfree, hmanages, -⟩ := hreplaced.page
    have hcost := hreplaced.cost
    rw [hmissing] at hcost
    exact ⟨Ledger.freeCount_pos hfree hmanages, hcost⟩
  · obtain ⟨⟨hwhy, hless⟩, -⟩ := he
    have hless := hless hrange haligned s hs
    rw [hmissing] at hless
    cases hwhy with
    | invalidAddress hout => exact absurd ⟨hrange, haligned⟩ hout
    | notLoaded hnone => cases hnone.symm.trans hs
    | outOfMemory => exact ⟨rfl, hless⟩

/-- a program takes five tables, its stack and the pages that its segments lie in; a duplicate takes
five tables and the pages that can be written; a new page takes one frame, and gives back the one
that it takes the place of, if nothing else refers to that.  Nothing but a lack of frames can stop
them. -/
theorem Reachable.costs (h : Reachable k₀ k) (hn : size.toNat ≤ 2 ^ 48)
    (h₀ : StartedOn size k₀) :
    (∀ pid image, pid ≠ 0 → (∃ p, k.processes.get? pid = some p ∧ p.isVacant = true) →
      (∀ s ∈ image.segments, s.InRange k.layout ∧ s.data.size ≤ s.size.toNat) →
      Costs (setup pid image) k (6 + image.pages.card) 0 (.memory .outOfMemory)) ∧
    (∀ parent, (k.processes.space? parent).isSome = true → k.processes.firstFree? ≠ none →
      Costs (fork parent) k (5 + (k.writable parent).card) 0 (.memory .outOfMemory)) ∧
    ∀ pid va, (k.processes.space? pid).isSome = true → k.layout.isUserAddress va = true →
      va.isAligned = true →
      Costs (pageAlloc pid va) k 1 (k.freedAt pid va) (.memory .outOfMemory) := by
  obtain ⟨hvalid₀, hlayout₀, -⟩ := h₀.valid hn
  obtain ⟨hvalid, hspares⟩ := h.confined hvalid₀
  have hlayout := hspares.layout.trans hlayout₀
  refine ⟨fun pid image hpid hslot himage => hvalid.setup_costs hlayout hpid hslot himage,
    fun parent hloaded hfree => ?_, fun pid va hloaded hrange haligned => ?_⟩
  · obtain ⟨s, hs⟩ := Option.isSome_iff_exists.1 hloaded
    exact hvalid.fork_costs hlayout hs hfree
  · obtain ⟨s, hs⟩ := Option.isSome_iff_exists.1 hloaded
    exact hvalid.pageAlloc_costs hlayout hs hrange haligned

/-- beside a program of two segments there is room for another, for a duplicate and for a page -/
theorem costs_overlapping : ∃ k₀ k : Kernel, StartedOn 0x200000 k₀ ∧ Reachable k₀ k ∧
    8 ≤ k.freeCount ∧ ProgramImage.overlapping.pages.card = 2 ∧
    Costs (setup 2 .overlapping) k (6 + ProgramImage.overlapping.pages.card) 0
      (.memory .outOfMemory) ∧
    Costs (fork 1) k (5 + (k.writable 1).card) 0 (.memory .outOfMemory) ∧
    Costs (pageAlloc 1 ⟨0x100000⟩) k 1 (k.freedAt 1 ⟨0x100000⟩) (.memory .outOfMemory) := by
  have hn : (0x200000 : UInt64).toNat ≤ 2 ^ 48 := by decide
  have hframes : (Layout.withPhysical 0x200000).frameCount = 512 := by decide +kernel
  have htables : tablesFor 512 = 3 := by decide
  obtain ⟨k₀, k, h₀, -, h, hloads, hlayout, ⟨p, hp, hvacant⟩, hfree⟩ :=
    StartedOn.exists_overlapping hn (by rw [hframes, htables]; decide)
  rw [hframes, htables] at hfree
  obtain ⟨s, hadopts, -⟩ := hloads.memory
  have hloaded : (k.processes.space? 1).isSome = true := by rw [hadopts.space, Option.isSome_some]
  obtain ⟨hsetup, hfork, halloc⟩ := h.costs hn h₀
  refine ⟨k₀, k, h₀, h, by omega, by decide +kernel,
    hsetup 2 .overlapping (by decide) ⟨p, hp, hvacant⟩ fun s hs => ⟨?_, ?_⟩,
    hfork 1 hloaded (ProcessTable.firstFree?_ne_none hp hvacant (by decide)),
    halloc 1 ⟨0x100000⟩ hloaded (by rw [hlayout]; decide) rfl⟩
  · rw [hlayout]
    exact AddressSpace.inRange_of_fits (Layout.ordered_withPhysical hn)
      (ProgramImage.fits_overlapping (Layout.ordered_withPhysical hn)) s hs
  · exact ProgramImage.wellFormed_overlapping s hs

end Kernel

end PagedKernel
