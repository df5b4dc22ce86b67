import Mathlib.Logic.Relation
import PagedKernel.Proofs.Kernel.Accounting
import PagedKernel.Proofs.Kernel.Pages

/-!
# Requests that find no memory

A request for a page that fails for lack of memory gives the frame of the page back, but not the
tables that were made on the way to it.  As a page needs three tables at most this is seldom much:
one free frame is left, and whoever asks again finds things as they are.  On the default machine no
table is ever made, so that nothing is spent.

* `Kernel.Depletes`             what such a request leaves
* `Kernel.RefusesPage`          a request for a page fails
* `Kernel.Reachable.depleted`   when counts change, by how much, and that this happens only once
* `Layout.steep`                a machine on which it does happen
-/

namespace PagedKernel

namespace Kernel

variable {k k' k₀ : Kernel} {pid : Nat} {va : VirtualAddress} {e : PageAllocError}

/-- of the free frames one is left at most; the others have become tables of `s`, and nothing else
is counted anew -/
structure Depletes (s : AddressSpace) (k k' : Kernel) : Prop where
  processes : k'.processes = k.processes
  few : k.freeCount ≤ 3
  free : k'.freeCount = min k.freeCount 1
  counts : ∀ f, k'.memory.count f = k.memory.count f ∨
    k.memory.count f = 0 ∧ k'.memory.count f = 1 ∧ k'.memory.IsTable s.root f

/-- a request for a page fails -/
def RefusesPage (k k' : Kernel) : Prop :=
  ∃ pid va e, pageAlloc pid va k = .error (.error e) k'

theorem RefusesPage.reachable (h : RefusesPage k k') (hk : Reachable k₀ k) : Reachable k₀ k' := by
  obtain ⟨pid, va, e, halloc⟩ := h
  have hleave : (Operation.pageAlloc pid va).perform k = k' := leave_of_error halloc
  exact hleave ▸ hk.operate _

/-- a request for a page that fails for lack of memory -/
theorem Valid.depletes (h : k.Valid ∅)
    (halloc : pageAlloc pid va k = .error (.error (.memory .outOfMemory)) k') :
    ∃ s, k.processes.space? pid = some s ∧ Depletes s k k' ∧
      (k.freeCount ≤ 1 → ∀ f, k'.memory.count f = k.memory.count f) ∧
      k.freeCount ≤ k.memory.missing s.root (pagePath va.page.number.toNat) := by
  obtain ⟨⟨hwhy, -⟩, -, hsame⟩ := (ends_pageAlloc h va).error halloc
  cases hwhy with
  | @outOfMemory s hs _ _ hspent =>
    have hthree := Memory.missing_le k.memory s.root (pagePath va.page.number.toNat)
    have hless := hspent.less
    rw [length_pagePath] at hthree
    exact ⟨s, hs, ⟨hsame, show k.memory.freeCount ≤ 3 by omega, hspent.free, hspent.counts⟩,
      hspent.full, Nat.le_of_lt_succ hless⟩

/-- all other requests that fail change nothing -/
theorem Valid.pageAlloc_same (h : k.Valid ∅) (halloc : pageAlloc pid va k = .error (.error e) k')
    (he : e ≠ .memory .outOfMemory) : k' = k := by
  obtain ⟨⟨hwhy, -⟩, -⟩ := (ends_pageAlloc h va).error halloc
  cases hwhy with
  | invalidAddress _ hsame => exact hsame
  | notLoaded _ hsame => exact hsame
  | outOfMemory => exact absurd rfl he

/-- counts change just if memory ran out when there was more than one frame left -/
theorem Valid.counts_iff (h : k.Valid ∅) (halloc : pageAlloc pid va k = .error (.error e) k') :
    (∀ f, k'.memory.count f = k.memory.count f) ↔
      e ≠ .memory .outOfMemory ∨ k.freeCount ≤ 1 := by
  by_cases he : e = .memory .outOfMemory
  · subst he
    obtain ⟨s, -, hdepletes, hfull, -⟩ := h.depletes halloc
    refine ⟨fun hcount => .inr ?_, fun hor => hfull (hor.resolve_left fun hne => hne rfl)⟩
    obtain ⟨-, hserves, -⟩ := (ends_pageAlloc h va).error halloc
    have hfree := hserves.valid.freeCount_congr h (congrArg KernelConfig.layout hserves.config)
      hcount
    have := hdepletes.free
    omega
  · refine iff_of_true (fun f => ?_) (.inl he)
    rw [h.pageAlloc_same halloc he]

/-- the requests for pages that fail one after the other spend two frames at most -/
theorem Reachable.freeCount_le (h : Reachable k₀ k) (h₀ : k₀.Valid ∅)
    (hruns : Relation.ReflTransGen RefusesPage k k') : k.freeCount ≤ k'.freeCount + 2 := by
  -- either nothing has been spent yet, or one frame is left
  have hinv : Reachable k₀ k' ∧
      (k'.freeCount = k.freeCount ∨ k'.freeCount = 1 ∧ k.freeCount ≤ 3) := by
    induction hruns with
    | refl => exact ⟨h, .inl rfl⟩
    | tail _ hstep ih =>
      obtain ⟨hreach, hfree⟩ := ih
      refine ⟨hstep.reachable hreach, ?_⟩
      obtain ⟨pid, va, e, halloc⟩ := hstep
      have hvalid := (hreach.confined h₀).1
      by_cases he : e = .memory .outOfMemory
      · subst he
        obtain ⟨s, -, hdepletes, -⟩ := hvalid.depletes halloc
        have := hdepletes.free
        have := hdepletes.few
        omega
      · rw [hvalid.pageAlloc_same halloc he]
        exact hfree
  obtain ⟨-, hfree⟩ := hinv
  omega

/-- a request for a page that fails changes a count just if memory ran out with more than one frame
left; then all but one of these, two at most, have become tables of the process.  Whoever asks again
in vain changes nothing any more.  No count changes on the default machine, whatever its size. -/
theorem Reachable.depleted {host : Host} {config : KernelConfig} (h : Reachable k₀ k)
    (hl : config.layout.Ordered) (h₀ : Kernel.start host config = .started k₀) :
    (∀ pid va p k', pageAlloc pid va k ≠ .error (.panic p) k') ∧
    (∀ pid va e k', pageAlloc pid va k = .error (.error e) k' →
      ((∀ f, k'.memory.count f = k.memory.count f) ↔
        e ≠ .memory .outOfMemory ∨ k.freeCount ≤ 1) ∧
      (e ≠ .memory .outOfMemory → k' = k) ∧
      (e = .memory .outOfMemory → ∃ s, k.processes.space? pid = some s ∧ Depletes s k k') ∧
      ((∃ size, config.layout = .withPhysical size) →
        ∀ f, k'.memory.count f = k.memory.count f)) ∧
    ∀ k', Relation.ReflTransGen RefusesPage k k' → k.freeCount ≤ k'.freeCount + 2 := by
  obtain ⟨hvalid₀, hconfig, -⟩ := started_valid hl h₀
  obtain ⟨hvalid, hspares⟩ := h.confined hvalid₀
  refine ⟨fun pid va p k' halloc => (ends_pageAlloc hvalid va).error halloc,
    fun pid va e k' halloc => ⟨hvalid.counts_iff halloc, hvalid.pageAlloc_same halloc, ?_, ?_⟩,
    fun k' hruns => h.freeCount_le hvalid₀ hruns⟩
  · rintro rfl
    obtain ⟨s, hs, hdepletes, -⟩ := hvalid.depletes halloc
    exact ⟨s, hs, hdepletes⟩
  · rintro ⟨size, hlayout⟩
    have hlayout := hspares.layout.trans ((congrArg KernelConfig.layout hconfig).trans hlayout)
    by_cases he : e = .memory .outOfMemory
    · obtain ⟨⟨hwhy, -⟩, -⟩ := (ends_pageAlloc hvalid va).error halloc
      cases hwhy with
      | outOfMemory hs hrange _ hspent =>
        obtain ⟨h₁, h₂⟩ := (hvalid.sound.ordered.isUserAddress_iff va).1 hrange
        have hless := hspent.less
        rw [hvalid.missing_eq_zero hlayout hs h₁ h₂] at hless
        exact hspent.full (Nat.le_of_lt hless)
      | invalidAddress => cases he
      | notLoaded => cases he
    · rw [hvalid.pageAlloc_same halloc he]
      exact fun _ => rfl

end Kernel

/-- a small machine with large address spaces, where pages that lie far apart have few tables in
common -/
def Layout.steep : Layout where
  physicalSize := 0x10000
  virtualSize := 0x80003000
  processStart := 0x3000
  kernelImage := ⟨0, 0⟩
  kernelStackTop := 0x2000
  ioHole := ⟨0x2000, 0x3000⟩
  console := 0x2000

theorem Layout.ordered_steep : steep.Ordered := by
  constructor <;> decide

/-- a program is loaded there, and asks for a page far from its own -/
def steepAlloc : Option (Kernel × PageAllocError × Kernel) :=
  match Kernel.start {} { layout := .steep } with
  | .started k₀ =>
    let k := (Operation.setup 1 .bare).perform k₀
    match Kernel.pageAlloc 1 ⟨0x40000000⟩ k with
    | .error (.error e) k' => some (k, e, k')
    | _ => none
  | .halted .. | .panicked .. => none

theorem steepAlloc_eq :
    steepAlloc.map (fun (k, e, k') => (e, k.freeCount, k'.freeCount))
      = some (.memory .outOfMemory, 2, 1) := by
  decide +kernel

/-- memory runs out there: of two free frames one is left, and the other is a table -/
theorem exists_steep : ∃ k₀ k k' : Kernel, Kernel.start {} { layout := .steep } = .started k₀ ∧
    Kernel.Reachable k₀ k ∧
    Kernel.pageAlloc 1 ⟨0x40000000⟩ k = .error (.error (.memory .outOfMemory)) k' ∧
    k.freeCount = 2 ∧ k'.freeCount = 1 := by
  obtain ⟨⟨k, e, k'⟩, hsome, heq⟩ := Option.map_eq_some_iff.1 steepAlloc_eq
  obtain ⟨rfl, hfree, hfree'⟩ : e = .memory .outOfMemory ∧ k.freeCount = 2 ∧ k'.freeCount = 1 := by
    simpa only [Prod.mk.injEq] using heq
  unfold steepAlloc at hsome
  split at hsome
  · next k₀ h₀ =>
    dsimp only at hsome
    split at hsome
    · next halloc =>
      obtain ⟨rfl, rfl, rfl⟩ : _ = k ∧ _ = PageAllocError.memory .outOfMemory ∧ _ = k' := by
        simpa only [Option.some_inj, Prod.mk.injEq] using hsome
      exact ⟨k₀, _, _, h₀, Kernel.Reachable.start.operate _, halloc, hfree, hfree'⟩
    · cases hsome
  · cases hsome
  · cases hsome

namespace Kernel

/-- what a failed request has spent there stays spent -/
theorem depleted_otherwise : ∃ k₀ k k' : Kernel,
    Kernel.start {} { layout := .steep } = .started k₀ ∧ Layout.steep.Ordered ∧ Reachable k₀ k ∧
    pageAlloc 1 ⟨0x40000000⟩ k = .error (.error (.memory .outOfMemory)) k' ∧
    k'.freeCount < k.freeCount ∧ ¬ ∀ f, k'.memory.count f = k.memory.count f := by
  obtain ⟨k₀, k, k', h₀, h, halloc, hfree, hfree'⟩ := exists_steep
  have hvalid := (h.confined (started_valid Layout.ordered_steep h₀).1).1
  refine ⟨k₀, k, k', h₀, Layout.ordered_steep, h, halloc, by omega, fun hcount => ?_⟩
  rcases (hvalid.counts_iff halloc).1 hcount with hne | hle
  · exact hne rfl
  · omega

theorem depleted_steep : ∃ k₀ k k' s, Kernel.start {} { layout := .steep } = .started k₀ ∧
    Reachable k₀ k ∧ pageAlloc 1 ⟨0x40000000⟩ k = .error (.error (.memory .outOfMemory)) k' ∧
    k.processes.space? 1 = some s ∧ Depletes s k k' ∧
    ∀ k'', Relation.ReflTransGen RefusesPage k k'' → k.freeCount ≤ k''.freeCount + 2 := by
  obtain ⟨k₀, k, k', h₀, h, halloc, -⟩ := exists_steep
  obtain ⟨-, hfails, hruns⟩ := h.depleted Layout.ordered_steep h₀
  obtain ⟨s, hs, hdepletes⟩ := (hfails 1 _ _ k' halloc).2.2.1 rfl
  exact ⟨k₀, k, k', s, h₀, h, halloc, hs, hdepletes, hruns⟩

end Kernel

end PagedKernel
