import PagedKernel.Proofs.Kernel.Contents
import PagedKernel.Proofs.Kernel.Reachable

/-!
# Duplicated processes

The child of a fork sees what its parent saw in its memory.  What it can write are frames of its
own; what it cannot write it shares with its parent.

* `Kernel.Duplicates`          the child has become what its parent was
* `Kernel.Begets.duplicates`   so it has after a fork
* `Kernel.Reachable.duplicated`    a fork that succeeds duplicates the process
-/

namespace PagedKernel

namespace Kernel

variable {k k' k₀ : Kernel} {parent child n : Nat} {s s' : AddressSpace} {f : Frame}
  {p : Permissions} {va : VirtualAddress}

/-- `child` has become in `k'` what `parent` was in `k` -/
structure Duplicates (parent child : Pid) (k k' : Kernel) : Prop where
  /-- its slot was vacant, and of all vacant slots but the kernel's it had the lowest number -/
  vacant : ∃ p, k.processes.get? child = some p ∧ p.isVacant = true ∧ child ≠ 0
  lowest : ∀ q p, q ≠ 0 → q < child → k.processes.get? q = some p → p.isVacant = false
  /-- it maps what its parent mapped, with the same permissions -/
  permissions : ∀ va : VirtualAddress, va.value < k.layout.virtualSize →
    k'.permissionsAt child va = k.permissionsAt parent va
  below : ∀ va : VirtualAddress, va.value < k.layout.processStart →
    k'.lookup child va = k.lookup parent va
  bytes : ∀ va, k.layout.isUserAddress va = true → k'.byteAt child va = k.byteAt parent va
  /-- what cannot be written is shared -/
  shared : ∀ va m, k.layout.isUserAddress va = true → k.lookup parent va = .ok (some m) →
    m.permissions.writable = false → k'.lookup child va = .ok (some m) ∧
      k'.memory.count m.frame = k.memory.count m.frame + 1
  /-- what can be written was free, and is the child's alone -/
  own : ∀ va m, k.layout.isUserAddress va = true → k'.lookup child va = .ok (some m) →
    m.permissions.writable = true → k.IsFree m.frame ∧ k'.memory.count m.frame = 1 ∧
      k'.holders m.frame = {(child, va.page.number.toNat)}
  /-- the parent has what it had -/
  kept : ∀ va, k'.lookup parent va = k.lookup parent va
  keptBytes : ∀ va, k.layout.isUserAddress va = true → k'.byteAt parent va = k.byteAt parent va
  slotChild : ∃ p₀ p, k.processes.get? parent = some p₀ ∧ k'.processes.get? child = some p ∧
    p.state = .runnable ∧ p.registers = p₀.registers.result 0
  slotParent : k'.processes.get? parent = (k.processes.get? parent).map fun p =>
    { p with registers := p.registers.result (UInt64.ofNat child) }
  slotOther : ∀ q, q ≠ parent → q ≠ child → k'.processes.get? q = k.processes.get? q

namespace Adopts

/-- below their memory both map the same -/
theorem lookup_below (h : Adopts child s' k k') (hs : k.processes.space? parent = some s)
    (hva : va.page.number.toNat < k.layout.firstPage) :
    k'.lookup child va = k.lookup parent va := by
  rw [h.before.lookup_below hs hva, h.after.lookup_below h.space (by rw [h.layout]; exact hva),
    h.layout]

/-- the others look up what they looked up -/
theorem lookup_other (h : Adopts child s' k k') (hs : k.processes.space? parent = some s)
    (hsame : k'.processes.space? parent = some s) (va : VirtualAddress) :
    k'.lookup parent va = k.lookup parent va := by
  rw [h.after.lookup_eq hsame, h.before.lookup_eq hs,
    h.keeps.pageAt (Finset.mem_insert_of_mem (ProcessTable.root_mem hs))]

theorem byteAt_other (h : Adopts child s' k k') (hs : k.processes.space? parent = some s)
    (hsame : k'.processes.space? parent = some s) (hva : k.layout.isUserAddress va = true) :
    k'.byteAt parent va = k.byteAt parent va := by
  obtain ⟨h₁, h₂⟩ := (h.before.sound.ordered.isUserAddress_iff va).1 hva
  rw [h.after.byteAt_eq hsame (by rw [h.layout]; exact hva), h.before.byteAt_eq hs hva,
    h.keeps.viewAt (ProcessTable.root_mem hs) h₁ h₂]

end Adopts

/-- a child sees what its parent saw -/
theorem Begets.duplicates (h : Begets parent child k k') : Duplicates parent child k k' := by
  obtain ⟨s, s', hs, hadopts, hcopy⟩ := h.memory
  have hbefore := hadopts.before
  have hafter := hadopts.after
  have hl := hbefore.sound.ordered
  have hsame : k'.processes.space? parent = some s := by
    rw [ProcessTable.space?, h.slotParent, Option.bind_map]
    exact hs
  have hin := fun va => (hl.isUserAddress_iff va).1
  obtain ⟨hvacant, hlowest⟩ := ProcessTable.firstFree?_cases hbefore.numbered h.first
  refine ⟨hvacant, hlowest, fun va hva => ?_, fun va hva => ?_, fun va hva => ?_,
    fun va m hva hm hro => ?_, fun va m hva hm hw => ?_, hadopts.lookup_other hs hsame,
    fun va hva => hadopts.byteAt_other hs hsame hva, h.slotChild, h.slotParent, h.slotOther⟩
  · by_cases hlow : va.page.number.toNat < k.layout.firstPage
    · rw [permissionsAt, permissionsAt, hadopts.lookup_below hs hlow]
    · have hlt := UInt64.lt_iff_toNat_lt.1 hva
      rw [hl.virtualSize_eq] at hlt
      rw [hafter.permissionsAt_eq hadopts.space, hbefore.permissionsAt_eq hs,
        hcopy.views _ (Nat.le_of_not_lt hlow) (by rw [va.toNat_page]; omega)]
  · exact hadopts.lookup_below hs ((AddressSpace.value_lt_processStart hl).1 hva)
  · rw [hafter.byteAt_eq hadopts.space (by rw [hadopts.layout]; exact hva),
      hbefore.byteAt_eq hs hva, hcopy.views _ (hin va hva).1 (hin va hva).2]
  · have hpage := hbefore.pageAt_of_lookup hs hm
    have hpage' := hcopy.shares _ _ _ (hin va hva).1 (hin va hva).2 hpage hro
    refine ⟨?_, hadopts.count_page (hin va hva).1 (hin va hva).2 hpage'⟩
    rw [hafter.lookup_eq hadopts.space, hpage', ← hm, hbefore.lookup_eq hs, hpage]
  · have hpage := hafter.pageAt_of_lookup hadopts.space hm
    have hone := hadopts.sound.count_writable (Finset.mem_insert_self _ _) (hin va hva).1
      (hin va hva).2 hpage hw
    obtain ⟨hfree, hholders⟩ := hadopts.alone (hin va hva).1 (hin va hva).2 hpage hone
    exact ⟨hfree, hone, hholders⟩

/-- a fork that succeeds duplicates the process -/
theorem Reachable.duplicated {n : UInt64} (h : Reachable k₀ k) (hn : n.toNat ≤ 2 ^ 48)
    (h₀ : StartedOn n k₀) (hfork : fork parent k = .ok child k') :
    Duplicates parent child k k' :=
  ((ends_fork (h.valid hn h₀)).ok hfork).2.duplicates

/-- on a machine with sixteen mebibytes a program can be duplicated -/
theorem duplicated_overlapping : ∃ (k₀ k k' : Kernel) (child : Pid), StartedOn 0x1000000 k₀ ∧
    Reachable k₀ k ∧ fork 1 k = .ok child k' ∧ Duplicates 1 child k k' := by
  have hn : (0x1000000 : UInt64).toNat ≤ 2 ^ 48 := by decide
  have hframes : (Layout.withPhysical 0x1000000).frameCount = 4096 := by decide +kernel
  have htables : tablesFor 4096 = 24 := by decide
  obtain ⟨k₀, k, h₀, -, h, hloads, hlayout, ⟨p, hp, hvacant⟩, hfree⟩ :=
    StartedOn.exists_overlapping hn (by rw [hframes, htables]; decide)
  rw [hframes, htables] at hfree
  obtain ⟨s, hadopts, -⟩ := hloads.memory
  have hcopy : AddressSpace.copyCost k.layout k.layout.endPage = 2051 := by
    rw [hlayout]
    decide +kernel
  have hends : Ends (fork 1) k (fun _ _ => True) Never := by
    refine (ends_fork (h.valid hn h₀)).mono (fun _ _ _ => trivial) fun e k' he => ?_
    cases e with
    | panic e => exact he.elim
    | error e =>
      have hless := he.1.2 (by rw [hadopts.space]; nofun)
        (ProcessTable.firstFree?_ne_none hp hvacant (by decide))
      omega
  obtain ⟨child, k', hfork, -⟩ := hends.exists_ok
  exact ⟨k₀, k, k', child, h₀, h, hfork, h.duplicated hn h₀ hfork⟩

end Kernel

end PagedKernel
