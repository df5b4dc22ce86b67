import PagedKernel.Proofs.Kernel.Contents
import PagedKernel.Proofs.Kernel.Reachable

/-!
# Loaded programs

A process that has just been loaded has the pages that the segments of its program need, and a
stack, with the bytes of the program and zeroes everywhere else.

* `Kernel.Presents`                slot `pid` holds a program as it is to be
* `Kernel.Loads.presents`          so it does when it has been loaded
* `Kernel.Reachable.presented`     a setup loads the program, or says why it does not
-/

namespace PagedKernel

namespace Kernel

variable {k k' k₀ : Kernel} {pid : Nat} {image : ProgramImage} {va : VirtualAddress}

/-- slot `pid` of `k'` holds a process with the memory of a program, in frames that were free in
`k` -/
structure Presents (pid : Pid) (image : ProgramImage) (k k' : Kernel) : Prop where
  /-- the slot was vacant, and is none of the kernel's -/
  vacant : ∃ p, k.processes.get? pid = some p ∧ p.isVacant = true ∧ pid ≠ 0
  inRange : ∀ s ∈ image.segments, s.InRange k.layout
  permissions : ∀ va, k.layout.isUserAddress va = true →
    k'.permissionsAt pid va = .ok (image.allowed k.layout va.page.number.toNat)
  bytes : ∀ va, k.layout.isUserAddress va = true → k'.byteAt pid va
    = (image.allowed k.layout va.page.number.toNat).map fun _ => image.shown va.value.toNat
  /-- below its memory it maps what the kernel's own space maps -/
  below : ∀ va : VirtualAddress, va.value < k.layout.processStart →
    k'.lookup pid va = k'.space.lookup k'.memory va
  /-- every page has a frame of its own -/
  own : ∀ va m, k.layout.isUserAddress va = true → k'.lookup pid va = .ok (some m) →
    k.IsFree m.frame ∧ k'.memory.count m.frame = 1 ∧
      k'.holders m.frame = {(pid, va.page.number.toNat)}
  slot : ∃ p, k'.processes.get? pid = some p ∧ p.state = .runnable ∧
    p.registers = Registers.entry image.entry.value k.layout.virtualSize

/-- a program that has been loaded is in memory as it is to be -/
theorem Loads.presents (h : Loads pid image k k') (hwell : image.WellFormed) :
    Presents pid image k k' := by
  obtain ⟨s, hadopts, hloaded⟩ := h.memory
  have hafter := hadopts.after
  have hl := hadopts.before.sound.ordered
  have hin := fun va => (hl.isUserAddress_iff va).1
  have huser : ∀ va, k.layout.isUserAddress va = true → k'.layout.isUserAddress va = true :=
    fun va hva => by
      rw [hadopts.layout]
      exact hva
  have hpic := hloaded.picture hwell
  refine ⟨h.vacant, hloaded.inRange, fun va hva => ?_, fun va hva => ?_, fun va hva => ?_,
    fun va m hva hm => ?_, h.slot⟩
  · rw [hafter.permissionsAt_eq hadopts.space, hpic.permissions _ (hin va hva).1 (hin va hva).2]
  · have hperms := hpic.permissions _ (hin va hva).1 (hin va hva).2
    have hpage := va.toNat_page
    rw [hafter.byteAt_eq hadopts.space (huser va hva), ← hperms, Option.map_map]
    cases hview : k'.memory.viewAt s.root va.page.number.toNat with
    | none => rfl
    | some v =>
      have hbyte := hpic.bytes va.value.toNat (hpage ▸ (hin va hva).1) (hpage ▸ (hin va hva).2) v
        (hpage ▸ hview)
      rw [Option.map_some, Option.map_some, va.toNat_offset, hbyte]
      rfl
  · have hlow := (AddressSpace.value_lt_processStart hl).1 hva
    have hlt := hl.firstPage_lt
    have hend := hl.endPage_le
    have hkernel := hafter.sound.forest.lookup_eq Sound.kernel_mem va
    rw [hafter.sound.kernelPages _ (by omega)] at hkernel
    rw [hafter.lookup_below hadopts.space (by rw [hadopts.layout]; exact hlow)]
    exact hkernel.symm
  · have hpage := hafter.pageAt_of_lookup hadopts.space hm
    have hone := hloaded.alone _ _ _ (hin va hva).1 (hin va hva).2 hpage
    obtain ⟨hfree, hholders⟩ := hadopts.alone (hin va hva).1 (hin va hva).2 hpage hone
    exact ⟨hfree, hone, hholders⟩

/-- a setup of a slot that is vacant loads the program.  If it does not, memory ran out or a segment
did not fit, and everything is as it was -/
theorem Reachable.presented {n : UInt64} (h : Reachable k₀ k) (hn : n.toNat ≤ 2 ^ 48)
    (h₀ : StartedOn n k₀) (hwell : image.WellFormed) (hpid : pid ≠ 0)
    (hslot : ∃ p, k.processes.get? pid = some p ∧ p.isVacant = true) :
    Ends (setup pid image) k (fun _ k' => Presents pid image k k')
      (Fails fun e k' => image.Refusal k.layout e ∧ Undone k k') :=
  (ends_setup (h.valid hn h₀) image).mono
    (fun _ _ hk' => hk'.2.2.2.2.2.presents hwell)
    (Fails.mono fun _ _ he => ⟨(he.2.2 hpid hslot).2 hwell, he.2.1⟩)

/-- a program whose segments share a page can be loaded -/
theorem presented_overlapping : ∃ k₀ k : Kernel, StartedOn 0x200000 k₀ ∧
    setup 1 .overlapping k₀ = .ok () k ∧ Presents 1 .overlapping k₀ k := by
  have hn : (0x200000 : UInt64).toNat ≤ 2 ^ 48 := by decide
  obtain ⟨k₀, k, h₀, hsetup, -, hloads, -⟩ := StartedOn.exists_overlapping hn (by decide +kernel)
  obtain ⟨p, hp, hvacant, hpid⟩ := hloads.vacant
  exact ⟨k₀, k, h₀, hsetup, (Reachable.start.presented hn h₀ ProgramImage.wellFormed_overlapping
    hpid ⟨p, hp, hvacant⟩).ok hsetup⟩

end Kernel

end PagedKernel
