import PagedKernel.Layout
import PagedKernel.Paging.Permissions
import PagedKernel.Proofs.Memory.Frames

/-!
# Ordered layouts

The boundaries of a machine in the order in which its parts lie, all of them multiples of the page
size, and what follows for pages and frames.

* `Layout.Ordered`               the boundaries are ordered and aligned
* `Layout.SparesNull`            the kernel lies outside the first page, which is never mapped
* `Layout.ordered_withPhysical`  both hold on the default machine with any amount of memory
* `Layout.firstPage`, `Layout.endPage`   the pages that belong to a process
* `Layout.kernelPage`            what the kernel's own space maps a page to
-/

namespace PagedKernel

namespace Layout

/-- the boundaries of a machine are ordered, and start pages -/
structure Ordered (l : Layout) : Prop where
  imageStart_aligned : l.kernelImage.start.toNat % 4096 = 0
  imageStop_aligned : l.kernelImage.stop.toNat % 4096 = 0
  stackTop_aligned : l.kernelStackTop.toNat % 4096 = 0
  holeStart_aligned : l.ioHole.start.toNat % 4096 = 0
  holeStop_aligned : l.ioHole.stop.toNat % 4096 = 0
  console_aligned : l.console.toNat % 4096 = 0
  processStart_aligned : l.processStart.toNat % 4096 = 0
  physicalSize_aligned : l.physicalSize.toNat % 4096 = 0
  virtualSize_aligned : l.virtualSize.toNat % 4096 = 0
  image_stack : l.kernelImage.stop.toNat + 4096 ≤ l.kernelStackTop.toNat
  stack_hole : l.kernelStackTop ≤ l.ioHole.start
  hole_console : l.ioHole.start ≤ l.console
  console_hole : l.console < l.ioHole.stop
  hole_process : l.ioHole.stop ≤ l.processStart
  process_physical : l.processStart ≤ l.physicalSize
  process_virtual : l.processStart < l.virtualSize
  virtual_le : l.virtualSize.toNat ≤ 2 ^ 47
  physical_le : l.physicalSize.toNat ≤ 2 ^ 48

/-- neither the kernel image nor the kernel stack lies in the first page -/
structure SparesNull (l : Layout) : Prop where
  image : l.kernelImage.stop ≤ l.kernelImage.start ∨ 0 < l.kernelImage.start
  stack : 4096 < l.kernelStackTop

theorem toNat_withPhysical (n : UInt64) :
    (withPhysical n).physicalSize.toNat = max (n.toNat / 4096 * 4096) 0x100000 := by
  have hn := n.toNat_lt
  have hpages : (n / 4096 * 4096).toNat = n.toNat / 4096 * 4096 := by
    simp only [UInt64.toNat_mul, UInt64.toNat_div, UInt64.reduceToNat]
    omega
  show (if n / 4096 * 4096 ≤ 0x100000 then 0x100000 else n / 4096 * 4096 : UInt64).toNat = _
  have hle : n / 4096 * 4096 ≤ 0x100000 ↔ n.toNat / 4096 * 4096 ≤ 0x100000 := by
    rw [UInt64.le_iff_toNat_le, hpages]
    rfl
  split
  · next h => exact (Nat.max_eq_right (hle.1 h)).symm
  · next h =>
    rw [hpages]
    exact (Nat.max_eq_left (Nat.le_of_not_le fun h' => h (hle.2 h'))).symm

theorem ordered_default : ({} : Layout).Ordered := by
  constructor <;> decide

theorem ordered_withPhysical {n : UInt64} (h : n.toNat ≤ 2 ^ 48) : (withPhysical n).Ordered :=
  { ordered_default with
    physicalSize_aligned := by
      rw [toNat_withPhysical]
      omega
    process_physical := by
      rw [UInt64.le_iff_toNat_le, toNat_withPhysical]
      exact Nat.le_max_right _ _
    physical_le := by
      rw [toNat_withPhysical]
      omega }

theorem sparesNull_default : ({} : Layout).SparesNull :=
  ⟨.inr (by decide), by decide⟩

theorem sparesNull_withPhysical (n : UInt64) : (withPhysical n).SparesNull where
  image := .inr (show (0 : UInt64) < 0x40000 by decide)
  stack := show (4096 : UInt64) < 0x80000 by decide

/-! ## pages -/

/-- the first page that belongs to a process -/
def firstPage (l : Layout) : Nat := l.processStart.toNat / 4096

/-- the page after the last that belongs to a process -/
def endPage (l : Layout) : Nat := l.virtualSize.toNat / 4096

/-- the page of the console, which is also its frame -/
def consolePage (l : Layout) : Nat := l.console.toNat / 4096

/-- what the kernel's own address space allows at a page that it maps -/
def kernelPermissions (l : Layout) (n : Nat) : Permissions :=
  if n < l.firstPage ∧ n ≠ l.consolePage then .kernelReadWrite else .userReadWrite

/-- what the kernel's own address space maps page `n` to: the frame of the same number -/
def kernelPage (l : Layout) (n : Nat) : Option (Frame × Permissions) :=
  if 0 < n ∧ n < l.frameCount then
    some (Page.ofNumber (UInt64.ofNat n), l.kernelPermissions n)
  else none

/-- page 0 is not mapped -/
theorem pos_of_kernelPage {l : Layout} {n : Nat} {x : Frame × Permissions}
    (h : l.kernelPage n = some x) : 0 < n := by
  rw [kernelPage] at h
  split at h
  · next hin => exact hin.1
  · cases h

namespace Ordered

variable {l : Layout}

theorem processStart_eq (h : l.Ordered) : l.processStart.toNat = 4096 * l.firstPage := by
  have := h.processStart_aligned
  unfold firstPage
  omega

theorem virtualSize_eq (h : l.Ordered) : l.virtualSize.toNat = 4096 * l.endPage := by
  have := h.virtualSize_aligned
  unfold endPage
  omega

theorem physicalSize_eq (h : l.Ordered) : l.physicalSize.toNat = 4096 * l.frameCount := by
  have := h.physicalSize_aligned
  unfold frameCount
  omega

theorem console_eq (h : l.Ordered) : l.console.toNat = 4096 * l.consolePage := by
  have := h.console_aligned
  unfold consolePage
  omega

theorem firstPage_lt (h : l.Ordered) : l.firstPage < l.endPage := by
  have := UInt64.lt_iff_toNat_lt.1 h.process_virtual
  rw [h.processStart_eq, h.virtualSize_eq] at this
  omega

theorem endPage_le (h : l.Ordered) : l.endPage ≤ 2 ^ 35 := by
  have := h.virtual_le
  rw [h.virtualSize_eq] at this
  omega

theorem firstPage_le (h : l.Ordered) : l.firstPage ≤ l.frameCount := by
  have := UInt64.le_iff_toNat_le.1 h.process_physical
  rw [h.processStart_eq, h.physicalSize_eq] at this
  omega

theorem frameCount_le (h : l.Ordered) : l.frameCount ≤ 2 ^ 36 := by
  have := h.physical_le
  rw [h.physicalSize_eq] at this
  omega

theorem consolePage_lt (h : l.Ordered) : l.consolePage < l.firstPage := by
  have h₁ := UInt64.lt_iff_toNat_lt.1 h.console_hole
  have h₂ := UInt64.le_iff_toNat_le.1 h.hole_process
  rw [h.console_eq] at h₁
  rw [h.processStart_eq] at h₂
  omega

theorem isUserAddress_iff (h : l.Ordered) (va : VirtualAddress) :
    l.isUserAddress va = true ↔
      l.firstPage ≤ va.page.number.toNat ∧ va.page.number.toNat < l.endPage := by
  have hstart := h.processStart_eq
  have hend := h.virtualSize_eq
  have hpage := va.toNat_page
  rw [isUserAddress, Bool.and_eq_true, decide_eq_true_iff, decide_eq_true_iff,
    UInt64.le_iff_toNat_le, UInt64.lt_iff_toNat_lt]
  omega

/-! ## special pages -/

theorem kernelStackPage_eq (h : l.Ordered) :
    l.kernelStackPage = .ok (l.kernelStackTop - 4096) ∧
      (l.kernelStackTop - 4096).toNat = l.kernelStackTop.toNat - 4096 := by
  have := h.image_stack
  have hle : (4096 : UInt64) ≤ l.kernelStackTop := by
    rw [UInt64.le_iff_toNat_le]
    simp only [UInt64.reduceToNat]
    omega
  refine ⟨?_, ?_⟩
  · rw [kernelStackPage, Word.sub, if_pos hle]
  · rw [UInt64.toNat_sub_of_le _ _ hle]
    rfl

theorem userStackPage_eq (h : l.Ordered) :
    l.userStackPage = .ok ⟨l.virtualSize - 4096⟩ ∧
      (l.virtualSize - 4096).toNat = 4096 * (l.endPage - 1) := by
  have hpos := h.firstPage_lt
  have hsize := h.virtualSize_eq
  have hle : (4096 : UInt64) ≤ l.virtualSize := by
    rw [UInt64.le_iff_toNat_le, hsize]
    simp only [UInt64.reduceToNat]
    omega
  refine ⟨?_, ?_⟩
  · rw [userStackPage, Word.sub, if_pos hle]
    rfl
  · rw [UInt64.toNat_sub_of_le _ _ hle, hsize]
    simp only [UInt64.reduceToNat]
    omega

/-! ## frames that may be handed out -/

theorem isAllocatable_eq (h : l.Ordered) (pa : PhysicalAddress) :
    l.isAllocatable pa = .ok
      (!(pa.page.base.value == 0 || decide (l.physicalSize ≤ pa.page.base.value)) &&
        !l.kernelImage.contains pa.page.base.value &&
        pa.page.base.value != l.kernelStackTop - 4096 &&
        !l.ioHole.contains pa.page.base.value) := by
  have hstack := h.kernelStackPage_eq.1
  unfold isAllocatable
  rw [hstack]
  generalize pa.page.base.value = base
  dsimp only
  cases (base == 0 || decide (l.physicalSize ≤ base)) <;> cases l.kernelImage.contains base <;> rfl

/-- whether the frame of a number may be handed out, in numbers -/
theorem isAllocatable_iff (h : l.Ordered) (f : Frame) :
    l.isAllocatable f.base = .ok true ↔
      f.number.toNat ≠ 0 ∧ f.number.toNat < l.frameCount ∧
      ¬ (l.kernelImage.start.toNat ≤ 4096 * f.number.toNat ∧
        4096 * f.number.toNat < l.kernelImage.stop.toNat) ∧
      4096 * f.number.toNat ≠ l.kernelStackTop.toNat - 4096 ∧
      ¬ (l.ioHole.start.toNat ≤ 4096 * f.number.toNat ∧
        4096 * f.number.toNat < l.ioHole.stop.toNat) := by
  have hbase : f.base.value.toNat = 4096 * f.number.toNat := by
    rw [f.toNat_base, Nat.mul_comm]
  have hstack := h.kernelStackPage_eq.2
  have hsize := h.physicalSize_eq
  rw [h.isAllocatable_eq, Page.page_base]
  simp only [Except.ok.injEq, Bool.and_eq_true, Bool.not_eq_true', Bool.or_eq_false_iff,
    beq_eq_false_iff_ne, ne_eq, decide_eq_false_iff_not, bne_iff_ne, Span.contains,
    Bool.and_eq_false_imp, decide_eq_true_eq, UInt64.le_iff_toNat_le, UInt64.lt_iff_toNat_lt,
    ← UInt64.toNat_inj, UInt64.toNat_zero, hbase, hstack, hsize]
  constructor
  · rintro ⟨⟨⟨⟨h0, hlt⟩, himage⟩, hst⟩, hhole⟩
    refine ⟨by omega, by omega, ?_, hst, ?_⟩
    · rintro ⟨h₁, h₂⟩
      exact himage h₁ h₂
    · rintro ⟨h₁, h₂⟩
      exact hhole h₁ h₂
  · rintro ⟨h0, hlt, himage, hst, hhole⟩
    exact ⟨⟨⟨⟨by omega, by omega⟩, fun h₁ h₂ => himage ⟨h₁, h₂⟩⟩, hst⟩,
      fun h₁ h₂ => hhole ⟨h₁, h₂⟩⟩

end Ordered

end Layout

end PagedKernel
