import PagedKernel.Proofs.Process.Build

/-!
# What a process sees of its memory

A process sees what its pages allow and what they hold, and not which frames they are mapped to.

* `Memory.viewAt root n`         what there is to see of page `n`
* `Shows l r n x mem mem'`       page `n` of a process now shows `x`, and nothing else that it sees
  has changed
* `NewPage.shows`, `AddressSpace.Mapped.shows`   what is seen of a page that was mapped
-/

namespace PagedKernel

variable {l : Layout} {kr r f : Frame} {procs others : Finset Frame} {owed : List Frame}
  {mem mem' mem'' : Memory} {n : Nat} {p : Permissions} {d : FrameData}

/-- what there is to see of page `n`: what it allows, and what it holds -/
def Memory.viewAt (mem : Memory) (root : Frame) (n : Nat) : Option (Permissions × FrameData) :=
  (mem.pageAt root n).map fun x => (x.2, mem.data x.1)

/-- the frame of the console -/
def Layout.consoleFrame (l : Layout) : Frame :=
  Page.ofNumber (UInt64.ofNat l.consolePage)

theorem Memory.viewAt_of_pageAt (h : mem.pageAt r n = some (f, p)) :
    mem.viewAt r n = some (p, mem.data f) := by
  rw [viewAt, h, Option.map_some]

theorem Memory.viewAt_of_none (h : mem.pageAt r n = none) : mem.viewAt r n = none := by
  rw [viewAt, h, Option.map_none]

theorem Memory.pageAt_of_viewAt_none (h : mem.viewAt r n = none) : mem.pageAt r n = none :=
  Option.map_eq_none_iff.1 h

/-- a page that is mapped where it was shows what it showed, if its frame holds what it held -/
theorem Memory.viewAt_congr (hpage : mem'.pageAt r n = mem.pageAt r n)
    (hdata : ∀ f p, mem.pageAt r n = some (f, p) → mem'.data f = mem.data f) :
    mem'.viewAt r n = mem.viewAt r n := by
  cases h : mem.pageAt r n with
  | none => rw [viewAt_of_none h, viewAt_of_none (hpage.trans h)]
  | some x => rw [viewAt_of_pageAt h, viewAt_of_pageAt (hpage.trans h), hdata _ _ h]

theorem Memory.pageAt_contents (h : mem'.contents = mem.contents) (r : Frame) (n : Nat) :
    mem'.pageAt r n = mem.pageAt r n :=
  pageAt_congr (fun t _ => data_congr h t) n

theorem Memory.viewAt_contents (h : mem'.contents = mem.contents) (r : Frame) (n : Nat) :
    mem'.viewAt r n = mem.viewAt r n :=
  viewAt_congr (pageAt_contents h r n) fun f _ _ => data_congr h f

theorem Keeps.viewAt (h : Keeps l kr others mem mem') (hr : r ∈ others) (h₁ : l.firstPage ≤ n)
    (h₂ : n < l.endPage) : mem'.viewAt r n = mem.viewAt r n :=
  Memory.viewAt_congr (h.pageAt (Finset.mem_insert_of_mem hr) n) fun f p hx =>
    h.pages r hr n f p h₁ h₂ hx

/-! ## frames that are never handed out -/

theorem NewPage.keepsReserved (h : NewPage (insert kr procs) r n p d mem mem')
    (hs : Sound l kr procs owed mem) (hr : r ∈ insert kr procs) : KeepsReserved l mem mem' := by
  obtain ⟨f, mem₁, hclaimed, -, hmapped⟩ := h
  exact (KeepsReserved.of_claimed hclaimed hs).trans
    (.of_grown hmapped.grown (hclaimed.sound hs) hr)

/-- the console is never handed out -/
theorem Layout.Ordered.isAllocatable_console (hl : l.Ordered) :
    l.isAllocatable l.consoleFrame.base = .ok false := by
  have hconsole := hl.consolePage_lt
  have hfirst := hl.firstPage_lt
  have hend := hl.endPage_le
  have hnumber : l.consoleFrame.number.toNat = l.consolePage := Page.toNat_ofNumber (by omega)
  have hnot : ¬ l.isAllocatable l.consoleFrame.base = .ok true := by
    rw [hl.isAllocatable_iff, hnumber, ← hl.console_eq]
    exact fun hyes => hyes.2.2.2.2
      ⟨UInt64.le_iff_toNat_le.1 hl.hole_console, UInt64.lt_iff_toNat_lt.1 hl.console_hole⟩
  rw [hl.isAllocatable_eq] at hnot ⊢
  exact congrArg _ (Bool.not_eq_true _ ▸ mt (congrArg Except.ok) hnot)

/-! ## pages that show something else -/

/-- page `n` of the process of `r` shows `x`, and nothing else that it sees has changed -/
structure Shows (l : Layout) (r : Frame) (n : Nat) (x : Option (Permissions × FrameData))
    (mem mem' : Memory) : Prop where
  pages : ∀ k, l.firstPage ≤ k → k < l.endPage →
    mem'.viewAt r k = if k = n then x else mem.viewAt r k
  reserved : KeepsReserved l mem mem'

namespace Shows

theorem refl : Shows l r n (mem.viewAt r n) mem mem := by
  refine ⟨fun k _ _ => ?_, .refl⟩
  split
  · next heq => rw [heq]
  · rfl

theorem of_contents {x : Option (Permissions × FrameData)} (h : Shows l r n x mem' mem'')
    (hcontents : mem'.contents = mem.contents) : Shows l r n x mem mem'' := by
  refine ⟨fun k h₁ h₂ => ?_, (KeepsReserved.of_data (Memory.data_congr hcontents)).trans h.reserved⟩
  rw [h.pages k h₁ h₂, Memory.viewAt_contents hcontents]

theorem contents {x : Option (Permissions × FrameData)} (h : Shows l r n x mem mem')
    (hcontents : mem''.contents = mem'.contents) : Shows l r n x mem mem'' := by
  refine ⟨fun k h₁ h₂ => ?_, h.reserved.trans (.of_data (Memory.data_congr hcontents))⟩
  rw [Memory.viewAt_contents hcontents, h.pages k h₁ h₂]

end Shows

theorem NewPage.shows (h : NewPage (insert kr procs) r n p d mem mem')
    (hs : Sound l kr procs owed mem) (hr : r ∈ procs) (hn : n < 2 ^ 36) :
    Shows l r n (some (p, d)) mem mem' := by
  have hend := hs.ordered.endPage_le
  obtain ⟨f, -, -, -, hd, hpages⟩ := h.page hs (Sound.root_mem hr) hn
  refine ⟨fun k h₁ h₂ => ?_, h.keepsReserved hs (Sound.root_mem hr)⟩
  have hk := hpages k (by omega)
  split
  · next heq =>
    rw [if_pos heq] at hk
    rw [Memory.viewAt_of_pageAt hk, hd]
  · next hne =>
    rw [if_neg hne] at hk
    refine Memory.viewAt_congr hk fun g q hx => ?_
    obtain ⟨hcount, -, hnot⟩ := hs.of_page hr h₁ h₂ hx
    exact h.data_of_count hs (Sound.root_mem hr) hcount (hnot r (Sound.root_mem hr))

/-- a page that was mapped to a frame in use shows what the frame holds -/
theorem AddressSpace.Mapped.shows
    (h : AddressSpace.Mapped (insert kr procs) r n (some (f, p)) mem mem')
    (hs : Sound l kr procs owed mem) (hr : r ∈ procs) (hn : n < 2 ^ 36)
    (hf : l.firstPage ≤ n → mem.count f ≠ 0 ∧ ¬ mem.IsTable r f) :
    Shows l r n (some (p, mem.data f)) mem mem' := by
  have hend := hs.ordered.endPage_le
  refine ⟨fun k h₁ h₂ => ?_, .of_grown h.grown hs (Sound.root_mem hr)⟩
  have hk := h.page_of_lt hn (show k < 2 ^ 36 by omega)
  split
  · next heq =>
    subst heq
    rw [if_pos rfl] at hk
    rw [Memory.viewAt_of_pageAt hk, h.grown.data_of_count (hf h₁).2 (hf h₁).1]
  · next hne =>
    rw [if_neg hne] at hk
    refine Memory.viewAt_congr hk fun g q hx => ?_
    obtain ⟨hcount, -, hnot⟩ := hs.of_page hr h₁ h₂ hx
    exact h.grown.data_of_count (hnot r (Sound.root_mem hr)) hcount

end PagedKernel
