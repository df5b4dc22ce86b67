import PagedKernel.Proofs.Layout

/-!
# Memory when a machine starts

* `Memory.ofLayout_eq`          every frame is free that may be handed out at all, and holds zeroes
* `Ledger.freeCount_initial`   so many frames are free
* `Layout.le_countP_sized`     all but 130 of the default machine, whatever its size
-/

namespace PagedKernel

theorem mapM_ok {α β : Type} {question : α → Except Panic β} (answer : α → β) (xs : List α)
    (h : ∀ x ∈ xs, question x = .ok (answer x)) : xs.mapM question = .ok (xs.map answer) := by
  induction xs with
  | nil => rfl
  | cons x rest ih =>
    rw [List.mapM_cons, h x List.mem_cons_self, ok_bind,
      ih fun x' hx' => h x' (List.mem_cons_of_mem x hx'), ok_bind, ok_pure, List.map_cons]

theorem answer_of_mapM_ok {α β : Type} {question : α → Except Panic β} {xs : List α} {ys : List β}
    (h : xs.mapM question = .ok ys) : ∀ x ∈ xs, ∃ y, question x = .ok y := by
  induction xs generalizing ys with
  | nil => exact fun x hx => absurd hx List.not_mem_nil
  | cons x rest ih =>
    rw [List.mapM_cons] at h
    cases hx : question x with
    | error p =>
      rw [hx] at h
      cases h
    | ok y =>
      cases hrest : rest.mapM question with
      | error p =>
        rw [hx, ok_bind, hrest] at h
        cases h
      | ok ys' =>
        intro x' hx'
        rcases List.mem_cons.1 hx' with rfl | hmem
        · exact ⟨y, hx⟩
        · exact ih hrest x' hmem

namespace Layout

/-- whether frame `n` may be handed out -/
def isUsable (l : Layout) (n : Nat) : Bool :=
  (l.isAllocatable (Page.ofNumber (UInt64.ofNat n) : Frame).base).toOption.getD false

theorem Ordered.isUsable_eq {l : Layout} (h : l.Ordered) (n : Nat) :
    l.isAllocatable (Page.ofNumber (UInt64.ofNat n) : Frame).base = .ok (l.isUsable n) := by
  rw [isUsable, h.isAllocatable_eq]
  rfl

end Layout

variable {l : Layout} {f : Frame}

/-- the ledger of a machine on which every frame is free -/
def Ledger.initial (l : Layout) : Ledger :=
  ⟨((List.range l.frameCount).map fun i => ⟨0, !l.isUsable i⟩).toArray⟩

theorem Ledger.ofLayout_of_isUsable
    (h : ∀ n < l.frameCount,
      l.isAllocatable (Page.ofNumber (UInt64.ofNat n) : Frame).base = .ok (l.isUsable n)) :
    Ledger.ofLayout l = .ok (Ledger.initial l) := by
  unfold ofLayout
  rw [mapM_ok (fun i => ⟨0, !l.isUsable i⟩) _ fun i hi => by
    dsimp only
    rw [h i (List.mem_range.1 hi), ok_bind, ok_pure], ok_bind, ok_pure]
  rfl

theorem Ledger.ofLayout_eq (h : l.Ordered) : Ledger.ofLayout l = .ok (Ledger.initial l) :=
  Ledger.ofLayout_of_isUsable fun n _ => h.isUsable_eq n

/-- a ledger can only be set up when it is known of each frame whether it may be handed out -/
theorem Ledger.isUsable_of_ofLayout {ledger : Ledger} (h : Ledger.ofLayout l = .ok ledger) {n : Nat}
    (hn : n < l.frameCount) :
    l.isAllocatable (Page.ofNumber (UInt64.ofNat n) : Frame).base = .ok (l.isUsable n) := by
  unfold ofLayout at h
  cases hslots : (List.range l.frameCount).mapM (fun i => do
      let frame : Frame := Page.ofNumber (UInt64.ofNat i)
      return { count := 0, reserved := !(← l.isAllocatable frame.base) : FrameSlot }) with
  | error p =>
    rw [hslots] at h
    cases h
  | ok slots =>
    obtain ⟨slot, hslot⟩ := answer_of_mapM_ok hslots n (List.mem_range.2 hn)
    dsimp only at hslot
    rw [Layout.isUsable]
    cases hb : l.isAllocatable (Page.ofNumber (UInt64.ofNat n) : Frame).base with
    | error p =>
      rw [hb] at hslot
      cases hslot
    | ok b => rfl

theorem Ledger.slot?_initial (hf : f.number.toNat < l.frameCount) :
    (Ledger.initial l).slot? f = some ⟨0, !l.isUsable f.number.toNat⟩ := by
  unfold slot? initial
  rw [List.getElem?_toArray, List.getElem?_map, List.getElem?_range hf, Option.map_some]

theorem Ledger.slot?_initial_of_le (hf : l.frameCount ≤ f.number.toNat) :
    (Ledger.initial l).slot? f = none := by
  unfold slot? initial
  rw [List.getElem?_toArray, List.getElem?_eq_none]
  rw [List.length_map, List.length_range]
  exact hf

namespace Memory

theorem ofLayout_eq (h : l.Ordered) :
    ∃ mem, ofLayout l = .ok mem ∧ mem.ledger = Ledger.initial l ∧
      mem.contents.size = l.frameCount ∧ (∀ f, mem.count f = 0) ∧
      ∀ f, l.isAllocatable f.base = .ok (mem.manages f) := by
  have hsize : (Ledger.initial l).size = l.frameCount := by
    rw [Ledger.size, Ledger.initial, List.size_toArray, List.length_map, List.length_range]
  unfold ofLayout
  rw [Ledger.ofLayout_eq h, ok_bind, ok_pure]
  refine ⟨_, rfl, rfl, ?_, fun f => ?_, fun f => ?_⟩
  · rw [Array.size_replicate, hsize]
  · show (((Ledger.initial l).slot? f).map FrameSlot.count).getD 0 = 0
    by_cases hf : f.number.toNat < l.frameCount
    · rw [Ledger.slot?_initial hf]
      rfl
    · rw [Ledger.slot?_initial_of_le (Nat.le_of_not_lt hf)]
      rfl
  · show _ = Except.ok ((((Ledger.initial l).slot? f).map fun s => !s.reserved).getD false)
    by_cases hf : f.number.toNat < l.frameCount
    · have hself : (Page.ofNumber (UInt64.ofNat f.number.toNat) : Frame) = f := by
        have := h.frameCount_le
        apply Page.eq_of_toNat
        rw [Page.toNat_ofNumber (by omega)]
      have husable := h.isUsable_eq f.number.toNat
      rw [hself] at husable
      rw [husable, Ledger.slot?_initial hf, Option.map_some, Option.getD_some, Bool.not_not]
    · rw [Ledger.slot?_initial_of_le (Nat.le_of_not_lt hf), Option.map_none, Option.getD_none]
      cases hb : l.isAllocatable f.base with
      | error p =>
        rw [h.isAllocatable_eq] at hb
        cases hb
      | ok b =>
        cases b with
        | false => rfl
        | true => exact absurd ((h.isAllocatable_iff f).1 hb).2.1 hf

/-- all of it is zeroes -/
theorem data_ofLayout {mem : Memory} (h : ofLayout l = .ok mem) (f : Frame) :
    mem.data f = .zero := by
  unfold ofLayout at h
  cases hledger : Ledger.ofLayout l with
  | error p =>
    rw [hledger] at h
    cases h
  | ok ledger =>
    rw [hledger] at h
    cases h
    rw [data, Array.getElem?_replicate]
    split <;> rfl

end Memory

/-- so many frames are free when a machine starts -/
theorem Ledger.freeCount_initial (l : Layout) :
    (Ledger.initial l).freeCount = (List.range l.frameCount).countP l.isUsable := by
  rw [freeCount, initial, List.countP_toArray, List.countP_map]
  congr 1
  funext i
  simp [FrameSlot.isFree]

/-! ## the default machine -/

namespace Layout

/-- the default machine with `size` bytes of physical memory -/
def sized (size : UInt64) : Layout := { ({} : Layout) with physicalSize := size }

variable {size : UInt64} {n : Nat}

theorem firstPage_sized : (sized size).firstPage = 256 := by
  show (0x100000 : UInt64).toNat / 4096 = 256
  decide

/-- the frames that are never handed out lie in the first mebibyte -/
theorem isUsable_sized (hl : (sized size).Ordered) (hn : n < (sized size).frameCount) :
    (sized size).isUsable n = true ↔
      n ≠ 0 ∧ ¬ (0x40 ≤ n ∧ n < 0x60) ∧ n ≠ 0x7F ∧ ¬ (0xA0 ≤ n ∧ n < 0x100) := by
  have hle := hl.frameCount_le
  have hiff := hl.isAllocatable_iff (Page.ofNumber (UInt64.ofNat n))
  rw [hl.isUsable_eq, Page.toNat_ofNumber (by omega), Except.ok.injEq] at hiff
  have himage : (sized size).kernelImage.start.toNat = 0x40 * 4096 ∧
      (sized size).kernelImage.stop.toNat = 0x60 * 4096 := ⟨rfl, rfl⟩
  have hstack : (sized size).kernelStackTop.toNat = 0x80 * 4096 := rfl
  have hhole : (sized size).ioHole.start.toNat = 0xA0 * 4096 ∧
      (sized size).ioHole.stop.toNat = 0x100 * 4096 := ⟨rfl, rfl⟩
  rw [hiff, himage.1, himage.2, hstack, hhole.1, hhole.2]
  omega

/-- all frames may be handed out but 130 -/
theorem le_countP_sized (hl : (sized size).Ordered) :
    (sized size).frameCount
      ≤ (List.range (sized size).frameCount).countP (sized size).isUsable + 130 := by
  have hframes := hl.firstPage_le
  rw [firstPage_sized] at hframes
  have hlow : (List.range 256).countP (sized size).isUsable = 126 := by
    have hcongr : (List.range 256).countP (sized size).isUsable = (List.range 256).countP fun n =>
        n ≠ 0 ∧ ¬ (0x40 ≤ n ∧ n < 0x60) ∧ n ≠ 0x7F ∧ ¬ (0xA0 ≤ n ∧ n < 0x100) := by
      refine List.countP_congr fun n hn => ?_
      rw [isUsable_sized hl (Nat.lt_of_lt_of_le (List.mem_range.1 hn) hframes), decide_eq_true_iff]
    rw [hcongr]
    decide +kernel
  generalize hcount : (sized size).frameCount = count at hframes
  obtain ⟨more, rfl⟩ := Nat.exists_eq_add_of_le hframes
  have hhigh : ((List.range more).map (256 + ·)).countP (sized size).isUsable = more := by
    have hall : ∀ n ∈ (List.range more).map (256 + ·), (sized size).isUsable n = true := by
      intro n hn
      obtain ⟨i, hi, rfl⟩ := List.mem_map.1 hn
      have := List.mem_range.1 hi
      exact (isUsable_sized hl (by omega)).2 (by omega)
    rw [List.countP_eq_length.2 hall, List.length_map, List.length_range]
  rw [List.range_add, List.countP_append, hlow, hhigh]
  omega

end Layout

end PagedKernel
