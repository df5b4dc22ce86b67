import PagedKernel.Proofs.Memory.Initial
import PagedKernel.Proofs.Memory.Operations

/-!
# The ledger counts the references that are out

A ledger is asked to hand out frames, to add references and to take them back.  Whatever it has been
asked, the count of a frame is the number of its references that are out, and nothing but these
counts decides what it answers next.

* `LedgerCall`, `LedgerEvent`   what is asked of a ledger, and the same with its answer
* `Layout.Offers`               a frame lies in memory and may be handed out
* `Ledger.References`           what the calls that have been answered say of a ledger
* `Ledger.counts_references`    it holds after any calls, on any layout
-/

namespace PagedKernel

/-- what is asked of a ledger -/
inductive LedgerCall where
  | allocate
  | retain (f : Frame)
  | release (f : Frame)
  deriving DecidableEq

/-- a call of a ledger, with its answer -/
inductive LedgerEvent where
  | allocated (f? : Option Frame)
  | retained (f : Frame) (result : Except FrameError Nat)
  | released (f : Frame) (result : Except FrameError Nat)

namespace LedgerEvent

/-- `f` was handed out -/
def handsOut (f : Frame) : LedgerEvent → Bool
  | allocated (some g) => g = f
  | _ => false

/-- a reference to `f` was added -/
def adds (f : Frame) : LedgerEvent → Bool
  | retained g (.ok _) => g = f
  | _ => false

/-- a reference to `f` was taken back; the first frame has none -/
def takesBack (f : Frame) : LedgerEvent → Bool
  | released g (.ok _) => g = f && !g.base.isNull
  | _ => false

/-- no frame was handed out, or the call was refused -/
def fails : LedgerEvent → Bool
  | allocated f? => f?.isNone
  | retained _ result | released _ result => !result.isOk

end LedgerEvent

/-- a frame lies in memory and may be handed out -/
def Layout.Offers (layout : Layout) (f : Frame) : Prop :=
  f.number.toNat < layout.frameCount ∧ layout.isAllocatable f.base = .ok true

namespace Ledger

/-- answer a call; one that is refused leaves the ledger as it was -/
def perform (l : Ledger) : LedgerCall → LedgerEvent × Ledger
  | .allocate =>
    match l.allocate with
    | some (f, l') => (.allocated (some f), l')
    | none => (.allocated none, l)
  | .retain f =>
    match l.retain f with
    | .ok (n, l') => (.retained f (.ok n), l')
    | .error e => (.retained f (.error e), l)
  | .release f =>
    match l.release f with
    | .ok (n, l') => (.released f (.ok n), l')
    | .error e => (.released f (.error e), l)

/-- answer calls one after another: what happened, the latest first, and the ledger that is left -/
def performAll (l : Ledger) (calls : List LedgerCall) : List LedgerEvent × Ledger :=
  calls.foldl (fun (past, l) call => ((l.perform call).1 :: past, (l.perform call).2)) ([], l)

/-- the number of frames that are referred to -/
def usedCount (l : Ledger) : Nat :=
  (List.range l.size).countP fun n => 0 < l.count (Page.ofNumber (UInt64.ofNat n))

/-- what the calls that have been answered say of a ledger -/
structure References (layout : Layout) (past : List LedgerEvent) (l : Ledger) : Prop where
  /-- a frame counts the references that were given and not taken back -/
  count : ∀ f, l.count f + past.countP (LedgerEvent.takesBack f)
    = past.countP (LedgerEvent.handsOut f) + past.countP (LedgerEvent.adds f)
  /-- nobody refers to a frame that is never handed out -/
  reserved : ∀ f, ¬ layout.Offers f → l.count f = 0
  /-- a frame that may be handed out is free or referred to -/
  balance : l.freeCount + l.usedCount = (List.range layout.frameCount).countP layout.isUsable
  /-- the frame that is handed out is the first to which nobody refers -/
  allocate : ∀ f, (l.perform .allocate).1 = .allocated (some f) ↔
    (layout.Offers f ∧ l.count f = 0) ∧
      ∀ g, layout.Offers g → l.count g = 0 → f.number.toNat ≤ g.number.toNat
  exhausted : (l.perform .allocate).1 = .allocated none ↔ ∀ f, layout.Offers f → 0 < l.count f
  /-- a reference is added to a frame that has one already, up to the limit of all counts -/
  retain : ∀ f n, (l.perform (.retain f)).1 = .retained f (.ok n) ↔
    layout.Offers f ∧ 0 < l.count f ∧ l.count f ≠ maxCount ∧ n = l.count f + 1
  /-- a reference is taken back from a frame that has one -/
  release : ∀ f n, f.number.toNat ≠ 0 → ((l.perform (.release f)).1 = .released f (.ok n) ↔
    layout.Offers f ∧ 0 < l.count f ∧ n + 1 = l.count f)
  /-- the first frame can be given up at any time, and that does nothing -/
  releaseNull : ∀ f, f.number.toNat = 0 → l.perform (.release f) = (.released f (.ok 0), l)
  /-- a call that fails does nothing -/
  unchanged : ∀ call, (l.perform call).1.fails = true → (l.perform call).2 = l
  retainError : ∀ f e, (l.perform (.retain f)).1 = .retained f (.error e) ↔
    e = .notAllocatable f.base ∧ ¬ layout.Offers f ∨
    e = .notAllocated f.base ∧ layout.Offers f ∧ l.count f = 0 ∨
    e = .countLimit f.base ∧ layout.Offers f ∧ l.count f = maxCount
  releaseError : ∀ f e, f.number.toNat ≠ 0 →
    ((l.perform (.release f)).1 = .released f (.error e) ↔
      e = .notAllocatable f.base ∧ ¬ layout.Offers f ∨
      e = .notAllocated f.base ∧ layout.Offers f ∧ l.count f = 0)

/-! ## one call -/

variable {layout : Layout} {l : Ledger} {f g : Frame} {past : List LedgerEvent}

theorem managed_of_not (hf : l.isAllocatable f = false) :
    l.managed f = .error (.notAllocatable f.base) := by
  unfold managed isAllocatable at *
  cases hs : l.slot? f with
  | none => rfl
  | some s =>
    rw [hs, Option.map_some, Option.getD_some, Bool.not_eq_false'] at hf
    exact if_pos hf

theorem retained_eq_ite (l : Ledger) (f : Frame) :
    l.retained f =
      if l.isAllocatable f = true then
        if l.count f = 0 then .error (.notAllocated f.base)
        else if l.count f = maxCount then .error (.countLimit f.base)
        else .ok (l.count f + 1)
      else .error (.notAllocatable f.base) := by
  unfold retained
  split
  · next hf =>
    obtain ⟨s, hs, hcount⟩ := managed_eq hf
    rw [hs, ok_bind, hcount]
  · next hf =>
    rw [managed_of_not (Bool.eq_false_iff.2 hf)]
    rfl

theorem released_eq_ite (l : Ledger) (f : Frame) :
    l.released f =
      if l.isAllocatable f = true then
        if l.count f = 0 then .error (.notAllocated f.base) else .ok (l.count f - 1)
      else .error (.notAllocatable f.base) := by
  unfold released
  split
  · next hf =>
    obtain ⟨s, hs, hcount⟩ := managed_eq hf
    rw [hs, ok_bind, hcount]
  · next hf =>
    rw [managed_of_not (Bool.eq_false_iff.2 hf)]
    rfl

theorem perform_allocate (l : Ledger) :
    l.perform .allocate
      = (.allocated l.firstFree?, l.firstFree?.elim l fun f => l.setCount f 1) := by
  unfold perform allocate
  cases l.firstFree? <;> rfl

theorem perform_retain (l : Ledger) (f : Frame) :
    l.perform (.retain f)
      = (.retained f (l.retained f), (l.retained f).toOption.elim l (l.setCount f)) := by
  simp only [perform, retain]
  cases l.retained f <;> rfl

theorem perform_release (l : Ledger) (hf : f.number.toNat ≠ 0) :
    l.perform (.release f)
      = (.released f (l.released f), (l.released f).toOption.elim l (l.setCount f)) := by
  simp only [perform, release]
  rw [if_neg (mt (Frame.isNull_base f).1 hf)]
  cases l.released f <;> rfl

theorem perform_releaseNull (l : Ledger) (hf : f.number.toNat = 0) :
    l.perform (.release f) = (.released f (.ok 0), l) := by
  simp only [perform, release]
  rw [if_pos ((Frame.isNull_base f).2 hf)]

/-- a call that fails does nothing -/
theorem perform_of_fails (l : Ledger) {call : LedgerCall} (h : (l.perform call).1.fails = true) :
    (l.perform call).2 = l := by
  cases call with
  | allocate =>
    rw [perform_allocate] at h ⊢
    cases hfirst : l.firstFree? with
    | none => rfl
    | some f =>
      rw [hfirst] at h
      cases h
  | retain f =>
    rw [perform_retain] at h ⊢
    cases hresult : l.retained f with
    | error e => rfl
    | ok n =>
      rw [hresult] at h
      cases h
  | release f =>
    by_cases hnull : f.number.toNat = 0
    · rw [perform_releaseNull l hnull]
    · rw [perform_release l hnull] at h ⊢
      cases hresult : l.released f with
      | error e => rfl
      | ok n =>
        rw [hresult] at h
        cases h

/-! ## the first free frame -/

theorem frame_of_lt {n : Nat} (hs : l.size ≤ 2 ^ 52) (hn : n < l.size) :
    (Page.ofNumber (UInt64.ofNat n) : Frame).number.toNat = n :=
  Page.toNat_ofNumber (Nat.lt_of_lt_of_le hn hs)

theorem firstFree?_eq_some_iff (hs : l.size ≤ 2 ^ 52) :
    l.firstFree? = some f ↔ (l.isAllocatable f = true ∧ l.count f = 0) ∧
      ∀ g, l.isAllocatable g = true → l.count g = 0 → f.number.toNat ≤ g.number.toNat := by
  unfold firstFree?
  rw [Option.map_eq_some_iff]
  constructor
  · rintro ⟨i, hi, rfl⟩
    obtain ⟨hlt, hfree, hbefore⟩ := Array.findIdx?_eq_some_iff_getElem.1 hi
    have hn := frame_of_lt hs hlt
    have hin : (Page.ofNumber (UInt64.ofNat i) : Frame).number.toNat < l.slots.size := by
      rw [hn]
      exact hlt
    refine ⟨((isFree_slot hin).1 (by simpa only [hn] using hfree)).symm, fun g hg hcount => ?_⟩
    rw [hn]
    exact Nat.le_of_not_lt fun hless =>
      hbefore g.number.toNat hless ((isFree_slot (Nat.lt_trans hless hlt)).2 ⟨hcount, hg⟩)
  · rintro ⟨⟨hf, hcount⟩, hleast⟩
    have hlt := lt_of_isAllocatable hf
    refine ⟨f.number.toNat, Array.findIdx?_eq_some_iff_getElem.2
      ⟨hlt, (isFree_slot hlt).2 ⟨hcount, hf⟩, fun j hj hfree => ?_⟩, ?_⟩
    · have hn := frame_of_lt hs (Nat.lt_trans hj hlt)
      have hin : (Page.ofNumber (UInt64.ofNat j) : Frame).number.toNat < l.slots.size := by
        rw [hn]
        exact Nat.lt_trans hj hlt
      obtain ⟨hc, ha⟩ := (isFree_slot hin).1 (by simpa only [hn] using hfree)
      have hle := hleast _ ha hc
      rw [hn] at hle
      exact Nat.not_le.2 hj hle
    · exact Page.eq_of_toNat (frame_of_lt hs hlt)

theorem firstFree?_eq_none_iff_count (hs : l.size ≤ 2 ^ 52) :
    l.firstFree? = none ↔ ∀ f, l.isAllocatable f = true → 0 < l.count f := by
  constructor
  · intro hnone f hf
    rw [firstFree?_eq_none_iff] at hnone
    refine Nat.pos_of_ne_zero fun hzero => ?_
    exact Nat.ne_of_gt (freeCount_pos hzero hf) hnone
  · intro hall
    cases hfirst : l.firstFree? with
    | none => rfl
    | some f =>
      obtain ⟨hcount, hf⟩ := firstFree?_eq_some hs hfirst
      exact absurd hcount (Nat.ne_of_gt (hall f hf))

/-! ## how many frames are in use -/

theorem countP_slots (hs : l.size ≤ 2 ^ 52) (p : FrameSlot → Bool) :
    l.slots.countP p = (List.range l.size).countP fun n =>
      ((l.slot? (Page.ofNumber (UInt64.ofNat n))).map p).getD false := by
  have hslots : l.slots.toList = (List.range l.size).map fun n =>
      (l.slot? (Page.ofNumber (UInt64.ofNat n))).getD default := by
    refine List.ext_getElem (by simp [size]) fun n hn _ => ?_
    rw [Array.length_toList] at hn
    rw [List.getElem_map, List.getElem_range, slot?, frame_of_lt hs hn,
      Array.getElem?_eq_getElem hn]
    rfl
  rw [← Array.countP_toList, hslots, List.countP_map]
  refine List.countP_congr fun n hn => ?_
  have hlt := List.mem_range.1 hn
  have hslot : l.slot? (Page.ofNumber (UInt64.ofNat n)) = some l.slots[n] := by
    rw [slot?, frame_of_lt hs hlt]
    exact Array.getElem?_eq_getElem hlt
  rw [Function.comp_apply, hslot]
  rfl

theorem usedCount_eq (hs : l.size ≤ 2 ^ 52) :
    l.usedCount = l.slots.countP fun s => 0 < s.count := by
  rw [countP_slots hs, usedCount]
  refine List.countP_congr fun n _ => ?_
  rw [count]
  cases l.slot? (Page.ofNumber (UInt64.ofNat n)) <;> simp

theorem usableCount_eq (hs : l.size ≤ 2 ^ 52) :
    l.usableCount = (List.range l.size).countP fun n =>
      l.isAllocatable (Page.ofNumber (UInt64.ofNat n)) :=
  countP_slots hs _

/-- a frame that can be handed out is free or in use -/
theorem freeCount_add_usedCount (hs : l.size ≤ 2 ^ 52)
    (hreserved : ∀ f, l.isAllocatable f = false → l.count f = 0) :
    l.freeCount + l.usedCount = l.usableCount := by
  have hslot : ∀ s ∈ l.slots.toList, s.reserved = true → s.count = 0 := by
    intro s hs' hr
    obtain ⟨n, hn, rfl⟩ := List.getElem_of_mem hs'
    rw [Array.length_toList] at hn
    have hslot : l.slot? (Page.ofNumber (UInt64.ofNat n)) = some l.slots[n] := by
      rw [slot?, frame_of_lt hs hn]
      exact Array.getElem?_eq_getElem hn
    have hzero := hreserved (Page.ofNumber (UInt64.ofNat n))
    rw [isAllocatable, count, hslot] at hzero
    exact hzero (congrArg not hr)
  have hfree : l.slots.toList.countP FrameSlot.isFree
      = (l.slots.toList.filter fun s => s.count = 0).countP fun s => !s.reserved := by
    rw [List.countP_filter]
    refine List.countP_congr fun s _ => ?_
    simp [FrameSlot.isFree, and_comm]
  have hused : (l.slots.toList.countP fun s => 0 < s.count)
      = (l.slots.toList.filter fun s => !decide (s.count = 0)).countP fun s => !s.reserved := by
    rw [List.countP_filter]
    refine List.countP_congr fun s hs' => ?_
    have := hslot s hs'
    cases hr : s.reserved <;> simp_all [Nat.pos_iff_ne_zero]
  rw [usedCount_eq hs, freeCount, usableCount, ← Array.countP_toList, ← Array.countP_toList,
    ← Array.countP_toList, hfree, hused]
  exact (List.countP_eq_countP_filter_add _ _ _).symm

/-! ## what the calls come to -/

/-- the ledger of a layout after the calls that have been answered: which frames it may hand out is
what the layout says, and the counts are the references that are out -/
structure Tallied (layout : Layout) (past : List LedgerEvent) (l : Ledger) : Prop where
  size : l.size = layout.frameCount
  offers : ∀ f, l.isAllocatable f = true ↔ layout.Offers f
  reserved : ∀ f, l.isAllocatable f = false → l.count f = 0
  count : ∀ f, l.count f + past.countP (LedgerEvent.takesBack f)
    = past.countP (LedgerEvent.handsOut f) + past.countP (LedgerEvent.adds f)

namespace Tallied

theorem size_le (h : Tallied layout past l) : l.size ≤ 2 ^ 52 := by
  rw [h.size, Layout.frameCount]
  have := layout.physicalSize.toNat_lt
  omega

/-- nobody has asked for anything yet -/
theorem initial {l₀ : Ledger} (h : Ledger.ofLayout layout = .ok l₀) : Tallied layout [] l₀ := by
  have husable := fun n => Ledger.isUsable_of_ofLayout (n := n) h
  rw [Ledger.ofLayout_of_isUsable fun n hn => husable n hn] at h
  cases h
  have hslot : ∀ f, (Ledger.initial layout).count f = 0 ∧
      ((Ledger.initial layout).isAllocatable f = true ↔ layout.Offers f) := by
    intro f
    rw [Ledger.count, isAllocatable, Layout.Offers]
    by_cases hf : f.number.toNat < layout.frameCount
    · have hself : (Page.ofNumber (UInt64.ofNat f.number.toNat) : Frame) = f :=
        Page.eq_of_toNat (Page.toNat_ofNumber f.number_lt)
      have hf' := husable _ hf
      rw [hself] at hf'
      rw [Ledger.slot?_initial hf, hf']
      simp [hf]
    · rw [Ledger.slot?_initial_of_le (Nat.le_of_not_lt hf)]
      simp [hf]
  refine ⟨?_, fun f => (hslot f).2, fun f _ => (hslot f).1, fun f => (hslot f).1⟩
  rw [Ledger.size, Ledger.initial, List.size_toArray, List.length_map, List.length_range]

/-- a call that is refused changes no count -/
theorem refused (h : Tallied layout past l) (e : LedgerEvent)
    (he : ∀ g, e.handsOut g = false ∧ e.adds g = false ∧ e.takesBack g = false) :
    Tallied layout (e :: past) l := by
  refine ⟨h.size, h.offers, h.reserved, fun g => ?_⟩
  obtain ⟨hout, hadds, hback⟩ := he g
  rw [List.countP_cons, List.countP_cons, List.countP_cons, hout, hadds, hback]
  exact h.count g

/-- a call that is answered changes the count of one frame, by what happened to it -/
theorem counted (h : Tallied layout past l) (hf : l.isAllocatable f = true) {n : Nat}
    {e : LedgerEvent} (hself : n + (if e.takesBack f then 1 else 0)
      = l.count f + ((if e.handsOut f then 1 else 0) + (if e.adds f then 1 else 0)))
    (hothers : ∀ g, g ≠ f → e.handsOut g = false ∧ e.adds g = false ∧ e.takesBack g = false) :
    Tallied layout (e :: past) (l.setCount f n) := by
  have hcount := fun g => count_setCount (g := g) (lt_of_isAllocatable hf) n
  refine ⟨(size_setCount l f n).trans h.size, fun g => ?_, fun g hg => ?_, fun g => ?_⟩
  · rw [isAllocatable_setCount]
    exact h.offers g
  · rw [isAllocatable_setCount] at hg
    rw [hcount, if_neg fun heq => by rw [heq, hf] at hg; cases hg]
    exact h.reserved g hg
  · have hpast := h.count g
    rw [hcount, List.countP_cons, List.countP_cons, List.countP_cons]
    by_cases hg : g = f
    · subst hg
      rw [if_pos rfl]
      omega
    · obtain ⟨hout, hadds, hback⟩ := hothers g hg
      rw [if_neg hg, hout, hadds, hback]
      exact hpast

theorem perform (h : Tallied layout past l) (call : LedgerCall) :
    Tallied layout ((l.perform call).1 :: past) (l.perform call).2 := by
  cases call with
  | allocate =>
    rw [perform_allocate]
    cases hfirst : l.firstFree? with
    | none => exact h.refused _ fun g => ⟨rfl, rfl, rfl⟩
    | some f =>
      obtain ⟨hcount, hf⟩ := firstFree?_eq_some h.size_le hfirst
      refine h.counted hf ?_ fun g hg => ⟨?_, rfl, rfl⟩
      · simp [LedgerEvent.handsOut, LedgerEvent.adds, LedgerEvent.takesBack, hcount]
      · exact decide_eq_false (Ne.symm hg)
  | retain f =>
    rw [perform_retain, retained_eq_ite]
    split
    · next hf =>
      split
      · exact h.refused _ fun g => ⟨rfl, rfl, rfl⟩
      · split
        · exact h.refused _ fun g => ⟨rfl, rfl, rfl⟩
        · refine h.counted hf ?_ fun g hg => ⟨rfl, ?_, rfl⟩
          · simp [LedgerEvent.handsOut, LedgerEvent.adds, LedgerEvent.takesBack]
          · exact decide_eq_false (Ne.symm hg)
    · exact h.refused _ fun g => ⟨rfl, rfl, rfl⟩
  | release f =>
    by_cases hnull : f.number.toNat = 0
    · rw [perform_releaseNull l hnull]
      refine h.refused _ fun g => ⟨rfl, rfl, ?_⟩
      by_cases hg : f = g
      · subst hg
        simp [LedgerEvent.takesBack, (Frame.isNull_base f).2 hnull]
      · simp [LedgerEvent.takesBack, hg]
    · rw [perform_release l hnull, released_eq_ite]
      split
      · next hf =>
        split
        · exact h.refused _ fun g => ⟨rfl, rfl, rfl⟩
        · next hcount =>
          refine h.counted hf ?_ fun g hg => ⟨rfl, rfl, ?_⟩
          · have hbase : f.base.isNull = false :=
              Bool.eq_false_iff.2 (mt (Frame.isNull_base f).1 hnull)
            simp [LedgerEvent.handsOut, LedgerEvent.adds, LedgerEvent.takesBack, hbase]
            omega
          · simp [LedgerEvent.takesBack, Ne.symm hg]
      · exact h.refused _ fun g => ⟨rfl, rfl, rfl⟩

/-- calls, the latest last -/
theorem performAll {l₀ : Ledger} (h : Ledger.ofLayout layout = .ok l₀) (calls : List LedgerCall) :
    Tallied layout (l₀.performAll calls).1 (l₀.performAll calls).2 := by
  have hrun : ∀ (calls : List LedgerCall) (past : List LedgerEvent) (l : Ledger),
      Tallied layout past l →
        let after := calls.foldl
          (fun (past, l) call => ((l.perform call).1 :: past, (l.perform call).2)) (past, l)
        Tallied layout after.1 after.2 := by
    intro calls
    induction calls with
    | nil => exact fun past l hl => hl
    | cons call rest ih => exact fun past l hl => ih _ _ (hl.perform call)
  exact hrun calls [] l₀ (initial h)

/-! ## what is answered next -/

theorem offers_false (h : Tallied layout past l) : l.isAllocatable f = false ↔ ¬ layout.Offers f := by
  rw [← h.offers, Bool.not_eq_true]

/-- the frames that may be handed out are those that the layout calls usable -/
theorem usableCount_eq (h : Tallied layout past l) :
    l.usableCount = (List.range layout.frameCount).countP layout.isUsable := by
  rw [Ledger.usableCount_eq h.size_le, h.size]
  refine List.countP_congr fun n hn => ?_
  have hlt := List.mem_range.1 hn
  have hnumber := frame_of_lt h.size_le (h.size.symm ▸ hlt)
  rw [h.offers, Layout.Offers, hnumber, Layout.isUsable, and_iff_right hlt]
  cases layout.isAllocatable (Page.ofNumber (UInt64.ofNat n) : Frame).base with
  | error p => exact iff_of_false (by rintro ⟨⟩) (by rintro ⟨⟩)
  | ok b => exact Except.ok.injEq b true ▸ Iff.rfl

theorem retained_ok (h : Tallied layout past l) {n : Nat} :
    l.retained f = .ok n ↔
      layout.Offers f ∧ 0 < l.count f ∧ l.count f ≠ maxCount ∧ n = l.count f + 1 := by
  rw [retained_eq_ite, ← h.offers, Nat.pos_iff_ne_zero]
  split
  · next hf =>
    split
    · next hzero => simp [hzero]
    · next hcount =>
      split
      · next hmax => simp [hmax]
      · next hmax => simp [hf, hcount, hmax, eq_comm]
  · next hf => simp [hf]

theorem retained_error (h : Tallied layout past l) {e : FrameError} :
    l.retained f = .error e ↔
      e = .notAllocatable f.base ∧ ¬ layout.Offers f ∨
      e = .notAllocated f.base ∧ layout.Offers f ∧ l.count f = 0 ∨
      e = .countLimit f.base ∧ layout.Offers f ∧ l.count f = maxCount := by
  rw [retained_eq_ite, ← h.offers]
  split
  · next hf =>
    split
    · next hzero => simp [hf, hzero, eq_comm, maxCount]
    · next hcount =>
      split
      · next hmax => simp [hf, hmax, eq_comm, maxCount]
      · next hmax => simp [hf, hcount, hmax]
  · next hf => simp [hf, eq_comm]

theorem released_ok (h : Tallied layout past l) {n : Nat} :
    l.released f = .ok n ↔ layout.Offers f ∧ 0 < l.count f ∧ n + 1 = l.count f := by
  rw [released_eq_ite, ← h.offers]
  split
  · next hf =>
    split
    · next hzero => simp [hzero]
    · next hcount =>
      simp only [Except.ok.injEq, hf, true_and]
      omega
  · next hf => simp [hf]

theorem released_error (h : Tallied layout past l) {e : FrameError} :
    l.released f = .error e ↔
      e = .notAllocatable f.base ∧ ¬ layout.Offers f ∨
      e = .notAllocated f.base ∧ layout.Offers f ∧ l.count f = 0 := by
  rw [released_eq_ite, ← h.offers]
  split
  · next hf =>
    split
    · next hzero => simp [hf, hzero, eq_comm]
    · next hcount => simp [hf, hcount]
  · next hf => simp [hf, eq_comm]

theorem references (h : Tallied layout past l) : References layout past l where
  count := h.count
  reserved f hf := h.reserved f (h.offers_false.2 hf)
  balance := (freeCount_add_usedCount h.size_le h.reserved).trans h.usableCount_eq
  allocate f := by
    simp only [← h.offers]
    rw [← firstFree?_eq_some_iff h.size_le, perform_allocate, LedgerEvent.allocated.injEq]
  exhausted := by
    simp only [← h.offers]
    rw [← firstFree?_eq_none_iff_count h.size_le, perform_allocate, LedgerEvent.allocated.injEq]
  retain f n := by
    rw [perform_retain, LedgerEvent.retained.injEq, h.retained_ok, eq_self, true_and]
  release f n hf := by
    rw [perform_release l hf, LedgerEvent.released.injEq, h.released_ok, eq_self, true_and]
  releaseNull f hf := perform_releaseNull l hf
  unchanged _ := perform_of_fails l
  retainError f e := by
    rw [perform_retain, LedgerEvent.retained.injEq, h.retained_error, eq_self, true_and]
  releaseError f e hf := by
    rw [perform_release l hf, LedgerEvent.released.injEq, h.released_error, eq_self, true_and]

end Tallied

/-- On every layout for which a ledger can be set up, and after any calls, the count of a frame is
the number of its references that are out.  A frame is handed out when it is the first one of count
zero, references are added to and taken back from frames that have one, and a call that fails does
nothing. -/
theorem counts_references {l₀ : Ledger} (h₀ : Ledger.ofLayout layout = .ok l₀)
    (calls : List LedgerCall) :
    References layout (l₀.performAll calls).1 (l₀.performAll calls).2 :=
  (Tallied.performAll h₀ calls).references

/-- of three frames the first is given up and handed out again; the third is free, and cannot be
referred to -/
theorem counts_references_reused :
    let layout : Layout := { physicalSize := 0x4000 }
    let frame (n : UInt64) : Frame := .ofNumber n
    let after := (Ledger.initial layout).performAll
      [.allocate, .allocate, .retain (frame 1), .release (frame 1), .release (frame 1),
        .release (frame 1), .allocate, .retain (frame 3), .retain (frame 4), .release (frame 0)]
    Ledger.ofLayout layout = .ok (Ledger.initial layout) ∧
      after.1 = [.released (frame 0) (.ok 0),
        .retained (frame 4) (.error (.notAllocatable ⟨0x4000⟩)),
        .retained (frame 3) (.error (.notAllocated ⟨0x3000⟩)),
        .allocated (some (frame 1)),
        .released (frame 1) (.error (.notAllocated ⟨0x1000⟩)),
        .released (frame 1) (.ok 0), .released (frame 1) (.ok 1), .retained (frame 1) (.ok 2),
        .allocated (some (frame 2)), .allocated (some (frame 1))] ∧
      References layout after.1 after.2 := by
  have hlayout : Ledger.ofLayout { physicalSize := 0x4000 }
      = .ok (Ledger.initial { physicalSize := 0x4000 }) := rfl
  exact ⟨hlayout, by with_unfolding_all rfl, counts_references hlayout _⟩

end Ledger

end PagedKernel
