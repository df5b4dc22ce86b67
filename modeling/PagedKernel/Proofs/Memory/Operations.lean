import PagedKernel.Proofs.Memory.Frames

/-!
# How the operations of a machine end

One lemma for each operation: the state of memory that it leaves, in terms of `Memory.claim`,
`Memory.setCount` and `Memory.modifyFrame`, and the condition on which it is left.

* `Machine.ends_allocate`      the free frame of the lowest number, or none when none is free
* `Machine.ends_allocateClear` the same for a frame of zeroes
* `Machine.ends_retain`, `Machine.ends_release`   a reference to a frame that is in use
* `Machine.ends_setFrame`      a change to a frame of memory
-/

namespace PagedKernel

/-! ## counts -/

namespace Ledger

variable {l : Ledger} {f : Frame}

theorem managed_eq (hf : l.isAllocatable f = true) :
    ∃ s : FrameSlot, l.managed f = .ok s ∧ s.count = l.count f := by
  unfold isAllocatable at hf
  cases hs : l.slot? f with
  | none => simp [hs] at hf
  | some s =>
    have hr : s.reserved = false := by simpa [hs] using hf
    exact ⟨s, by simp [managed, hs, hr], by simp [count, hs]⟩

theorem retained_eq (hf : l.isAllocatable f = true) (hc : l.count f ≠ 0)
    (hm : l.count f < maxCount) : l.retained f = .ok (l.count f + 1) := by
  obtain ⟨s, hs, hsc⟩ := managed_eq hf
  rw [← hsc] at hc hm ⊢
  simp only [retained, hs, bind, Except.bind]
  rw [if_neg hc, if_neg (Nat.ne_of_lt hm)]

theorem released_eq (hf : l.isAllocatable f = true) (hc : l.count f ≠ 0) :
    l.released f = .ok (l.count f - 1) := by
  obtain ⟨s, hs, hsc⟩ := managed_eq hf
  rw [← hsc] at hc ⊢
  simp only [released, hs, bind, Except.bind]
  rw [if_neg hc]

end Ledger

/-! ## operations -/

namespace Machine

variable {m : Machine} {f : Frame}

theorem ends_inspect {α : Type} {question : Memory → Except Panic α} {Q : α → Machine → Prop}
    {E : Panic → Machine → Prop} {a : α} (h : question m.toMemory = .ok a) :
    Ends (inspect question) m Q E ↔ Q a m := by
  unfold Ends inspect
  rw [h]

theorem ends_update {change : Memory → Memory} {Q : Unit → Machine → Prop}
    {E : Panic → Machine → Prop} :
    Ends (update change) m Q E ↔ Q () { m with toMemory := change m.toMemory } := Iff.rfl

theorem ends_record {severity : Severity} {target message : String} {Q : Unit → Machine → Prop}
    {E : Panic → Machine → Prop}
    (h : ∀ m' : Machine, m'.toMemory = m.toMemory → Q () m') :
    Ends (record severity target message) m Q E :=
  h _ rfl

theorem ends_setFrame {change : FrameData → FrameData} {Q : Unit → Machine → Prop}
    {E : Panic → Machine → Prop} (hf : m.hasFrame f = true) :
    Ends (setFrame f change) m Q E ↔
      Q () { m with toMemory := m.modifyFrame f.number.toNat change } := by
  unfold setFrame
  rw [ends_bind, ends_get, if_pos hf]
  exact ends_update

theorem ends_clear {Q : Unit → Machine → Prop} {E : Panic → Machine → Prop}
    (hf : m.hasFrame f = true) :
    Ends (clear f) m Q E ↔
      Q () { m with toMemory := m.modifyFrame f.number.toNat fun _ => .zero } :=
  ends_setFrame hf

theorem ends_copyFrame {g : Frame} {Q : Unit → Machine → Prop} {E : Panic → Machine → Prop}
    (hf : m.hasFrame f = true) (hg : m.hasFrame g = true) :
    Ends (copyFrame f g) m Q E ↔
      Q () { m with toMemory := m.modifyFrame g.number.toNat fun _ => m.data f } := by
  unfold copyFrame
  rw [ends_bind, ends_inspect (Memory.frame_eq hf)]
  exact ends_setFrame hg

/-- a frame that is handed out was free; if none is, none was free -/
theorem ends_allocate {Q : Option Frame → Machine → Prop} {E : Panic → Machine → Prop}
    (hs : m.contents.size ≤ 2 ^ 52)
    (some : ∀ f, m.count f = 0 → m.manages f = true →
      Q (some f) { m with toMemory := m.claim f })
    (none : m.ledger.freeCount = 0 → ∀ m' : Machine, m'.toMemory = m.toMemory → Q none m') :
    Ends allocate m Q E := by
  unfold allocate
  rw [ends_bind, ends_get]
  cases hf : m.ledger.firstFree? with
  | none =>
    refine ends_bind.2 (ends_record fun m' hm' => ?_)
    exact none (Ledger.firstFree?_eq_none_iff.1 hf) m' hm'
  | some f =>
    obtain ⟨hc, ha⟩ := Ledger.firstFree?_eq_some (by rw [m.size_ledger]; exact hs) hf
    exact some f hc ha

theorem ends_allocateClear {Q : Option Frame → Machine → Prop} {E : Panic → Machine → Prop}
    (hs : m.contents.size ≤ 2 ^ 52)
    (some : ∀ f, m.count f = 0 → m.manages f = true →
      Q (some f)
        { m with toMemory := (m.claim f).modifyFrame f.number.toNat fun _ => .zero })
    (none : m.ledger.freeCount = 0 → ∀ m' : Machine, m'.toMemory = m.toMemory → Q none m') :
    Ends allocateClear m Q E := by
  refine ends_bind.2 (ends_allocate hs (fun f hc ha => ?_) none)
  have hin : (m.claim f).hasFrame f = true := by
    rw [Memory.hasFrame_iff, Memory.size_claim, ← Memory.hasFrame_iff]
    exact Memory.hasFrame_of_manages ha
  exact ends_bind.2 ((ends_clear hin).2 (some f hc ha))

theorem ends_retain {Q : Unit → Machine → Prop} {E : Stop FrameError → Machine → Prop}
    (hf : m.manages f = true) (hc : m.count f ≠ 0) (hm : m.count f < Ledger.maxCount) :
    Ends (retain f) m Q E ↔ Q () { m with toMemory := m.setCount f (m.count f + 1) } := by
  unfold retain
  rw [ends_bind, ends_get, ends_bind, Ledger.retained_eq hf hc hm, ends_ofResult_ok]
  exact ends_lift.trans ends_update

/-- a frame that can be handed out is not the first one -/
theorem ends_release {Q : Unit → Machine → Prop} {E : Stop FrameError → Machine → Prop}
    (hf : m.manages f = true) (hc : m.count f ≠ 0) (h0 : f.number.toNat ≠ 0) :
    Ends (release f) m Q E ↔ Q () { m with toMemory := m.setCount f (m.count f - 1) } := by
  unfold release
  rw [if_neg fun h => h0 ((Frame.isNull_base f).1 h), ends_bind, ends_get, ends_bind,
    Ledger.released_eq hf hc, ends_ofResult_ok]
  exact ends_lift.trans ends_update

end Machine

end PagedKernel
