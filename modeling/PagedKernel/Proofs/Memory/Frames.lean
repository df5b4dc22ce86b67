import Mathlib.Algebra.Group.Nat.Defs
import PagedKernel.Machine
import PagedKernel.Proofs.Ends

/-!
# What a frame holds, and how it is counted

Two views of memory, in which all that happens to it is described: `Memory.data`, what a frame
holds, and `Memory.count`, the references to it.  Neither asks for a frame inside memory.

* `Memory.byte?_address`                               the bytes of a frame are at its addresses
* `Memory.data_modifyFrame`, `Memory.count_setCount`   a change to one frame
* `Ledger.firstFree?_eq_some`, `Ledger.firstFree?_eq_none_iff`   the frame that is handed out next
* `Ledger.freeCount_setCount`                          how many frames are free then
* `Machine.ends_allocate`, …                           how the operations of a machine end
-/

namespace PagedKernel

theorem Page.eq_of_toNat {kind : AddressKind} {p q : Page kind}
    (h : p.number.toNat = q.number.toNat) : p = q :=
  Page.ext (UInt64.toNat.inj h)

theorem Page.toNat_ofNumber {kind : AddressKind} {n : Nat} (h : n < 2 ^ 52) :
    (Page.ofNumber (UInt64.ofNat n) : Page kind).number.toNat = n := by
  simp only [Page.ofNumber, UInt64.toNat_mod, UInt64.toNat_ofNat', UInt64.reduceToNat]
  omega

theorem Address.toNat_page {kind : AddressKind} (a : Address kind) :
    a.page.number.toNat = a.value.toNat / 4096 := by
  rw [Address.page, UInt64.toNat_div]
  rfl

theorem Address.toNat_offset {kind : AddressKind} (a : Address kind) :
    a.offset.toNat = a.value.toNat % 4096 := by
  rw [Address.offset, UInt64.toNat_mod]
  rfl

theorem Frame.isNull_base (f : Frame) : f.base.isNull = true ↔ f.number.toNat = 0 := by
  have hb := f.toNat_base
  rw [Address.isNull, beq_iff_eq, ← UInt64.toNat_inj, hb, UInt64.toNat_zero]
  omega

/-! ## the ledger -/

namespace Ledger

variable {l : Ledger} {f g : Frame}

theorem slot?_setCount (n : Nat) :
    (l.setCount f n).slot? g =
      if f = g then (l.slot? g).map fun s => { s with count := n } else l.slot? g := by
  simp only [slot?, setCount, Array.getElem?_modify]
  by_cases h : f = g
  · rw [if_pos h, if_pos (by rw [h])]
  · rw [if_neg h, if_neg fun e => h (Page.eq_of_toNat e)]

theorem isAllocatable_setCount (n : Nat) :
    (l.setCount f n).isAllocatable g = l.isAllocatable g := by
  unfold isAllocatable
  rw [slot?_setCount]
  by_cases h : f = g
  · rw [if_pos h, Option.map_map]
    rfl
  · rw [if_neg h]

theorem count_setCount (hf : f.number.toNat < l.size) (n : Nat) :
    (l.setCount f n).count g = if g = f then n else l.count g := by
  unfold count
  rw [slot?_setCount]
  by_cases h : f = g
  · subst h
    simp only [if_true, slot?]
    rw [Array.getElem?_eq_getElem hf]
    rfl
  · rw [if_neg h, if_neg (Ne.symm h)]

theorem lt_of_isAllocatable (h : l.isAllocatable f = true) : f.number.toNat < l.size := by
  rcases Nat.lt_or_ge f.number.toNat l.size with hlt | hge
  · exact hlt
  · have : l.slot? f = none := Array.getElem?_eq_none hge
    simp [isAllocatable, this] at h

theorem isFree_slot (hf : f.number.toNat < l.slots.size) :
    (l.slots[f.number.toNat]).isFree = true ↔ l.count f = 0 ∧ l.isAllocatable f = true := by
  have : l.slot? f = some l.slots[f.number.toNat] := Array.getElem?_eq_getElem hf
  simp [FrameSlot.isFree, count, isAllocatable, this]

theorem firstFree?_eq_some (hs : l.size ≤ 2 ^ 52) (h : l.firstFree? = some f) :
    l.count f = 0 ∧ l.isAllocatable f = true := by
  unfold firstFree? at h
  obtain ⟨i, hi, rfl⟩ := Option.map_eq_some_iff.1 h
  obtain ⟨hlt, hfree, -⟩ := Array.findIdx?_eq_some_iff_getElem.1 hi
  have hn : (Page.ofNumber (UInt64.ofNat i) : Frame).number.toNat = i :=
    Page.toNat_ofNumber (Nat.lt_of_lt_of_le hlt hs)
  have hin : (Page.ofNumber (UInt64.ofNat i) : Frame).number.toNat < l.size := by rw [hn]; exact hlt
  rw [← isFree_slot hin]
  simpa only [hn] using hfree

theorem firstFree?_eq_none_iff : l.firstFree? = none ↔ l.freeCount = 0 := by
  unfold firstFree? freeCount
  rw [Option.map_eq_none_iff, Array.findIdx?_eq_none_iff, Array.countP_eq_zero]
  simp only [Bool.not_eq_true]

theorem slots_setCount (hlt : f.number.toNat < l.slots.size) (n : Nat) :
    (l.setCount f n).slots
      = l.slots.set f.number.toNat ⟨n, l.slots[f.number.toNat].reserved⟩ hlt := by
  apply Array.ext_getElem?
  intro i
  simp only [setCount]
  rw [Array.getElem?_modify, Array.getElem?_set]
  by_cases h : f.number.toNat = i
  · subst h
    rw [if_pos rfl, if_pos rfl, Array.getElem?_eq_getElem hlt]
    rfl
  · rw [if_neg h, if_neg h]

/-- a frame that can be handed out is free while its count is zero -/
theorem freeCount_setCount (hf : l.isAllocatable f = true) (n : Nat) :
    (l.setCount f n).freeCount + (if l.count f = 0 then 1 else 0)
      = l.freeCount + if n = 0 then 1 else 0 := by
  have hlt : f.number.toNat < l.slots.size := lt_of_isAllocatable hf
  have hold : (l.slots[f.number.toNat]).isFree = true ↔ l.count f = 0 :=
    (isFree_slot hlt).trans (and_iff_left hf)
  have hnew : FrameSlot.isFree ⟨n, l.slots[f.number.toNat].reserved⟩ = true ↔ n = 0 := by
    have hslot : l.slot? f = some l.slots[f.number.toNat] := Array.getElem?_eq_getElem hlt
    rw [isAllocatable, hslot, Option.map_some, Option.getD_some, Bool.not_eq_true'] at hf
    simp [FrameSlot.isFree, hf]
  have hpos : l.count f = 0 → 0 < l.slots.countP FrameSlot.isFree := fun hc =>
    Array.countP_pos_iff.2 ⟨_, Array.getElem_mem hlt, hold.2 hc⟩
  rw [freeCount, freeCount, slots_setCount hlt, Array.countP_set]
  simp only [hold, hnew]
  split
  · next hc =>
    have := hpos hc
    omega
  · omega

/-- a frame that is handed out is not free any more, and all others stay as they are -/
theorem freeCount_claim (hc : l.count f = 0) (hf : l.isAllocatable f = true) :
    (l.setCount f 1).freeCount + 1 = l.freeCount := by
  have hcount := freeCount_setCount hf 1
  rw [if_pos hc, if_neg Nat.one_ne_zero] at hcount
  exact hcount

/-- a frame that can be handed out, and is not counted, is one of those that are free -/
theorem freeCount_pos (hc : l.count f = 0) (hf : l.isAllocatable f = true) : 0 < l.freeCount := by
  have hclaim := freeCount_claim hc hf
  omega

/-- how many frames are free is seen from the counts -/
theorem freeCount_congr {l' : Ledger} (hs : l.size ≤ 2 ^ 52) (hsize : l'.size = l.size)
    (hcount : ∀ f, l'.count f = l.count f)
    (halloc : ∀ f, l'.isAllocatable f = l.isAllocatable f) : l'.freeCount = l.freeCount := by
  have hslots : l'.slots.map FrameSlot.isFree = l.slots.map FrameSlot.isFree := by
    refine Array.ext (by rw [Array.size_map, Array.size_map]; exact hsize) fun i hi' hi => ?_
    rw [Array.size_map] at hi hi'
    have hn : (Page.ofNumber (UInt64.ofNat i) : Frame).number.toNat = i :=
      Page.toNat_ofNumber (Nat.lt_of_lt_of_le hi hs)
    have hfree := isFree_slot (l := l) (f := Page.ofNumber (UInt64.ofNat i)) (by rw [hn]; exact hi)
    have hfree' :=
      isFree_slot (l := l') (f := Page.ofNumber (UInt64.ofNat i)) (by rw [hn]; exact hi')
    rw [hcount, halloc, ← hfree] at hfree'
    simp only [hn] at hfree'
    rw [Array.getElem_map, Array.getElem_map]
    exact Bool.eq_iff_iff.2 hfree'
  have hid : ∀ m : Ledger, m.freeCount = (m.slots.map FrameSlot.isFree).countP id := fun m => by
    rw [Array.countP_map]
    rfl
  rw [hid, hid, hslots]

end Ledger

/-! ## the views -/

namespace Memory

variable {mem : Memory} {f g : Frame}

/-- what a frame holds; zeroes outside memory -/
def data (mem : Memory) (f : Frame) : FrameData :=
  (mem.contents[f.number.toNat]?).getD .zero

/-- references to a frame -/
def count (mem : Memory) (f : Frame) : Nat := mem.ledger.count f

/-- whether a frame can be handed out at all -/
def manages (mem : Memory) (f : Frame) : Bool := mem.ledger.isAllocatable f

theorem hasFrame_iff : mem.hasFrame f = true ↔ f.number.toNat < mem.contents.size := by
  simp [hasFrame]

theorem hasFrame_of_manages (h : mem.manages f = true) : mem.hasFrame f = true := by
  rw [hasFrame_iff, ← mem.size_ledger]
  exact Ledger.lt_of_isAllocatable h

theorem data_eq (h : f.number.toNat < mem.contents.size) :
    mem.data f = mem.contents[f.number.toNat] := by
  simp [data, h]

theorem data_congr {mem' : Memory} (h : mem'.contents = mem.contents) (f : Frame) :
    mem'.data f = mem.data f := by
  rw [data, data, h]

theorem frame_eq (h : mem.hasFrame f = true) : mem.frame f = .ok (mem.data f) := by
  rw [hasFrame_iff] at h
  simp [frame, h, data_eq]

/-! ### bytes -/

theorem getElem?_contents (f : Frame) :
    mem.contents[f.number.toNat]? =
      if f.number.toNat < mem.contents.size then some (mem.data f) else none := by
  split
  · next h => rw [Array.getElem?_eq_getElem h, data_eq h]
  · next h => exact Array.getElem?_eq_none (Nat.le_of_not_lt h)

/-- the bytes of a frame are those at its addresses -/
theorem byte?_address (mem : Memory) (f : Frame) {offset : UInt64} (hoffset : offset.toNat < 4096) :
    mem.byte? (f.address offset).value.toNat =
      (if f.number.toNat < mem.contents.size then some (mem.data f) else none).map fun d =>
        d.byte offset.toNat := by
  have hnumber := f.number_lt
  have hpa : (f.address offset).value.toNat / 4096 = f.number.toNat ∧
      (f.address offset).value.toNat % 4096 = offset.toNat := by
    simp only [Page.address, UInt64.toNat_add, UInt64.toNat_mul, UInt64.reduceToNat,
      pageNumberBound] at *
    omega
  rw [byte?, hpa.1, hpa.2, getElem?_contents]

theorem byte?_congr {mem' : Memory} (hsize : mem'.contents.size = mem.contents.size)
    (hdata : mem'.data f = mem.data f) {offset : UInt64} (hoffset : offset.toNat < 4096) :
    mem'.byte? (f.address offset).value.toNat = mem.byte? (f.address offset).value.toNat := by
  rw [byte?_address mem' f hoffset, byte?_address mem f hoffset, hsize, hdata]

theorem byte?_eq {pa i : Nat} (hf : mem.hasFrame f = true) (hpa : pa = 4096 * f.number.toNat + i)
    (hi : i < 4096) : mem.byte? pa = some ((mem.data f).byte i) := by
  have hplace : pa / 4096 = f.number.toNat ∧ pa % 4096 = i := by omega
  rw [byte?, hplace.1, hplace.2, getElem?_contents, if_pos (hasFrame_iff.1 hf), Option.map_some]

/-- the byte at an address is that of some frame, or the address lies outside memory -/
theorem byte?_cases (hsize : mem.contents.size ≤ 2 ^ 52) (pa : Nat) :
    mem.contents.size ≤ pa / 4096 ∨
      ∃ f, mem.hasFrame f = true ∧ pa = 4096 * f.number.toNat + pa % 4096 := by
  by_cases hin : pa / 4096 < mem.contents.size
  · have hnumber : (Page.ofNumber (UInt64.ofNat (pa / 4096)) : Frame).number.toNat = pa / 4096 :=
      Page.toNat_ofNumber (by omega)
    refine .inr ⟨.ofNumber (UInt64.ofNat (pa / 4096)), hasFrame_iff.2 ?_, ?_⟩
    · rw [hnumber]
      exact hin
    · rw [hnumber]
      omega
  · exact .inl (Nat.le_of_not_lt hin)

/-! ### changes -/

theorem hasFrame_modifyFrame (i : Nat) (change : FrameData → FrameData) :
    (mem.modifyFrame i change).hasFrame f = mem.hasFrame f := by
  simp [hasFrame, modifyFrame]

theorem data_modifyFrame (hf : mem.hasFrame f = true) (change : FrameData → FrameData) :
    (mem.modifyFrame f.number.toNat change).data g =
      if g = f then change (mem.data g) else mem.data g := by
  rw [hasFrame_iff] at hf
  simp only [data, modifyFrame, Array.getElem?_modify]
  by_cases h : g = f
  · subst h
    simp [hf]
  · rw [if_neg h, if_neg fun e => h (Page.eq_of_toNat e.symm)]

theorem manages_setCount (n : Nat) : (mem.setCount f n).manages g = mem.manages g :=
  Ledger.isAllocatable_setCount n

theorem count_setCount (hf : mem.hasFrame f = true) (n : Nat) :
    (mem.setCount f n).count g = if g = f then n else mem.count g :=
  Ledger.count_setCount (by rw [hasFrame_iff, ← mem.size_ledger] at hf; exact hf) n

theorem data_claim (hf : mem.hasFrame f = true) :
    (mem.claim f).data g = if g = f then .fresh else mem.data g :=
  @data_modifyFrame (mem.setCount f 1) f g hf _

theorem count_claim (hf : mem.hasFrame f = true) :
    (mem.claim f).count g = if g = f then 1 else mem.count g :=
  count_setCount hf 1

theorem manages_claim : (mem.claim f).manages g = mem.manages g :=
  manages_setCount 1

theorem size_claim : (mem.claim f).contents.size = mem.contents.size := by
  simp [claim, modifyFrame, setCount]

end Memory

end PagedKernel
