import Mathlib.Tactic.IntervalCases
import PagedKernel.Proofs.Paging.Forest

/-!
# Entries in memory

An entry of a table is eight bytes, the least significant first.  What is written as an entry is
what is read again, and nothing else is touched: neither the entries beside it nor other frames.

* `FrameData.byte_setWord`    the bytes of a frame after a word of it is replaced
* `Memory.Rewritten`          one entry of one table is replaced
* `Machine.setEntry_rewritten`   writing an entry does that
* `Machine.codes_entries`     what is read of the entries that map frames and link to tables
-/

namespace PagedKernel

/-! ## the bytes of a word -/

namespace FrameData

theorem byte_setByte (f : FrameData) (i : Fin 4096) (b : UInt8) (j : Nat) :
    (f.setByte i b).byte j = if j = i.val then b else f.byte j := by
  by_cases hj : j < 4096
  · have hsize : i.val < f.bytes.data.size := by
      rw [ByteArray.size_data, f.size_bytes]
      exact i.isLt
    rw [byte_of_lt _ hj, byte_of_lt _ hj]
    by_cases h : j = i.val
    · subst h
      rw [if_pos rfl]
      exact Array.getElem_set_self hsize
    · rw [if_neg h]
      exact Array.getElem_set_ne hsize _ (Ne.symm h)
  · have hne : j ≠ i.val := fun e => hj (e ▸ i.isLt)
    rw [byte_of_le _ (Nat.le_of_not_lt hj), byte_of_le _ (Nat.le_of_not_lt hj), if_neg hne]

theorem byte_setWordByte (f : FrameData) (i : Fin 512) (k : Fin 8) (w : UInt64) (j : Nat) :
    (f.setWordByte i k w).byte j = if j = i.val * 8 + k.val then w.toUInt8 else f.byte j :=
  f.byte_setByte _ _ j

/-- byte `k` of a word, the least significant one being byte 0 -/
def wordDigit (w : UInt64) (k : Nat) : UInt8 := UInt8.ofNat (w.toNat / 256 ^ k)

theorem toUInt8_div (w d : UInt64) {k : Nat} (hd : d.toNat = 256 ^ k) :
    (w / d).toUInt8 = wordDigit w k := by
  apply UInt8.toNat.inj
  rw [wordDigit, UInt64.toNat_toUInt8, UInt64.toNat_div, UInt8.toNat_ofNat', hd]

theorem toUInt8_eq (w : UInt64) : w.toUInt8 = wordDigit w 0 := by
  rw [← toUInt8_div w 1 rfl, UInt64.div_one]

/-- replacing a word changes its eight bytes and no others -/
theorem byte_setWord (f : FrameData) (i : Fin 512) (w : UInt64) (j : Nat) :
    (f.setWord i w).byte j =
      if i.val * 8 ≤ j ∧ j < i.val * 8 + 8 then wordDigit w (j - i.val * 8) else f.byte j := by
  simp only [setWord, byte_setWordByte]
  by_cases h : i.val * 8 ≤ j ∧ j < i.val * 8 + 8
  · obtain ⟨k, rfl⟩ : ∃ k : Fin 8, j = i.val * 8 + k.val :=
      ⟨⟨j - i.val * 8, by omega⟩, (Nat.add_sub_of_le h.1).symm⟩
    have hplace : ∀ l : Fin 8, i.val * 8 + k.val = i.val * 8 + l.val ↔ k = l := fun l => by omega
    simp only [hplace]
    rw [if_pos h, Nat.add_sub_cancel_left, toUInt8_eq w, toUInt8_div w 0x100 (k := 1) rfl,
      toUInt8_div w 0x10000 (k := 2) rfl, toUInt8_div w 0x1000000 (k := 3) rfl,
      toUInt8_div w 0x100000000 (k := 4) rfl, toUInt8_div w 0x10000000000 (k := 5) rfl,
      toUInt8_div w 0x1000000000000 (k := 6) rfl, toUInt8_div w 0x100000000000000 (k := 7) rfl]
    obtain ⟨k, hk⟩ := k
    interval_cases k <;> rfl
  · have hne : ∀ k : Fin 8, j ≠ i.val * 8 + k.val := fun k => by omega
    simp only [hne, if_false, if_neg h]

end FrameData

/-! ## writing an entry -/

namespace Memory

variable {mem : Memory} {t : Frame}

/-- entry `i` of the table in `t` is `e` now, and nothing else has changed -/
structure Rewritten (t : Frame) (i : TableIndex) (e : PageEntry) (mem mem' : Memory) : Prop where
  entry : mem'.entry t i = .ok e
  others : ∀ j, j ≠ i → mem'.entry t j = mem.entry t j
  frames : ∀ f, f ≠ t → mem'.frame f = mem.frame f
  /-- the entry is eight bytes, and the only ones that may differ -/
  bytes : ∀ pa, mem'.byte? pa =
    if t.base.value.toNat + 8 * i.val ≤ pa ∧ pa < t.base.value.toNat + 8 * i.val + 8 then
      some (FrameData.wordDigit e.bits (pa - (t.base.value.toNat + 8 * i.val)))
    else mem.byte? pa
  ledger : mem'.ledger = mem.ledger

theorem byte?_setWord (ht : mem.hasFrame t = true) (i : TableIndex) (w : UInt64) (pa : Nat) :
    (mem.modifyFrame t.number.toNat fun d => d.setWord i w).byte? pa =
      if t.base.value.toNat + 8 * i.val ≤ pa ∧ pa < t.base.value.toNat + 8 * i.val + 8 then
        some (FrameData.wordDigit w (pa - (t.base.value.toNat + 8 * i.val)))
      else mem.byte? pa := by
  have hbase := t.toNat_base
  by_cases hpage : pa / 4096 = t.number.toNat
  · have hpa : pa = 4096 * t.number.toNat + pa % 4096 := by omega
    have hin : pa % 4096 < 4096 := Nat.mod_lt _ (by decide)
    rw [byte?_eq (by rw [hasFrame_modifyFrame]; exact ht) hpa hin, byte?_eq ht hpa hin,
      data_modifyFrame ht, if_pos rfl, FrameData.byte_setWord]
    by_cases hword : i.val * 8 ≤ pa % 4096 ∧ pa % 4096 < i.val * 8 + 8
    · have hdigit : pa % 4096 - i.val * 8 = pa - (t.base.value.toNat + 8 * i.val) := by omega
      rw [if_pos hword, if_pos (by omega), hdigit]
    · rw [if_neg hword, if_neg (by omega)]
  · have hout : ¬ (t.base.value.toNat + 8 * i.val ≤ pa ∧
        pa < t.base.value.toNat + 8 * i.val + 8) := by omega
    rw [if_neg hout]
    simp only [byte?, modifyFrame, Array.getElem?_modify, if_neg (Ne.symm hpage)]

theorem rewritten_modifyFrame (ht : mem.hasFrame t = true) (i : TableIndex) (e : PageEntry) :
    Rewritten t i e mem (mem.modifyFrame t.number.toNat fun d => d.setWord i e.bits) := by
  have htable : (mem.modifyFrame t.number.toNat fun d => d.setWord i e.bits).hasFrame t = true := by
    rw [hasFrame_modifyFrame]
    exact ht
  constructor
  case entry =>
    rw [entry_eq htable, entryAt_eq, data_modifyFrame ht, if_pos rfl, FrameData.word_setWord]
  case others =>
    intro j hj
    rw [entry_eq htable, entry_eq ht, entryAt_eq, entryAt_eq, data_modifyFrame ht, if_pos rfl,
      FrameData.word_setWord_of_ne _ hj]
  case frames =>
    intro f hf
    by_cases hin : mem.hasFrame f = true
    · rw [frame_eq hin, frame_eq (by rw [hasFrame_modifyFrame]; exact hin), data_modifyFrame ht,
        if_neg hf]
    · rw [hasFrame_iff] at hin
      rw [frame, frame, dif_neg hin, dif_neg (by simp only [modifyFrame, Array.size_modify]; exact hin)]
  case bytes => exact byte?_setWord ht i e.bits
  case ledger => rfl

end Memory

/-- writing an entry replaces it and nothing else -/
theorem Machine.setEntry_rewritten (m : Machine) {t : Frame} (ht : m.hasFrame t = true)
    (i : TableIndex) (e : PageEntry) :
    ∃ mem, setEntry t i e m = .ok () { m with toMemory := mem } ∧
      m.toMemory.Rewritten t i e mem := by
  refine ⟨_, ?_, Memory.rewritten_modifyFrame ht i e⟩
  show (if m.hasFrame t then update fun mem => mem.modifyFrame t.number.toNat fun d =>
    d.setWord i e.bits else Action.panic .outOfRange : Action Machine Unit) m = _
  rw [if_pos ht]
  rfl

/-- What is written as an entry is what is read there, and all else is read as before.  The entry
of a mapping keeps the frame and the three lowest bits of the permissions, that of a link keeps the
frame and allows everything, and neither is that of a large page. -/
theorem Machine.codes_entries (m : Machine) {t : Frame} (ht : m.hasFrame t = true)
    (i : TableIndex) :
    (∀ e, ∃ mem, setEntry t i e m = .ok () { m with toMemory := mem } ∧
      m.toMemory.Rewritten t i e mem) ∧
    ∀ f : Frame, f.number.toNat < 2 ^ 40 →
      (∀ p : Permissions, ∃ e mem, PageEntry.leaf f p = .ok e ∧
        setEntry t i e m = .ok () { m with toMemory := mem } ∧ m.toMemory.Rewritten t i e mem ∧
        e.frame = f ∧ e.permissions = ⟨p.bits &&& 7⟩ ∧ e.largePage = false) ∧
      ∃ e mem, PageEntry.table f = .ok e ∧
        setEntry t i e m = .ok () { m with toMemory := mem } ∧ m.toMemory.Rewritten t i e mem ∧
        e.frame = f ∧ e.permissions = .userReadWrite ∧ e.largePage = false := by
  refine ⟨m.setEntry_rewritten ht i, fun f hf => ⟨fun p => ?_, ?_⟩⟩
  · obtain ⟨mem, hset, hmem⟩ := m.setEntry_rewritten ht i (.mapping f p)
    refine ⟨_, mem, PageEntry.leaf_eq hf p, hset, hmem, PageEntry.frame_mapping hf, ?_,
      PageEntry.largePage_mapping hf⟩
    rw [PageEntry.permissions_mapping hf, Permissions.core_eq]
  · obtain ⟨mem, hset, hmem⟩ := m.setEntry_rewritten ht i (.linkTo f)
    refine ⟨_, mem, PageEntry.table_eq hf, hset, hmem, PageEntry.frame_mapping hf, ?_,
      PageEntry.largePage_mapping hf⟩
    rw [PageEntry.linkTo, PageEntry.permissions_mapping hf]
    rfl

/-- permissions with all bits set, written into the last entry of the last frame -/
theorem Machine.codes_entries_last : ∃ (m : Machine) (t f : Frame) (e : PageEntry) (mem : Memory),
    m.frameCount = 2 ∧ m.hasFrame t = true ∧ f.number.toNat < 2 ^ 40 ∧
    setEntry t 511 e m = .ok () { m with toMemory := mem } ∧ mem.entry t 511 = .ok e ∧
    e.frame = f ∧ e.permissions = ⟨7⟩ ∧ mem.entry t 510 = m.entry t 510 := by
  let m : Machine :=
    { contents := #[.zero, .zero], ledger := ⟨#[⟨0, false⟩, ⟨0, false⟩]⟩, size_ledger := rfl }
  have ht : m.hasFrame (.ofNumber 1) = true := by decide
  have hf : (Page.ofNumber 0xFFFFFFFFFF : Frame).number.toNat < 2 ^ 40 := by decide
  obtain ⟨e, mem, -, hset, hmem, hframe, hpermissions, -⟩ :=
    ((m.codes_entries ht 511).2 _ hf).1 ⟨0xFF⟩
  exact ⟨m, _, _, e, mem, rfl, ht, hf, hset, hmem.entry, hframe, hpermissions,
    hmem.others 510 (by decide)⟩

end PagedKernel
