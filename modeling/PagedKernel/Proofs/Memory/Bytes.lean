import PagedKernel.Machine
import PagedKernel.Memory.Flat

/-!
# Memory is a run of bytes

Seen as one list of bytes, memory is read by taking a part of the list and written by replacing one.
Where frames begin and end, and how often an access crosses from one into the next, makes no
difference.

* `Memory.flat`            the bytes of all frames, one frame after the other
* `overwrite`              a list of bytes with a part replaced
* `Memory.getElem?_flat`   the byte at an address is that at the same place of the list
* `Memory.flat_writeFrom`, `Memory.toList_readInto`   what writing and reading do, across frames
* `Machine.refines_flat`   reading and writing memory, in terms of the list
-/

namespace PagedKernel

/-- the list with the bytes from place `start` on replaced by `new` -/
def overwrite (bytes : List UInt8) (start : Nat) (new : List UInt8) : List UInt8 :=
  bytes.take start ++ new ++ bytes.drop (start + new.length)

theorem getElem?_overwrite {bytes new : List UInt8} {start : Nat}
    (h : start + new.length ≤ bytes.length) (i : Nat) :
    (overwrite bytes start new)[i]? =
      if start ≤ i ∧ i < start + new.length then new[i - start]? else bytes[i]? := by
  have hstart : (bytes.take start).length = start := List.length_take_of_le (by omega)
  rw [overwrite, List.append_assoc]
  by_cases hbefore : i < start
  · rw [List.getElem?_append_left (by omega), List.getElem?_take_of_lt hbefore,
      if_neg (by omega)]
  · rw [List.getElem?_append_right (by omega), hstart]
    by_cases hin : i < start + new.length
    · rw [List.getElem?_append_left (by omega), if_pos (by omega)]
    · rw [List.getElem?_append_right (by omega), List.getElem?_drop, if_neg (by omega)]
      congr 1
      omega

/-! ## the list -/

namespace FrameData

/-- the bytes of a frame -/
def toList (f : FrameData) : List UInt8 := f.bytes.data.toList

theorem length_toList (f : FrameData) : f.toList.length = 4096 := by
  rw [toList, Array.length_toList, ByteArray.size_data, f.size_bytes]

theorem getElem?_toList (f : FrameData) {i : Nat} (h : i < 4096) :
    f.toList[i]? = some (f.byte i) := by
  rw [f.byte_of_lt h, List.getElem?_eq_getElem (by rw [length_toList]; exact h)]
  rfl

theorem getElem?_read (f : FrameData) {offset n : Nat} (h : offset + n ≤ 4096) (i : Nat) :
    (f.read offset n).data.toList[i]? = if i < n then some (f.byte (offset + i)) else none := by
  have hsize := f.size_read h
  rw [Array.getElem?_toList]
  split
  · next hi =>
    rw [Array.getElem?_eq_getElem (by rw [ByteArray.size_data, hsize]; exact hi)]
    exact congrArg some (f.getElem_read h (by rw [hsize]; exact hi))
  · next hi =>
    exact Array.getElem?_eq_none (by rw [ByteArray.size_data, hsize]; omega)

/-- a place in a row of frames is a place in one of them -/
theorem getElem?_flatMap (frames : List FrameData) (i : Nat) :
    (frames.flatMap toList)[i]? = (frames[i / 4096]?).map fun f => f.byte (i % 4096) := by
  induction frames generalizing i with
  | nil => rfl
  | cons f rest ih =>
    rw [List.flatMap_cons]
    by_cases hi : i < 4096
    · rw [List.getElem?_append_left (by rw [length_toList]; exact hi), f.getElem?_toList hi,
        Nat.div_eq_of_lt hi, Nat.mod_eq_of_lt hi]
      rfl
    · have hdiv : i / 4096 = (i - 4096) / 4096 + 1 := by omega
      have hmod : i % 4096 = (i - 4096) % 4096 := by omega
      rw [List.getElem?_append_right (by rw [length_toList]; omega), length_toList, ih, hdiv, hmod,
        List.getElem?_cons_succ]

end FrameData

namespace Memory

variable {mem : Memory} {pa length : Nat}

/-- the bytes of all frames, one frame after the other -/
def flat (mem : Memory) : List UInt8 :=
  mem.contents.toList.flatMap FrameData.toList

theorem getElem?_flat (mem : Memory) (a : Nat) : mem.flat[a]? = mem.byte? a := by
  rw [flat, FrameData.getElem?_flatMap, Array.getElem?_toList]
  rfl

theorem length_flat (mem : Memory) : mem.flat.length = mem.byteCount := by
  have hsum : ∀ frames : List FrameData,
      (frames.flatMap FrameData.toList).length = 4096 * frames.length := by
    intro frames
    induction frames with
    | nil => rfl
    | cons f rest ih =>
      rw [List.flatMap_cons, List.length_append, f.length_toList, ih, List.length_cons]
      omega
  rw [flat, hsum, Array.length_toList]
  rfl

theorem holds_of_le {a : PhysicalAddress} (h : a.value.toNat + length ≤ mem.byteCount) :
    mem.holds a length = true := by
  simp [holds, h]

/-! ## writing -/

theorem ledger_writeFrom (mem : Memory) (pa : Nat) (bytes : ByteArray) (done : Nat) :
    (mem.writeFrom pa bytes done).ledger = mem.ledger := by
  fun_induction writeFrom mem pa bytes done with
  | case1 => rfl
  | case2 mem pa done hd n ih => exact ih

theorem byteCount_writeFrom (mem : Memory) (pa : Nat) (bytes : ByteArray) (done : Nat) :
    (mem.writeFrom pa bytes done).byteCount = mem.byteCount := by
  fun_induction writeFrom mem pa bytes done with
  | case1 => rfl
  | case2 mem pa done hd n ih => rw [ih, byteCount_modifyFrame]

/-- writing replaces a part of the list -/
theorem flat_writeFrom {new : ByteArray} (h : pa + new.size ≤ mem.byteCount) :
    (mem.writeFrom pa new 0).flat = overwrite mem.flat pa new.data.toList := by
  have hsize : new.data.toList.length = new.size := by
    rw [Array.length_toList, ByteArray.size_data]
  apply List.ext_getElem?
  intro a
  rw [getElem?_flat, byte?_writeFrom mem pa new 0 a h,
    getElem?_overwrite (by rw [hsize, length_flat]; exact h), hsize, getElem?_flat, Nat.sub_zero,
    Nat.zero_add, Array.getElem?_toList]

/-! ## reading -/

/-- what is read of one frame is a part of the list -/
theorem toList_part (h : pa + length ≤ mem.byteCount) (hpage : pa % 4096 + length ≤ 4096)
    (hpos : 0 < length) :
    (((mem.contents[pa / 4096]?).map fun f => f.read (pa % 4096) length).getD
      ByteArray.empty).data.toList = (mem.flat.drop pa).take length := by
  have hin : pa / 4096 < mem.contents.size := by
    simp only [byteCount, pageSize] at h
    omega
  rw [Array.getElem?_eq_getElem hin, Option.map_some, Option.getD_some]
  apply List.ext_getElem?
  intro i
  rw [FrameData.getElem?_read _ hpage, List.getElem?_take]
  split
  · next hi =>
    have hdiv : (pa + i) / 4096 = pa / 4096 := by omega
    have hmod : (pa + i) % 4096 = pa % 4096 + i := by omega
    rw [List.getElem?_drop, getElem?_flat, byte?, hdiv, hmod, Array.getElem?_eq_getElem hin]
    rfl
  · rfl

/-- reading takes a part of the list -/
theorem toList_readInto (mem : Memory) (pa length : Nat) (out : ByteArray)
    (h : pa + length ≤ mem.byteCount) :
    (mem.readInto pa length out).data.toList
      = out.data.toList ++ (mem.flat.drop pa).take length := by
  fun_induction readInto mem pa length out with
  | case1 pa out => rw [List.take_zero, List.append_nil]
  | case2 pa length out hne n part ih =>
    have hn : n = min length (4096 - pa % 4096) := rfl
    have hpart : part.data.toList = (mem.flat.drop pa).take n :=
      toList_part (by omega) (by omega) (by omega)
    have hall : (mem.flat.drop pa).take length
        = (mem.flat.drop pa).take n ++ (mem.flat.drop (pa + n)).take (length - n) := by
      rw [← List.drop_drop, ← List.take_add]
      congr 1
      omega
    rw [ih (by omega), ByteArray.data_append, Array.toList_append, hpart, List.append_assoc, hall]

theorem read_eq_ok {a : PhysicalAddress} (h : a.value.toNat + length ≤ mem.byteCount) :
    ∃ out, mem.read a length = .ok out ∧
      out.data.toList = (mem.flat.drop a.value.toNat).take length := by
  refine ⟨_, if_pos (holds_of_le h), ?_⟩
  rw [toList_readInto mem _ _ _ h]
  rfl

end Memory

/-! ## reading and writing -/

/-- writing replaces a part of memory and leaves all else as it is, and reading takes a part of it.
What is read after a write is what was written, where it was written, and what was there before
elsewhere. -/
theorem Machine.refines_flat (m : Machine) (pa : PhysicalAddress) (new : ByteArray)
    (h : pa.value.toNat + new.size ≤ 4096 * m.frameCount) :
    ∃ mem, m.write pa new = .ok mem ∧ store pa new m = .ok () { m with toMemory := mem } ∧
      mem.ledger = m.ledger ∧ mem.frameCount = m.frameCount ∧
      mem.flat = overwrite m.flat pa.value.toNat new.data.toList ∧
      ∀ (start : PhysicalAddress) (length : Nat),
        start.value.toNat + length ≤ 4096 * m.frameCount →
        ∃ old out, m.read start length = .ok old ∧ mem.read start length = .ok out ∧
          old.data.toList = (m.flat.drop start.value.toNat).take length ∧
          out.data.toList = (mem.flat.drop start.value.toNat).take length ∧
          ∀ i < length, out.data[i]? =
            if pa.value.toNat ≤ start.value.toNat + i ∧
              start.value.toNat + i < pa.value.toNat + new.size then
              new.data[start.value.toNat + i - pa.value.toNat]?
            else old.data[i]? := by
  have hwithin : pa.value.toNat + new.size ≤ m.byteCount := h
  have hholds := Memory.holds_of_le hwithin
  have hcount := m.byteCount_writeFrom pa.value.toNat new 0
  refine ⟨m.writeFrom pa.value.toNat new 0, if_pos hholds, ?_, m.ledger_writeFrom _ _ _, ?_,
    Memory.flat_writeFrom hwithin, fun start length hread => ?_⟩
  · show (if m.holds pa new.size then update fun mem => mem.writeFrom pa.value.toNat new 0
      else Action.panic .outOfRange : Action Machine Unit) m = _
    rw [if_pos hholds]
    rfl
  · simp only [Memory.byteCount, pageSize] at hcount
    exact Nat.eq_of_mul_eq_mul_left (by decide) hcount
  · have hread' : start.value.toNat + length ≤ (m.writeFrom pa.value.toNat new 0).byteCount := by
      rw [hcount]
      exact hread
    obtain ⟨old, hold, hbefore⟩ :=
      Memory.read_eq_ok (show start.value.toNat + length ≤ m.byteCount from hread)
    obtain ⟨out, hout, hafter⟩ := Memory.read_eq_ok hread'
    refine ⟨old, out, hold, hout, hbefore, hafter, fun i hi => ?_⟩
    have hwritten := m.byte?_writeFrom pa.value.toNat new 0 (start.value.toNat + i) hwithin
    rw [Nat.sub_zero, Nat.zero_add] at hwritten
    rw [← Array.getElem?_toList, ← @Array.getElem?_toList _ old.data, hbefore, hafter,
      List.getElem?_take_of_lt hi, List.getElem?_take_of_lt hi, List.getElem?_drop,
      List.getElem?_drop, Memory.getElem?_flat, Memory.getElem?_flat, hwritten]

/-- four bytes of which two lie in one frame and two in the next -/
theorem Machine.refines_flat_crossing : ∃ (m : Machine) (mem : Memory) (out : ByteArray),
    m.frameCount = 2 ∧ 0xFFE + 4 ≤ 4096 * m.frameCount ∧
    m.write ⟨0xFFE⟩ ⟨#[1, 2, 3, 4]⟩ = .ok mem ∧
    mem.flat = overwrite m.flat 0xFFE [1, 2, 3, 4] ∧
    mem.read ⟨0xFFE⟩ 4 = .ok out ∧ ∀ i < 4, out.data[i]? = #[1, 2, 3, 4][i]? := by
  let m : Machine :=
    { contents := #[.zero, .zero], ledger := ⟨#[⟨0, false⟩, ⟨0, false⟩]⟩, size_ledger := rfl }
  have hfits : 0xFFE + 4 ≤ 4096 * m.frameCount := by decide
  obtain ⟨mem, hwrite, -, -, -, hflat, hreads⟩ :=
    m.refines_flat ⟨0xFFE⟩ ⟨#[1, 2, 3, 4]⟩ hfits
  obtain ⟨old, out, -, hread, -, -, hout⟩ := hreads ⟨0xFFE⟩ 4 hfits
  refine ⟨m, mem, out, rfl, hfits, hwrite, hflat, hread, fun i hi => ?_⟩
  have hplace := hout i hi
  rw [if_pos ⟨Nat.le_add_right _ i, Nat.add_lt_add_left hi _⟩, Nat.add_sub_cancel_left] at hplace
  exact hplace

end PagedKernel
