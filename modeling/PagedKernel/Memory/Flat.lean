import PagedKernel.Memory.Basic

/-!
# Memory as one run of bytes

What the operations on memory do to the byte at a physical address, `Memory.byte?`.

* `byte?_modifyFrame`  a change to one frame
* `byte?_writeFrame`   a write within one frame
* `byte?_writeFrom`    a write across frames: the bytes of its range, and no others
-/

namespace PagedKernel

namespace Memory

theorem byteCount_modifyFrame (mem : Memory) (i : Nat) (g : FrameData → FrameData) :
    (mem.modifyFrame i g).byteCount = mem.byteCount := by
  simp [byteCount, modifyFrame]

theorem byte?_modifyFrame (mem : Memory) (i a : Nat) (g : FrameData → FrameData) :
    (mem.modifyFrame i g).byte? a =
      if a / 4096 = i then (mem.contents[i]?).map fun f => (g f).byte (a % 4096)
      else mem.byte? a := by
  simp only [byte?, modifyFrame, Array.getElem?_modify]
  by_cases h : a / 4096 = i
  · simp [h, Function.comp_def]
  · simp [h, Ne.symm h]

/-- a write within one frame changes the bytes of its range and no others -/
theorem byte?_writeFrame (mem : Memory) (pa : Nat) (bytes : ByteArray) (done n a : Nat)
    (hn : pa % 4096 + n ≤ 4096) (hs : done + n ≤ bytes.size) (hm : pa + n ≤ mem.byteCount) :
    (mem.modifyFrame (pa / 4096) fun f => f.write (pa % 4096) bytes done n).byte? a =
      if pa ≤ a ∧ a < pa + n then bytes.data[done + (a - pa)]? else mem.byte? a := by
  rw [byte?_modifyFrame]
  by_cases hp : a / 4096 = pa / 4096
  · rw [if_pos hp]
    simp only [FrameData.byte_write _ _ _ _ _ _ hn hs, ↓FrameData.get_bytes]
    by_cases ha : pa ≤ a ∧ a < pa + n
    · have hin : pa % 4096 ≤ a % 4096 ∧ a % 4096 < pa % 4096 + n := by omega
      have hframe : pa / 4096 < mem.contents.size := by
        simp only [byteCount, pageSize] at hm
        omega
      have hplace : a % 4096 - pa % 4096 = a - pa := by omega
      simp [ha, hin, hframe, hplace]
    · have hout : ¬ (pa % 4096 ≤ a % 4096 ∧ a % 4096 < pa % 4096 + n) := by omega
      rw [if_neg ha]
      simp only [hout, dif_neg, not_false_eq_true, byte?, hp]
  · have ha : ¬ (pa ≤ a ∧ a < pa + n) := by omega
    rw [if_neg hp, if_neg ha]

/-- a write changes the bytes of its range and no others -/
theorem byte?_writeFrom (mem : Memory) (pa : Nat) (bytes : ByteArray) (done a : Nat)
    (h : pa + (bytes.size - done) ≤ mem.byteCount) :
    (mem.writeFrom pa bytes done).byte? a =
      if pa ≤ a ∧ a < pa + (bytes.size - done) then bytes.data[done + (a - pa)]?
      else mem.byte? a := by
  fun_induction writeFrom mem pa bytes done with
  | case1 mem pa done hd => rw [if_neg (by omega)]
  | case2 mem pa done hd n ih =>
    have hn : n = min (bytes.size - done) (4096 - pa % 4096) := rfl
    rw [ih (by rw [byteCount_modifyFrame]; omega),
      byte?_writeFrame _ _ _ _ _ _ (by omega) (by omega) (by omega)]
    by_cases hfirst : pa ≤ a ∧ a < pa + n
    · rw [if_neg (by omega), if_pos hfirst, if_pos (by omega)]
    · rw [if_neg hfirst]
      by_cases hlater : pa + n ≤ a ∧ a < pa + n + (bytes.size - (done + n))
      · rw [if_pos hlater, if_pos (by omega)]
        congr 1
        omega
      · rw [if_neg hlater, if_neg (by omega)]

end Memory

end PagedKernel
