/-!
# The bytes of a frame

* `FrameData`           4096 bytes
* `FrameData.byte`      the byte at an offset, the view in which the operations are described
* `FrameData.write`     replaces a run of bytes by a part of a byte array
* `FrameData.word`      the 64-bit words of a frame, least significant byte first

A write changes the bytes of its range (`FrameData.byte_write`), and writing a word changes that
word (`FrameData.word_setWord`) and no other (`FrameData.word_setWord_of_ne`).
-/

namespace PagedKernel

/-- the contents of a frame -/
structure FrameData where
  bytes : ByteArray
  size_bytes : bytes.size = 4096

namespace FrameData

/-- the byte at offset `i`; zero for an offset outside the frame -/
def byte (f : FrameData) (i : Nat) : UInt8 :=
  if h : i < 4096 then f.bytes.get i (by rw [f.size_bytes]; exact h) else 0

/-- a frame that holds `b` everywhere -/
def filled (b : UInt8) : FrameData where
  bytes := ⟨Array.replicate 4096 b⟩
  size_bytes := by simp [← ByteArray.size_data]

/-- a frame of zeroes -/
def zero : FrameData := filled 0

instance : Inhabited FrameData := ⟨zero⟩

/-- the `length` bytes from `offset` on -/
def read (f : FrameData) (offset length : Nat) : ByteArray :=
  f.bytes.extract offset (offset + length)

/-- put `source[start..start + length]` at `offset`; nothing changes unless both ranges fit -/
def write (f : FrameData) (offset : Nat) (source : ByteArray) (start length : Nat) : FrameData :=
  if h : offset + length ≤ 4096 ∧ start + length ≤ source.size then
    { bytes := source.copySlice start f.bytes offset length
      size_bytes := by
        have := f.size_bytes
        simp only [ByteArray.copySlice, ← ByteArray.size_data, Array.size_append,
          Array.size_extract] at *
        omega }
  else f

theorem byte_of_lt (f : FrameData) {i : Nat} (h : i < 4096) :
    f.byte i = f.bytes.get i (by rw [f.size_bytes]; exact h) :=
  dif_pos h

theorem byte_of_le (f : FrameData) {i : Nat} (h : 4096 ≤ i) : f.byte i = 0 :=
  dif_neg (Nat.not_lt.2 h)

theorem get_bytes (b : ByteArray) (i : Nat) (h : i < b.size) : b.get i h = b.data[i] := rfl

theorem byte_filled (b : UInt8) {i : Nat} (h : i < 4096) : (filled b).byte i = b := by
  rw [byte_of_lt _ h]
  exact Array.getElem_replicate _

theorem size_read (f : FrameData) {offset length : Nat} (h : offset + length ≤ 4096) :
    (f.read offset length).size = length := by
  rw [read, ByteArray.size_extract, f.size_bytes]
  omega

theorem getElem_read (f : FrameData) {offset length i : Nat} (h : offset + length ≤ 4096)
    (hi : i < (f.read offset length).size) : (f.read offset length)[i] = f.byte (offset + i) := by
  rw [f.size_read h] at hi
  rw [f.byte_of_lt (by omega)]
  exact ByteArray.getElem_extract _

/-- a write changes the bytes of its range and no others -/
theorem byte_write (f : FrameData) (source : ByteArray) (offset start length i : Nat)
    (h : offset + length ≤ 4096) (hs : start + length ≤ source.size) :
    (f.write offset source start length).byte i =
      if h' : offset ≤ i ∧ i < offset + length then source.get (start + (i - offset)) (by omega)
      else f.byte i := by
  by_cases hi : i < 4096
  · have hb := f.size_bytes
    rw [byte_of_lt _ hi, byte_of_lt _ hi]
    simp only [↓get_bytes]
    simp only [write, h, hs, and_self, dif_pos]
    rw [← ByteArray.size_data] at hb hs
    simp only [ByteArray.copySlice, Array.getElem_append, Array.size_extract,
      Array.getElem_extract, Array.size_append]
    repeat' split
    all_goals first
      | omega
      | congr 1
        omega
  · rw [byte_of_le _ (by omega), byte_of_le _ (by omega), dif_neg (by omega)]

/-! ## words -/

/-- the byte that is `k` bytes into word `i` -/
@[inline]
def wordByte (f : FrameData) (i : Fin 512) (k : Fin 8) : UInt64 :=
  (f.bytes.get (i.val * 8 + k.val) (by rw [f.size_bytes]; omega)).toUInt64

/-- the word at index `i`, least significant byte first -/
def word (f : FrameData) (i : Fin 512) : UInt64 :=
  f.wordByte i 0 + f.wordByte i 1 * 0x100 + f.wordByte i 2 * 0x10000
    + f.wordByte i 3 * 0x1000000 + f.wordByte i 4 * 0x100000000
    + f.wordByte i 5 * 0x10000000000 + f.wordByte i 6 * 0x1000000000000
    + f.wordByte i 7 * 0x100000000000000

/-- replace one byte -/
@[inline]
def setByte (f : FrameData) (i : Fin 4096) (b : UInt8) : FrameData where
  bytes := f.bytes.set i.val b (by rw [f.size_bytes]; exact i.isLt)
  size_bytes := by
    have := f.size_bytes
    simp only [← ByteArray.size_data, ByteArray.data_set, Array.size_set] at *
    exact this

/-- replace the byte that is `k` bytes into word `i` -/
@[inline]
def setWordByte (f : FrameData) (i : Fin 512) (k : Fin 8) (w : UInt64) : FrameData :=
  f.setByte ⟨i.val * 8 + k.val, by omega⟩ w.toUInt8

/-- replace the word at index `i` -/
def setWord (f : FrameData) (i : Fin 512) (w : UInt64) : FrameData :=
  f.setWordByte i 0 w
    |>.setWordByte i 1 (w / 0x100)
    |>.setWordByte i 2 (w / 0x10000)
    |>.setWordByte i 3 (w / 0x1000000)
    |>.setWordByte i 4 (w / 0x100000000)
    |>.setWordByte i 5 (w / 0x10000000000)
    |>.setWordByte i 6 (w / 0x1000000000000)
    |>.setWordByte i 7 (w / 0x100000000000000)

theorem wordByte_setByte (f : FrameData) (i j : Fin 512) (k l : Fin 8) (b : UInt8) :
    (f.setByte ⟨j.val * 8 + l.val, by omega⟩ b).wordByte i k =
      if i = j ∧ k = l then b.toUInt64 else f.wordByte i k := by
  unfold wordByte setByte
  by_cases h : i = j ∧ k = l
  · obtain ⟨rfl, rfl⟩ := h
    simp [↓get_bytes, ByteArray.set]
  · have hne : j.val * 8 + l.val ≠ i.val * 8 + k.val := fun e =>
      h ⟨Fin.ext (by omega), Fin.ext (by omega)⟩
    rw [if_neg h]
    exact congrArg UInt8.toUInt64 (Array.getElem_set_ne _ _ hne)

theorem word_setWord (f : FrameData) (i : Fin 512) (w : UInt64) : (f.setWord i w).word i = w := by
  simp only [word, setWord, setWordByte, wordByte_setByte, Fin.isValue, true_and, if_true,
    Fin.reduceEq, if_false]
  apply UInt64.toNat.inj
  have := w.toNat_lt
  simp only [UInt64.toNat_add, UInt64.toNat_mul, UInt8.toNat_toUInt64, UInt64.toNat_toUInt8,
    UInt64.toNat_div, UInt64.reduceToNat, Nat.reducePow, Nat.add_mod_mod, Nat.mod_add_mod]
  omega

theorem word_setWord_of_ne (f : FrameData) {i j : Fin 512} (h : i ≠ j) (w : UInt64) :
    (f.setWord j w).word i = f.word i := by
  simp only [word, setWord, setWordByte, wordByte_setByte, h, false_and, if_false]

end FrameData

end PagedKernel
