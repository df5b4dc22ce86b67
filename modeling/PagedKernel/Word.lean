import PagedKernel.Panic

/-!
# Arithmetic on 64-bit words

Sums and differences that must stay in range, alignment to powers of two, and bit fields.

* `Word.add`, `Word.sub`            panic when the result leaves the 64-bit range
* `Word.alignDown`, `Word.alignUp`  multiples of a power of two around a word
* `Field`                           a run of bits of a word, with `get` and `put`
-/

namespace PagedKernel

namespace Word

/-- the sum, if it is a 64-bit word -/
def add (a b : UInt64) : Except Panic UInt64 :=
  if a ≤ 0xFFFFFFFFFFFFFFFF - b then .ok (a + b) else .error .overflow

/-- the difference, if it is not negative -/
def sub (a b : UInt64) : Except Panic UInt64 :=
  if b ≤ a then .ok (a - b) else .error .overflow

theorem add_of_lt {a b : UInt64} (h : a.toNat + b.toNat < 0x10000000000000000) :
    add a b = .ok (a + b) := by
  have hb := b.toNat_lt
  have : a ≤ 0xFFFFFFFFFFFFFFFF - b := by
    rw [UInt64.le_iff_toNat_le, UInt64.toNat_sub_of_le _ _ (by
      rw [UInt64.le_iff_toNat_le]
      simp only [UInt64.reduceToNat]
      omega)]
    simp only [UInt64.reduceToNat]
    omega
  simp [add, this]

theorem add_of_le {a b : UInt64} (h : 0x10000000000000000 ≤ a.toNat + b.toNat) :
    add a b = .error .overflow := by
  have hb := b.toNat_lt
  have : ¬ a ≤ 0xFFFFFFFFFFFFFFFF - b := by
    rw [UInt64.le_iff_toNat_le, UInt64.toNat_sub_of_le _ _ (by
      rw [UInt64.le_iff_toNat_le]
      simp only [UInt64.reduceToNat]
      omega)]
    simp only [UInt64.reduceToNat]
    omega
  simp [add, this]

/-- whether exactly one bit of `a` is set -/
def isPowerOfTwo (a : UInt64) : Bool :=
  a != 0 && a &&& (a - 1) == 0

/-- the greatest multiple of `a` that is not above `x`; `a` has to be a power of two -/
def alignDown (x a : UInt64) : Except Panic UInt64 :=
  if isPowerOfTwo a then .ok (x - x % a) else .error .assertion

/-- the least multiple of `a` that is not below `x`, found below `x + a`, which has to be a word;
`a` has to be a power of two -/
def alignUp (x a : UInt64) : Except Panic UInt64 :=
  if isPowerOfTwo a then do
    let bound ← add x a
    let last := bound - 1
    return last - last % a
  else .error .assertion

end Word

/-! ## bit fields -/

/-- the bits `shift`, …, `shift + width - 1` of a word -/
structure Field where
  shift : UInt64
  width : UInt64
  deriving DecidableEq

namespace Field

/-- one more than the largest value of the field -/
@[inline]
def bound (f : Field) : UInt64 := 1 <<< f.width

/-- the value of the field -/
@[inline]
def get (f : Field) (w : UInt64) : UInt64 :=
  (w >>> f.shift) % f.bound

/-- the word with another value in the field, which has to be wide enough for it -/
def put (f : Field) (w v : UInt64) : Except Panic UInt64 :=
  if v < f.bound then .ok (w - (f.get w <<< f.shift) + (v <<< f.shift)) else .error .assertion

/-- the field of the single bit `i` -/
@[inline]
def bit (i : UInt64) : Field := ⟨i, 1⟩

/-- whether any bit of the field is set -/
@[inline]
def isSet (f : Field) (w : UInt64) : Bool :=
  f.get w != 0

/-- set or clear a field of one bit -/
def putBool (f : Field) (w : UInt64) (b : Bool) : UInt64 :=
  w - (f.get w <<< f.shift) + ((if b then 1 else 0) <<< f.shift)

end Field

end PagedKernel
