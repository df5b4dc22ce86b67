import Mathlib.Algebra.Group.Nat.Defs
import Mathlib.Order.Bounds.Basic
import PagedKernel.Word

/-!
# Alignment up to the last word

To align a word to a power of two is to clear its low bits.  Downwards this gives the greatest
multiple of the power that is not above the word.  Upwards it gives the least one that is not below,
with one exception: the word that is itself the last multiple of all, for which the sum that is
formed on the way is no word any more.

* `Word.and_mask`             what is subtracted is what a mask of the high bits clears
* `Word.isGreatest_floor`, `Word.isLeast_ceil`   the multiples around a number
* `Word.alignUp_of_lt`, `Word.alignUp_of_le`     upwards, by whether the sum is a word
* `Word.aligns`               alignment in both directions, for every word
-/

namespace PagedKernel

namespace Word

/-! ## powers of two -/

variable {x a : UInt64} {k : Nat}

theorem toNat_pred (ha : a.toNat = 2 ^ k) : (a - 1).toNat = 2 ^ k - 1 := by
  have hpos : 1 ≤ a.toNat := ha ▸ Nat.one_le_two_pow
  have hle : (1 : UInt64) ≤ a := UInt64.le_iff_toNat_le.2 hpos
  rw [UInt64.toNat_sub_of_le _ _ hle, ha]
  rfl

theorem exponent_lt (ha : a.toNat = 2 ^ k) : k < 64 := by
  have hlt := a.toNat_lt
  rw [ha] at hlt
  exact (Nat.pow_lt_pow_iff_right (by decide)).1 hlt

theorem isPowerOfTwo_of_toNat (ha : a.toNat = 2 ^ k) : isPowerOfTwo a = true := by
  have hne : a ≠ 0 := by
    intro hzero
    rw [hzero, UInt64.toNat_zero] at ha
    exact absurd ha.symm (Nat.two_pow_pos k).ne'
  have hclear : a &&& (a - 1) = 0 := by
    apply UInt64.toNat.inj
    rw [UInt64.toNat_and, toNat_pred ha, ha, Nat.and_two_pow_sub_one_eq_mod, Nat.mod_self]
    rfl
  simp [isPowerOfTwo, hne, hclear]

/-- the mask has the bits from `k` on -/
theorem testBit_mask (ha : a.toNat = 2 ^ k) (i : Nat) :
    (~~~(a - 1)).toNat.testBit i = (decide (k ≤ i) && decide (i < 64)) := by
  have hk := exponent_lt ha
  have hmask : (~~~(a - 1)).toNat = 2 ^ k * (2 ^ (64 - k) - 1) := by
    rw [UInt64.toNat_not, toNat_pred ha, Nat.mul_sub, ← Nat.pow_add, Nat.add_sub_cancel' hk.le,
      Nat.mul_one]
    have := Nat.one_le_two_pow (n := k)
    show 2 ^ 64 - 1 - (2 ^ k - 1) = _
    omega
  rw [hmask, Nat.testBit_two_pow_mul, Nat.testBit_two_pow_sub_one, Bool.eq_iff_iff]
  simp only [Bool.and_eq_true, decide_eq_true_iff]
  omega

theorem toNat_floor (x a : UInt64) : (x - x % a).toNat = x.toNat - x.toNat % a.toNat := by
  have hle : x % a ≤ x := by
    rw [UInt64.le_iff_toNat_le, UInt64.toNat_mod]
    exact Nat.mod_le _ _
  rw [UInt64.toNat_sub_of_le _ _ hle, UInt64.toNat_mod]

/-- what is subtracted from a word to align it are the bits that the mask clears -/
theorem and_mask (ha : a.toNat = 2 ^ k) (x : UInt64) : x &&& ~~~(a - 1) = x - x % a := by
  apply UInt64.toNat.inj
  have hfloor : x.toNat - x.toNat % 2 ^ k = 2 ^ k * (x.toNat / 2 ^ k) := by
    have := Nat.div_add_mod x.toNat (2 ^ k)
    omega
  rw [toNat_floor, UInt64.toNat_and, ha, hfloor]
  apply Nat.eq_of_testBit_eq
  intro i
  rw [Nat.testBit_and, testBit_mask ha, Nat.testBit_two_pow_mul, Nat.testBit_div_two_pow]
  by_cases hi : k ≤ i
  · rw [Nat.sub_add_cancel hi]
    by_cases hlt : i < 64
    · simp [hi, hlt]
    · -- a word has no bits from 64 on
      have hbit : x.toNat.testBit i = false := Nat.testBit_lt_two_pow
        (x.toNat_lt.trans_le (Nat.pow_le_pow_right (by decide) (Nat.le_of_not_lt hlt)))
      simp [hbit]
  · simp [hi]

/-! ## multiples around a number -/

theorem isGreatest_floor (x a : Nat) : IsGreatest {m | a ∣ m ∧ m ≤ x} (x - x % a) := by
  refine ⟨⟨Nat.dvd_sub_mod x, Nat.sub_le x _⟩, ?_⟩
  rintro m ⟨⟨c, rfl⟩, hm⟩
  have hfloor : x - x % a = a * (x / a) := by
    have := Nat.div_add_mod x a
    omega
  rw [hfloor]
  rcases Nat.eq_zero_or_pos a with rfl | hpos
  · simp
  · exact Nat.mul_le_mul_left a ((Nat.le_div_iff_mul_le hpos).2 (by rwa [Nat.mul_comm]))

theorem isLeast_ceil (x : Nat) {a : Nat} (ha : 0 < a) :
    IsLeast {m | a ∣ m ∧ x ≤ m} (x + a - 1 - (x + a - 1) % a) := by
  have hmod := Nat.mod_lt (x + a - 1) ha
  obtain ⟨hmem, hbound⟩ := isGreatest_floor (x + a - 1) a
  refine ⟨⟨hmem.1, by omega⟩, ?_⟩
  rintro m ⟨hdvd, hm⟩
  refine Nat.le_of_not_lt fun hlt => ?_
  -- a smaller multiple would leave room for one more below `x + a`
  obtain ⟨c, hc⟩ := Nat.dvd_sub hmem.1 hdvd
  have hstep : a ≤ x + a - 1 - (x + a - 1) % a - m :=
    hc ▸ Nat.le_mul_of_pos_right a (Nat.pos_of_ne_zero fun hzero => by
      rw [hzero, Nat.mul_zero] at hc
      omega)
  omega

/-! ## alignment -/

theorem alignDown_eq (ha : a.toNat = 2 ^ k) (x : UInt64) :
    alignDown x a = .ok (x &&& ~~~(a - 1)) := by
  rw [alignDown, if_pos (isPowerOfTwo_of_toNat ha), and_mask ha]

theorem alignUp_of_lt (ha : a.toNat = 2 ^ k) (h : x.toNat + a.toNat < 2 ^ 64) :
    alignUp x a = .ok (UInt64.ofNat
      (x.toNat + a.toNat - 1 - (x.toNat + a.toNat - 1) % a.toNat)) := by
  have hpos : 0 < a.toNat := ha ▸ Nat.two_pow_pos k
  have hlast : (x + a - 1).toNat = x.toNat + a.toNat - 1 := by
    have hsum : (x + a).toNat = x.toNat + a.toNat := by
      rw [UInt64.toNat_add, Nat.mod_eq_of_lt h]
    have hle : (1 : UInt64) ≤ x + a := by
      rw [UInt64.le_iff_toNat_le, hsum]
      exact Nat.le_add_left_of_le hpos
    rw [UInt64.toNat_sub_of_le _ _ hle, hsum]
    rfl
  rw [alignUp, if_pos (isPowerOfTwo_of_toNat ha), add_of_lt h]
  show Except.ok _ = _
  rw [← hlast, ← toNat_floor, UInt64.ofNat_toNat]

theorem alignUp_of_le (ha : a.toNat = 2 ^ k) (h : 2 ^ 64 ≤ x.toNat + a.toNat) :
    alignUp x a = .error .overflow := by
  rw [alignUp, if_pos (isPowerOfTwo_of_toNat ha), add_of_le h]
  rfl

/-- downwards a word is aligned to the greatest multiple that is not above it, upwards to the least
that is not below it.  If that is no word there is no answer; and there is none for the last
multiple of all, although it is its own. -/
theorem aligns (ha : a.toNat = 2 ^ k) (x : UInt64) :
    alignDown x a = .ok (x &&& ~~~(a - 1)) ∧
    IsGreatest {m | a.toNat ∣ m ∧ m ≤ x.toNat} (x &&& ~~~(a - 1)).toNat ∧
    (∀ m, IsLeast {m | a.toNat ∣ m ∧ x.toNat ≤ m} m →
      alignUp x a = if m < 2 ^ 64 ∧ x.toNat + a.toNat ≠ 2 ^ 64 then .ok (UInt64.ofNat m)
        else .error .overflow) ∧
    (a.toNat ∣ x.toNat →
      alignUp x a = if x.toNat + a.toNat ≠ 2 ^ 64 then .ok x else .error .overflow) := by
  have hpos : 0 < a.toNat := ha ▸ Nat.two_pow_pos k
  have hup : ∀ m, IsLeast {m | a.toNat ∣ m ∧ x.toNat ≤ m} m →
      alignUp x a = if m < 2 ^ 64 ∧ x.toNat + a.toNat ≠ 2 ^ 64 then .ok (UInt64.ofNat m)
        else .error .overflow := by
    intro m hm
    obtain rfl := (isLeast_ceil x.toNat hpos).unique hm
    obtain ⟨⟨hdvd, hle⟩, -⟩ := hm
    by_cases hsum : x.toNat + a.toNat < 2 ^ 64
    · rw [alignUp_of_lt ha hsum, if_pos ⟨by omega, hsum.ne⟩]
    · rw [alignUp_of_le ha (Nat.le_of_not_lt hsum), if_neg]
      rintro ⟨hlt, hne⟩
      -- the next multiple is not above `2 ^ 64`, which is one itself
      have hword : a.toNat ∣ 2 ^ 64 := ha ▸ Nat.pow_dvd_pow 2 (exponent_lt ha).le
      have hnext := Nat.le_of_dvd (Nat.sub_pos_of_lt hlt) (Nat.dvd_sub hword hdvd)
      omega
  refine ⟨alignDown_eq ha x, ?_, hup, fun hdvd => ?_⟩
  · rw [and_mask ha, toNat_floor]
    exact isGreatest_floor _ _
  · have hself := hup x.toNat ⟨⟨hdvd, Nat.le_refl _⟩, fun m hm => hm.2⟩
    simpa only [x.toNat_lt, true_and, UInt64.ofNat_toNat] using hself

/-- the last page of all is aligned, and has no answer -/
theorem aligns_otherwise : ¬ ∀ (x a : UInt64), (∃ k, a.toNat = 2 ^ k) →
    ∀ m < 2 ^ 64, IsLeast {m | a.toNat ∣ m ∧ x.toNat ≤ m} m →
      alignUp x a = .ok (UInt64.ofNat m) := by
  intro hall
  have hbad := hall 0xFFFFFFFFFFFFF000 4096 ⟨12, rfl⟩ 0xFFFFFFFFFFFFF000 (by decide)
    ⟨⟨by decide, Nat.le_refl _⟩, fun m hm => hm.2⟩
  rw [alignUp_of_le (k := 12) rfl (by decide)] at hbad
  cases hbad

/-- a word of the last page but one -/
theorem aligns_lastButOne : (4096 : UInt64).toNat = 2 ^ 12 ∧
    alignDown 0xFFFFFFFFFFFFE001 4096 = .ok 0xFFFFFFFFFFFFE000 ∧
    alignUp 0xFFFFFFFFFFFFE001 4096 = .ok 0xFFFFFFFFFFFFF000 := by
  obtain ⟨hdown, -, hup, -⟩ := aligns (a := 4096) (k := 12) rfl 0xFFFFFFFFFFFFE001
  refine ⟨rfl, hdown, hup 0xFFFFFFFFFFFFF000 ?_⟩
  exact isLeast_ceil 0xFFFFFFFFFFFFE001 (a := 4096) (by decide)

end Word

end PagedKernel
