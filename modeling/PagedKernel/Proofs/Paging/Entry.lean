import PagedKernel.Paging.Entry
import PagedKernel.Proofs.Memory.Frames

/-!
# What an entry says

The entries that are made, `PageEntry.leaf` and `PageEntry.table`, as plain words, and what is read
back from them.

* `PageEntry.mapping f p`      the word of the entry that maps `f` with permissions `p`
* `PageEntry.leaf_eq`          it is what `PageEntry.leaf` makes of a frame that fits
* `PageEntry.frame_mapping`, `PageEntry.permissions_mapping`   the frame and the permissions again
* `PageEntry.target e`         both, if the entry is present

Of the permissions only present, writable and user are kept (`Permissions.core`).
-/

namespace PagedKernel

/-! ## fields -/

namespace Field

theorem toNat_get (f : Field) (w : UInt64) (hs : f.shift.toNat < 64) (hw : f.width.toNat < 64) :
    (f.get w).toNat = w.toNat / 2 ^ f.shift.toNat % 2 ^ f.width.toNat := by
  have hb : f.bound.toNat = 2 ^ f.width.toNat := by
    have hlt : (2 : Nat) ^ f.width.toNat < 2 ^ 64 := Nat.pow_lt_pow_right (by decide) hw
    simp only [bound, UInt64.toNat_shiftLeft, UInt64.toNat_one, Nat.mod_eq_of_lt hw,
      Nat.shiftLeft_eq, Nat.one_mul, Nat.mod_eq_of_lt hlt]
  rw [get, UInt64.toNat_mod, UInt64.toNat_shiftRight, hb, Nat.mod_eq_of_lt hs,
    Nat.shiftRight_eq_div_pow]

theorem isSet_iff (f : Field) (w : UInt64) : f.isSet w = true ↔ (f.get w).toNat ≠ 0 := by
  rw [isSet, bne_iff_ne, ne_eq, ← UInt64.toNat_inj, UInt64.toNat_zero]

end Field

/-! ## permissions -/

namespace Permissions

/-- the permissions that an entry keeps -/
def core (p : Permissions) : Permissions := .of p.present p.writable p.user

theorem present_of (a b c : Bool) : (Permissions.of a b c).present = a := by
  cases a <;> cases b <;> cases c <;> rfl

theorem writable_of (a b c : Bool) : (Permissions.of a b c).writable = b := by
  cases a <;> cases b <;> cases c <;> rfl

theorem user_of (a b c : Bool) : (Permissions.of a b c).user = c := by
  cases a <;> cases b <;> cases c <;> rfl

theorem core_of (a b c : Bool) : (Permissions.of a b c).core = .of a b c := by
  simp only [core, present_of, writable_of, user_of]

/-- these are the three lowest bits -/
theorem core_eq (p : Permissions) : p.core = ⟨p.bits &&& 7⟩ := by
  have hbits : ∀ b : BitVec 8, (Permissions.mk ⟨b⟩).core = ⟨⟨b⟩ &&& 7⟩ := by decide
  exact hbits p.bits.toBitVec

/-- the permissions that pages of processes have -/
theorem core_of_user {p : Permissions} (h : p = .userReadWrite ∨ p = .userReadOnly) :
    p.present = true ∧ p.core = p := by
  rcases h with rfl | rfl <;> exact ⟨rfl, rfl⟩

/-- the permissions of a link take nothing away -/
theorem inter_of (a b c : Bool) : userReadWrite.inter (.of a b c) = .of a b c := by
  cases a <;> cases b <;> cases c <;> rfl

theorem inter_userReadWrite : userReadWrite.inter userReadWrite = userReadWrite := rfl

end Permissions

/-! ## entries -/

namespace PageEntry

/-- the flags of permissions, as the low bits of an entry -/
def flagWord (p : Permissions) : UInt64 :=
  (if p.present then 1 else 0) + (if p.writable then 2 else 0) + (if p.user then 4 else 0)

/-- the entry that maps `f` with permissions `p` -/
def mapping (f : Frame) (p : Permissions) : PageEntry := ⟨flagWord p + f.number * 4096⟩

/-- the entry that links to the table in `f` -/
def linkTo (f : Frame) : PageEntry := mapping f .userReadWrite

theorem toNat_flagWord (p : Permissions) :
    (flagWord p).toNat = p.present.toNat + 2 * p.writable.toNat + 4 * p.user.toNat := by
  unfold flagWord
  cases p.present <;> cases p.writable <;> cases p.user <;> rfl

theorem bits_flags (p : Permissions) :
    (((empty.putFlag presentField p.present).putFlag writableField p.writable).putFlag userField
      p.user).bits = flagWord p := by
  unfold flagWord
  cases p.present <;> cases p.writable <;> cases p.user <;> rfl

theorem get_frameField_flagWord (p : Permissions) : frameField.get (flagWord p) = 0 := by
  unfold flagWord
  cases p.present <;> cases p.writable <;> cases p.user <;> rfl

theorem leaf_eq {f : Frame} (h : f.number.toNat < 2 ^ 40) (p : Permissions) :
    leaf f p = .ok (mapping f p) := by
  have hlt : f.number < frameField.bound := by
    rw [UInt64.lt_iff_toNat_lt]
    exact h
  have hshift : f.number <<< (12 : UInt64) = f.number * 4096 := by
    apply UInt64.toNat.inj
    rw [UInt64.toNat_shiftLeft, UInt64.toNat_mul, Nat.shiftLeft_eq]
    rfl
  unfold leaf putFrame put Field.put
  rw [if_pos hlt, bits_flags, get_frameField_flagWord]
  show Except.ok (PageEntry.mk (flagWord p - 0 + f.number <<< (12 : UInt64))) = _
  rw [hshift, UInt64.sub_zero]
  rfl

theorem table_eq {f : Frame} (h : f.number.toNat < 2 ^ 40) : table f = .ok (linkTo f) :=
  leaf_eq h _

section
variable {f : Frame} {p : Permissions}

theorem toNat_mapping (h : f.number.toNat < 2 ^ 40) :
    (mapping f p).bits.toNat
      = p.present.toNat + 2 * p.writable.toNat + 4 * p.user.toNat + 4096 * f.number.toNat := by
  have hp := p.present.toNat_lt
  have hw := p.writable.toNat_lt
  have hu := p.user.toNat_lt
  simp only [mapping, UInt64.toNat_add, UInt64.toNat_mul, toNat_flagWord, UInt64.reduceToNat]
  omega

theorem isSet_mapping (h : f.number.toNat < 2 ^ 40) (i : UInt64) (hi : i.toNat < 64) (b : Bool)
    (hb : (p.present.toNat + 2 * p.writable.toNat + 4 * p.user.toNat + 4096 * f.number.toNat)
      / 2 ^ i.toNat % 2 = b.toNat) :
    (Field.bit i).isSet (mapping f p).bits = b := by
  have hget := Field.toNat_get (Field.bit i) (mapping f p).bits hi
    (show (1 : UInt64).toNat < 64 by decide)
  have hone : (2 : Nat) ^ (Field.bit i).width.toNat = 2 := rfl
  rw [toNat_mapping h, hone] at hget
  rw [Bool.eq_iff_iff, Field.isSet_iff, hget]
  show ((_ / 2 ^ i.toNat) % 2 ≠ 0) ↔ b = true
  rw [hb]
  cases b <;> decide

theorem present_mapping (h : f.number.toNat < 2 ^ 40) : (mapping f p).present = p.present := by
  refine isSet_mapping h 0 (by decide) _ ?_
  have hp := p.present.toNat_lt
  simp only [UInt64.reduceToNat]
  omega

theorem writable_mapping (h : f.number.toNat < 2 ^ 40) : (mapping f p).writable = p.writable := by
  refine isSet_mapping h 1 (by decide) _ ?_
  have hp := p.present.toNat_lt
  have hw := p.writable.toNat_lt
  simp only [UInt64.reduceToNat]
  omega

theorem user_mapping (h : f.number.toNat < 2 ^ 40) : (mapping f p).user = p.user := by
  refine isSet_mapping h 2 (by decide) _ ?_
  have hp := p.present.toNat_lt
  have hw := p.writable.toNat_lt
  have hu := p.user.toNat_lt
  simp only [UInt64.reduceToNat]
  omega

theorem largePage_mapping (h : f.number.toNat < 2 ^ 40) : (mapping f p).largePage = false := by
  refine isSet_mapping h 7 (by decide) _ ?_
  have hp := p.present.toNat_lt
  have hw := p.writable.toNat_lt
  have hu := p.user.toNat_lt
  simp only [UInt64.reduceToNat, Bool.toNat_false]
  omega

theorem frame_mapping (h : f.number.toNat < 2 ^ 40) : (mapping f p).frame = f := by
  have hp := p.present.toNat_lt
  have hw := p.writable.toNat_lt
  have hu := p.user.toNat_lt
  have hget := Field.toNat_get frameField (mapping f p).bits (by decide) (by decide)
  rw [toNat_mapping h] at hget
  have hshift : (2 : Nat) ^ frameField.shift.toNat = 4096 := rfl
  have hwidth : (2 : Nat) ^ frameField.width.toNat = 2 ^ 40 := rfl
  rw [hshift, hwidth] at hget
  apply Page.eq_of_toNat
  simp only [frame, Page.ofNumber, UInt64.toNat_mod, UInt64.reduceToNat, hget]
  omega

theorem permissions_mapping (h : f.number.toNat < 2 ^ 40) : (mapping f p).permissions = p.core := by
  rw [permissions, present_mapping h, writable_mapping h, user_mapping h]
  rfl

theorem isLink_linkTo (h : f.number.toNat < 2 ^ 40) : (linkTo f).isLink = true := by
  rw [isLink, linkTo, present_mapping h, largePage_mapping h]
  rfl

/-- the frame of an entry has a number that fits into an entry -/
theorem toNat_frame_lt (e : PageEntry) : e.frame.number.toNat < 2 ^ 40 := by
  have hget := Field.toNat_get frameField e.bits (by decide) (by decide)
  have hwidth : (2 : Nat) ^ frameField.width.toNat = 2 ^ 40 := rfl
  rw [hwidth] at hget
  have := Nat.mod_lt (e.bits.toNat / 2 ^ frameField.shift.toNat) (Nat.two_pow_pos 40)
  simp only [frame, Page.ofNumber, UInt64.toNat_mod, UInt64.reduceToNat, hget]
  omega

theorem present_empty : empty.present = false := rfl

end

/-! ## what a leaf maps to -/

/-- the frame and the permissions of an entry that is present -/
def target (e : PageEntry) : Option (Frame × Permissions) :=
  if e.present then some (e.frame, e.permissions) else none

theorem target_empty : empty.target = none := rfl

theorem target_mapping {f : Frame} {p : Permissions} (h : f.number.toNat < 2 ^ 40)
    (hp : p.present = true) : (mapping f p).target = some (f, p.core) := by
  rw [target, present_mapping h, if_pos hp, frame_mapping h, permissions_mapping h]

theorem target_eq_some {e : PageEntry} {f : Frame} {p : Permissions}
    (h : e.target = some (f, p)) :
    f.number.toNat < 2 ^ 40 ∧ p.core = p ∧ p.present = true := by
  unfold target at h
  split at h
  · next hp =>
    obtain ⟨rfl, rfl⟩ := Prod.mk.inj (Option.some.inj h)
    refine ⟨toNat_frame_lt _, Permissions.core_of _ _ _, ?_⟩
    rw [permissions, Permissions.present_of]
    exact hp
  · exact absurd h.symm (Option.some_ne_none _)

end PageEntry

end PagedKernel
