import PagedKernel.Program.Image
import PagedKernel.Proofs.Layout

/-!
# What a program is to look like in memory

The pages and the bytes that the segments of a program ask for.  Segments may overlap: a page can be
written if one of them needs that, and of two that give a byte the later one is right.

* `Segment.covers s n`      page `n` is needed for the segment
* `Segment.holds s a`       the byte at `a` is one of the segment
* `Segment.byteAt s a`      what it is: data, or zero after the data
* `Segment.allowed ss n`    what some segments allow in page `n`, if they need it
* `Segment.shown ss a`      the byte at `a`, after all of them
* `Segment.InRange l s`     the segment lies in the memory of a process
* `ProgramImage.allowed`, `ProgramImage.shown`   the same for a program, which has a stack as well
-/

namespace PagedKernel

namespace Segment

variable {s : Segment} {done : List Segment} {n a : Nat}

/-- page `n` lies between the first page of the segment and the end of its last -/
def covers (s : Segment) (n : Nat) : Bool :=
  s.va.page.number.toNat ≤ n && n < (s.va.value.toNat + s.size.toNat + 4095) / 4096

/-- address `a` lies in the segment -/
def holds (s : Segment) (a : Nat) : Bool :=
  s.va.value.toNat ≤ a && a < s.va.value.toNat + s.size.toNat

/-- the byte at `a`, for an address in the segment -/
def byteAt (s : Segment) (a : Nat) : UInt8 :=
  if h : a - s.va.value.toNat < s.data.size then s.data[a - s.va.value.toNat] else 0

/-- what the segments allow in page `n`; nothing if none of them needs it -/
def allowed (segments : List Segment) (n : Nat) : Option Permissions :=
  if segments.any fun s => s.covers n then
    some (if segments.any fun s => s.covers n && s.writable then .userReadWrite else .userReadOnly)
  else none

/-- the byte at `a` of the last segment that has one, or zero -/
def shown (segments : List Segment) (a : Nat) : UInt8 :=
  ((segments.filter fun s => s.holds a).getLast?.map fun s => s.byteAt a).getD 0

theorem covers_iff : s.covers n = true ↔
    s.va.page.number.toNat ≤ n ∧ n < (s.va.value.toNat + s.size.toNat + 4095) / 4096 := by
  rw [covers, Bool.and_eq_true, decide_eq_true_eq, decide_eq_true_eq]

theorem holds_iff : s.holds a = true ↔
    s.va.value.toNat ≤ a ∧ a < s.va.value.toNat + s.size.toNat := by
  rw [holds, Bool.and_eq_true, decide_eq_true_eq, decide_eq_true_eq]

/-- the bytes of a segment lie in its pages -/
theorem covers_of_holds (h : s.holds a = true) : s.covers (a / 4096) = true := by
  have hpage := s.va.toNat_page
  rw [holds_iff] at h
  rw [covers_iff]
  omega

/-- one more segment, in a page that it does not need -/
theorem allowed_append_of_not (h : ¬ s.covers n = true) :
    allowed (done ++ [s]) n = allowed done n := by
  rw [Bool.not_eq_true] at h
  simp only [allowed, List.any_append, List.any_cons, List.any_nil, h, Bool.false_and,
    Bool.or_false]

/-- one more segment, in a page that none needed before -/
theorem allowed_append_of_none (h : s.covers n = true) (hnone : allowed done n = none) :
    allowed (done ++ [s]) n = some (if s.writable then .userReadWrite else .userReadOnly) := by
  have hany : (done.any fun s => s.covers n) = false := by
    rw [← Bool.not_eq_true]
    intro hany
    rw [allowed, if_pos hany] at hnone
    cases hnone
  have hmore : (done.any fun s => s.covers n && s.writable) = false := by
    rw [List.any_eq_false] at hany ⊢
    intro s hs hyes
    exact hany s hs (Bool.and_eq_true_iff.1 hyes).1
  simp only [allowed, List.any_append, List.any_cons, List.any_nil, h, hany, hmore, Bool.true_and,
    Bool.or_false, Bool.false_or, if_true]

/-- one more segment, in a page that was needed: it can only allow more -/
theorem allowed_append_of_some {p : Permissions} (h : s.covers n = true)
    (hsome : allowed done n = some p) :
    allowed (done ++ [s]) n
      = some (if s.writable && !p.writable then .userReadWrite else p) := by
  rw [allowed] at hsome
  split at hsome
  · next hany =>
    obtain rfl := Option.some.inj hsome
    simp only [allowed, List.any_append, List.any_cons, List.any_nil, h, hany, Bool.true_and,
      Bool.or_false, Bool.true_or, if_true]
    cases hmore : done.any fun s => s.covers n && s.writable <;> cases s.writable <;> rfl
  · cases hsome

/-- what one more segment shows, where it has a byte -/
theorem shown_append_of_holds (h : s.holds a = true) : shown (done ++ [s]) a = s.byteAt a := by
  have hlast : [s].filter (fun s => s.holds a) = [s] := List.filter_cons_of_pos h
  rw [shown, List.filter_append, hlast, List.getLast?_append, List.getLast?_singleton,
    Option.some_or, Option.map_some, Option.getD_some]

theorem shown_append_of_not (h : ¬ s.holds a = true) : shown (done ++ [s]) a = shown done a := by
  have hnone : [s].filter (fun s => s.holds a) = [] := List.filter_cons_of_neg h
  rw [shown, List.filter_append, hnone, List.append_nil, shown]

/-- one more segment: its data, zeroes after them, and all around what was there -/
theorem shown_append (hsize : s.data.size ≤ s.size.toNat) (a : Nat) :
    shown (done ++ [s]) a
      = if h : s.va.value.toNat ≤ a ∧ a < s.va.value.toNat + s.data.size then
          s.data[a - s.va.value.toNat]
        else if s.va.value.toNat ≤ a ∧ a < s.va.value.toNat + s.size.toNat then 0
        else shown done a := by
  by_cases hin : s.holds a = true
  · rw [shown_append_of_holds hin, byteAt]
    rw [holds_iff] at hin
    rw [if_pos hin]
    by_cases hdata : a - s.va.value.toNat < s.data.size
    · rw [dif_pos hdata, dif_pos (by omega)]
    · rw [dif_neg hdata, dif_neg (by omega)]
  · rw [shown_append_of_not hin]
    rw [holds_iff] at hin
    rw [dif_neg (by omega), if_neg hin]

/-- where no segment needs the page the byte is zero -/
theorem shown_of_none (h : allowed done (a / 4096) = none) : shown done a = 0 := by
  have hempty : (done.filter fun s => s.holds a) = [] := by
    rw [List.filter_eq_nil_iff]
    intro s hs hyes
    have hany : (done.any fun s => s.covers (a / 4096)) = true :=
      List.any_eq_true.2 ⟨s, hs, covers_of_holds hyes⟩
    rw [allowed, if_pos hany] at h
    cases h
  rw [shown, hempty]
  rfl

/-- the segment lies in the memory of a process, below its stack -/
def InRange (l : Layout) (s : Segment) : Prop :=
  l.processStart ≤ s.va.value ∧ s.va.value.toNat + s.size.toNat + 4096 ≤ l.virtualSize.toNat

theorem inRange_iff {l : Layout} (hl : l.Ordered) : s.InRange l ↔
    l.firstPage ≤ s.va.page.number.toNat ∧
      s.va.value.toNat + s.size.toNat + 4096 ≤ 4096 * l.endPage := by
  rw [InRange, UInt64.le_iff_toNat_le, hl.processStart_eq, hl.virtualSize_eq, s.va.toNat_page]
  omega

end Segment

namespace ProgramImage

/-- what a program may do in page `n`: it may write its stack, which is the last page -/
def allowed (l : Layout) (image : ProgramImage) (n : Nat) : Option Permissions :=
  if n = l.endPage - 1 then some .userReadWrite else Segment.allowed image.segments n

/-- the byte at `a` when a program starts -/
def shown (image : ProgramImage) (a : Nat) : UInt8 := Segment.shown image.segments a

/-- no segment has more data than bytes -/
def WellFormed (image : ProgramImage) : Prop :=
  ∀ s ∈ image.segments, s.data.size ≤ s.size.toNat

end ProgramImage

end PagedKernel
