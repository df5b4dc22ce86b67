import Mathlib.Data.List.Basic
import Mathlib.Data.Nat.Bitwise
import Mathlib.Data.Nat.Digits.Defs
import PagedKernel.Program.Elf
import PagedKernel.Proofs.Ends

/-!
# What the ELF reader accepts

The grammar of executables is a list of checks on the bytes of a file, in the order in which they
are made, and the reader decides exactly that list.

* `Decided r checks a`         `r` is `a` if all checks pass, and the error of the first that fails
* `ElfFile.number`             a number of a file, as the digits that its bytes are
* `ElfFile.headerChecks`       what is asked of the file header
* `ElfFile.checks`             what is asked of a program: of the header, then of each segment
* `ElfFile.SameProgram`        two files differ only where nothing of a program lies
* `ProgramImage.ofElf_decided` the reader decides the checks, and leaves out no segment
-/

namespace PagedKernel

/-! ## checks in order -/

/-- a condition on a file, and the error of a file that does not meet it -/
abbrev Check := Prop × ElfError

def AllPass (checks : List Check) : Prop := ∀ check ∈ checks, check.1

/-- the first check that fails has the error `e` -/
def FirstFails (checks : List Check) (e : ElfError) : Prop :=
  ∃ before p after, checks = before ++ (p, e) :: after ∧ AllPass before ∧ ¬ p

/-- a result is `a` if all checks pass, and the error of the first that fails otherwise -/
inductive Decided {α : Type} (result : Except ElfError α) (checks : List Check) (a : α) : Prop where
  | passed (all : AllPass checks) (result_eq : result = .ok a)
  | failed {e : ElfError} (first : FirstFails checks e) (result_eq : result = .error e)

section Checks

variable {α β : Type} {result : Except ElfError α} {checks more : List Check} {p q : Prop}
  {e e' : ElfError} {a : α} {b : β}

theorem allPass_nil : AllPass [] := fun _ h => absurd h List.not_mem_nil

theorem allPass_cons : AllPass ((p, e) :: checks) ↔ p ∧ AllPass checks := List.forall_mem_cons

theorem allPass_append : AllPass (checks ++ more) ↔ AllPass checks ∧ AllPass more :=
  List.forall_mem_append

theorem not_firstFails (h : AllPass checks) : ¬ FirstFails checks e := by
  rintro ⟨before, p, after, rfl, -, hp⟩
  exact hp (h (p, e) (List.mem_append_right before List.mem_cons_self))

theorem firstFails_cons :
    FirstFails ((p, e) :: checks) e' ↔ ¬ p ∧ e' = e ∨ p ∧ FirstFails checks e' := by
  constructor
  · rintro ⟨before, q, after, heq, hbefore, hq⟩
    cases before with
    | nil =>
      obtain ⟨⟨rfl, rfl⟩, rfl⟩ := List.cons.inj heq |>.imp Prod.mk.inj id
      exact .inl ⟨hq, rfl⟩
    | cons first before =>
      obtain ⟨rfl, rfl⟩ := List.cons.inj heq
      obtain ⟨hp, hbefore⟩ := allPass_cons.1 hbefore
      exact .inr ⟨hp, before, q, after, rfl, hbefore, hq⟩
  · rintro (⟨hp, rfl⟩ | ⟨hp, before, q, after, rfl, hbefore, hq⟩)
    · exact ⟨[], p, checks, rfl, allPass_nil, hp⟩
    · exact ⟨(p, e) :: before, q, after, rfl, allPass_cons.2 ⟨hp, hbefore⟩, hq⟩

theorem firstFails_unique (h : FirstFails checks e) (h' : FirstFails checks e') : e = e' := by
  induction checks with
  | nil => exact absurd h (not_firstFails allPass_nil)
  | cons check checks ih =>
    rcases firstFails_cons.1 h with ⟨hp, rfl⟩ | ⟨hp, hrest⟩ <;>
      rcases firstFails_cons.1 h' with ⟨hp', rfl⟩ | ⟨hp', hrest'⟩
    · rfl
    · exact absurd hp' hp
    · exact absurd hp hp'
    · exact ih hrest hrest'

/-- a check that fails is the first of all if those before pass -/
theorem firstFails_append (h : FirstFails checks e) : FirstFails (checks ++ more) e := by
  obtain ⟨before, p, after, rfl, hbefore, hp⟩ := h
  exact ⟨before, p, after ++ more, by rw [List.append_assoc, List.cons_append], hbefore, hp⟩

theorem firstFails_append_of_pass (hpass : AllPass checks) (h : FirstFails more e) :
    FirstFails (checks ++ more) e := by
  obtain ⟨before, p, after, rfl, hbefore, hp⟩ := h
  exact ⟨checks ++ before, p, after, (List.append_assoc _ _ _).symm,
    allPass_append.2 ⟨hpass, hbefore⟩, hp⟩

namespace Decided

theorem ok_iff (h : Decided result checks a) (x : α) :
    result = .ok x ↔ AllPass checks ∧ x = a := by
  rcases h with ⟨hall, rfl⟩ | ⟨hfirst, rfl⟩
  · exact ⟨fun hx => ⟨hall, (Except.ok.inj hx).symm⟩, fun hx => by rw [hx.2]⟩
  · exact ⟨nofun, fun hx => absurd hfirst (not_firstFails hx.1)⟩

theorem error_iff (h : Decided result checks a) (e : ElfError) :
    result = .error e ↔ FirstFails checks e := by
  rcases h with ⟨hall, rfl⟩ | ⟨hfirst, rfl⟩
  · exact ⟨nofun, fun hfail => absurd hfail (not_firstFails hall)⟩
  · constructor
    · intro heq
      rw [← Except.error.inj heq]
      exact hfirst
    · exact fun hfail => by rw [firstFails_unique hfirst hfail]

theorem nil (a : α) : Decided (.ok a) [] a := .passed allPass_nil rfl

/-- a check that is made by asking for its failure -/
theorem guard [Decidable q] (hq : q ↔ ¬ p) (h : p → Decided result checks a) :
    Decided (if q then .error e else result) ((p, e) :: checks) a := by
  by_cases hp : p
  · rw [if_neg fun hyes => hq.1 hyes hp]
    rcases h hp with ⟨hall, hr⟩ | ⟨hfirst, hr⟩
    · exact .passed (allPass_cons.2 ⟨hp, hall⟩) hr
    · exact .failed (firstFails_cons.2 (.inr ⟨hp, hfirst⟩)) hr
  · rw [if_pos (hq.2 hp)]
    exact .failed (firstFails_cons.2 (.inl ⟨hp, rfl⟩)) rfl

/-- a check that is made by asking for its success -/
theorem require [Decidable p] (h : p → Decided result checks a) :
    Decided (if p then result else .error e) ((p, e) :: checks) a := by
  rw [← ite_not]
  exact guard Iff.rfl h

theorem require_dep [Decidable p] {result : p → Except ElfError α}
    (h : ∀ hp, Decided (result hp) checks a) :
    Decided (if hp : p then result hp else .error e) ((p, e) :: checks) a := by
  by_cases hp : p
  · have hone := require (e := e) fun _ : p => h hp
    rw [if_pos hp] at hone
    rwa [dif_pos hp]
  · rw [dif_neg hp]
    exact .failed (firstFails_cons.2 (.inl ⟨hp, rfl⟩)) rfl

theorem unique {result' : Except ElfError α} (h : Decided result checks a)
    (h' : Decided result' checks a) : result = result' := by
  rcases h' with ⟨hall, rfl⟩ | ⟨hfirst, rfl⟩
  · exact (h.ok_iff a).2 ⟨hall, rfl⟩
  · exact (h.error_iff _).2 hfirst

theorem bind {f : α → Except ElfError β} (h : Decided result checks a)
    (hf : AllPass checks → Decided (f a) more b) : Decided (result >>= f) (checks ++ more) b := by
  rcases h with ⟨hall, rfl⟩ | ⟨hfirst, rfl⟩
  · rcases hf hall with ⟨hmore, hr⟩ | ⟨hfirst, hr⟩
    · exact .passed (allPass_append.2 ⟨hall, hmore⟩) hr
    · exact .failed (firstFails_append_of_pass hall hfirst) hr
  · exact .failed (firstFails_append hfirst) rfl

theorem map (h : Decided result checks a) (f : α → β) :
    Decided (result >>= fun x => pure (f x)) checks (f a) := by
  rcases h with ⟨hall, rfl⟩ | ⟨hfirst, rfl⟩
  · exact .passed hall rfl
  · exact .failed hfirst rfl

/-- one list of checks for each item, one item after another -/
theorem mapM {ι : Type} {f : ι → Except ElfError β} {g : ι → β} {each : ι → List Check}
    (items : List ι) (h : ∀ i ∈ items, Decided (f i) (each i) (g i)) :
    Decided (items.mapM f) (items.flatMap each) (items.map g) := by
  induction items with
  | nil => exact nil []
  | cons i items ih =>
    rw [List.mapM_cons, List.flatMap_cons, List.map_cons]
    refine (h i List.mem_cons_self).bind fun _ => ?_
    exact (ih fun j hj => h j (List.mem_cons_of_mem i hj)).map (g i :: ·)

end Decided

end Checks

section Stops

variable {ε α : Type} {x : Except ε α}

theorem mapError_eq_ok {a : α} : x.mapError Stop.error = .ok a ↔ x = .ok a := by
  cases x <;> simp [Except.mapError]

theorem mapError_eq_error {e : ε} :
    x.mapError Stop.error = .error (.error e) ↔ x = .error e := by
  cases x <;> simp [Except.mapError]

theorem mapError_ne_panic {p : Panic} : x.mapError Stop.error ≠ .error (.panic p) := by
  cases x <;> simp [Except.mapError]

end Stops

/-! ## files -/

theorem max_eq_of_le {a b : UInt64} (h : b ≤ a) : max a b = a := by
  show (if a ≤ b then b else a) = a
  split
  · next h' => exact UInt64.le_antisymm h h'
  · rfl

namespace ElfFile

variable (bytes : ByteArray)

/-- the number in the `length` bytes from `offset` on: these are its digits, the least significant
first -/
def number (offset length : Nat) : Nat :=
  Nat.ofDigits 256 (((bytes.data.toList.drop offset).take length).map UInt8.toNat)

/-- the file header, as the bytes tell it -/
def header : ElfHeader where
  type := .ofNat (number bytes 16 2)
  machine := .ofNat (number bytes 18 2)
  version := .ofNat (number bytes 20 4)
  entry := ⟨.ofNat (number bytes 24 8)⟩
  programOffset := .ofNat (number bytes 32 8)
  programSize := .ofNat (number bytes 54 2)
  programCount := .ofNat (number bytes 56 2)

/-- what is asked of a file header -/
def headerChecks : List Check :=
  [(64 ≤ bytes.size, .tooShort),
   (bytes.data.toList.take 4 = [0x7F, 0x45, 0x4C, 0x46], .badMagic),
   (bytes.data[4]? = some 2, .badClass),
   (bytes.data[5]? = some 1, .badHeader),
   (number bytes 16 2 ≠ 3, .positionIndependent),
   (number bytes 16 2 = 2, .badHeader),
   (number bytes 18 2 = 62, .badMachine),
   (number bytes 20 4 = 1 ∧ number bytes 54 2 = 56, .badHeader),
   (number bytes 32 8 + 56 * number bytes 56 2 < 2 ^ 64 ∧
     number bytes 32 8 + 56 * number bytes 56 2 ≤ bytes.size, .outOfBounds)]

/-- where program header `i` starts -/
def place (i : Nat) : Nat := number bytes 32 8 + 56 * i

/-- the program header that starts at `p` -/
def programHeader (p : Nat) : ElfSegment where
  type := .ofNat (number bytes p 4)
  flags := .ofNat (number bytes (p + 4) 4)
  offset := .ofNat (number bytes (p + 8) 8)
  va := ⟨.ofNat (number bytes (p + 16) 8)⟩
  fileSize := .ofNat (number bytes (p + 32) 8)
  memorySize := .ofNat (number bytes (p + 40) 8)

/-- where the headers of the segments to be loaded start, in the order of the file -/
def loads : List Nat :=
  ((List.range (number bytes 56 2)).map (place bytes)).filter fun p => number bytes p 4 = 1

/-- what is asked of the segment whose header starts at `p` -/
def segmentChecks (p : Nat) : List Check :=
  [(number bytes (p + 32) 8 ≤ number bytes (p + 40) 8,
     .badSegment ⟨.ofNat (number bytes (p + 16) 8)⟩),
   (number bytes (p + 8) 8 + number bytes (p + 32) 8 < 2 ^ 64 ∧
     number bytes (p + 8) 8 + number bytes (p + 32) 8 ≤ bytes.size, .outOfBounds)]

/-- the segment whose header starts at `p` -/
def segment (p : Nat) : Segment where
  va := ⟨.ofNat (number bytes (p + 16) 8)⟩
  size := .ofNat (number bytes (p + 40) 8)
  data := bytes.extract (number bytes (p + 8) 8)
    (number bytes (p + 8) 8 + number bytes (p + 32) 8)
  writable := (number bytes (p + 4) 4).testBit 1

/-- what is asked of a program, in the order in which it is asked -/
def checks : List Check := headerChecks bytes ++ (loads bytes).flatMap (segmentChecks bytes)

/-- the program in a file -/
def image (name : String) : ProgramImage where
  name
  entry := ⟨.ofNat (number bytes 24 8)⟩
  segments := (loads bytes).map (segment bytes)

variable {bytes} {other : ByteArray} {offset length p i : Nat}

/-- two files of one size that differ only in program headers that are not to be loaded, and where
neither a header nor the data of a segment lies -/
structure SameProgram (bytes other : ByteArray) : Prop where
  size : other.size = bytes.size
  header : ∀ k < 64, other.data[k]? = bytes.data[k]?
  types : ∀ i < number bytes 56 2,
    number other (place bytes i) 4 = 1 ↔ number bytes (place bytes i) 4 = 1
  loaded : ∀ p ∈ loads bytes, ∀ k, p ≤ k → k < p + 56 → other.data[k]? = bytes.data[k]?
  data : ∀ p ∈ loads bytes, ∀ k, number bytes (p + 8) 8 ≤ k →
    k < number bytes (p + 8) 8 + number bytes (p + 32) 8 → other.data[k]? = bytes.data[k]?

/-! ### numbers -/

theorem littleEndian_eq (h : offset + length ≤ bytes.size) :
    littleEndian bytes offset length h = number bytes offset length := by
  induction length generalizing offset with
  | zero => rw [littleEndian, number, List.take_zero, List.map_nil, Nat.ofDigits_nil]
  | succ length ih =>
    have hlt : offset < bytes.data.toList.length := by
      rw [Array.length_toList]
      exact Nat.lt_of_lt_of_le (by omega) h
    rw [littleEndian, ih, number, number, List.drop_eq_getElem_cons hlt, List.take_succ_cons,
      List.map_cons, Nat.ofDigits_cons]
    rfl

theorem number_lt (bytes : ByteArray) (offset length : Nat) :
    number bytes offset length < 256 ^ length := by
  have hdigits : ∀ d ∈ ((bytes.data.toList.drop offset).take length).map UInt8.toNat, d < 256 := by
    intro d hd
    obtain ⟨b, -, rfl⟩ := List.mem_map.1 hd
    exact b.toNat_lt
  refine Nat.lt_of_lt_of_le (Nat.ofDigits_lt_base_pow_length (by decide) hdigits) ?_
  refine Nat.pow_le_pow_right (by decide) ?_
  rw [List.length_map]
  exact List.length_take_le _ _

/-- a number is told by its bytes alone -/
theorem number_congr (h : ∀ k, offset ≤ k → k < offset + length → other.data[k]? = bytes.data[k]?) :
    number other offset length = number bytes offset length := by
  unfold number
  congr 2
  apply List.ext_getElem?
  intro k
  rw [List.getElem?_take, List.getElem?_take]
  split
  · next hk =>
    rw [List.getElem?_drop, List.getElem?_drop, Array.getElem?_toList, Array.getElem?_toList]
    exact h (offset + k) (by omega) (by omega)
  · rfl

/-! ### fields -/

theorem toNat_half : (UInt16.ofNat (number bytes offset 2)).toNat = number bytes offset 2 :=
  UInt16.toNat_ofNat_of_lt' (number_lt bytes offset 2)

theorem toNat_single : (UInt32.ofNat (number bytes offset 4)).toNat = number bytes offset 4 :=
  UInt32.toNat_ofNat_of_lt' (number_lt bytes offset 4)

theorem toNat_double : (UInt64.ofNat (number bytes offset 8)).toNat = number bytes offset 8 :=
  UInt64.toNat_ofNat_of_lt' (number_lt bytes offset 8)

theorem toNat_programOffset : (header bytes).programOffset.toNat = number bytes 32 8 := toNat_double

theorem toNat_programCount : (header bytes).programCount.toNat = number bytes 56 2 := toNat_half

theorem parse_eq (h : 64 ≤ bytes.size) : ElfHeader.parse bytes h = header bytes := by
  simp only [ElfHeader.parse, littleEndian_eq, header]

theorem read?_eq (h : p + 56 ≤ bytes.size) :
    ElfSegment.read? bytes p = some (programHeader bytes p) := by
  have h : p + ElfSegment.size ≤ bytes.size := h
  rw [ElfSegment.read?, dif_pos h]
  simp only [ElfSegment.read, littleEndian_eq, programHeader]

theorem start_eq (h : 64 ≤ bytes.size) :
    ElfHeader.start bytes h = bytes.data.toList.take 4 := by
  have hsize : 64 ≤ bytes.data.toList.length := h
  have hbyte (k : Nat) (hk : k < 64) : bytes.data.toList.drop k
      = bytes[k] :: bytes.data.toList.drop (k + 1) :=
    List.drop_eq_getElem_cons (Nat.lt_of_lt_of_le hk hsize)
  rw [← List.drop_zero (l := bytes.data.toList), hbyte 0 (by decide), hbyte 1 (by decide),
    hbyte 2 (by decide), hbyte 3 (by decide)]
  rfl

theorem isLoaded_iff : (programHeader bytes p).isLoaded = true ↔ number bytes p 4 = 1 := by
  rw [ElfSegment.isLoaded, beq_iff_eq, ← UInt32.toNat_inj]
  exact Eq.congr_left toNat_single

theorem writable_eq : (programHeader bytes p).writable = (number bytes (p + 4) 4).testBit 1 := by
  have hand : (UInt32.ofNat (number bytes (p + 4) 4) &&& 2).toNat
      = ((number bytes (p + 4) 4).testBit 1).toNat * 2 := by
    rw [UInt32.toNat_and, toNat_single]
    exact Nat.and_two_pow _ 1
  rw [ElfSegment.writable, Bool.eq_iff_iff, bne_iff_ne, ne_eq, ← UInt32.toNat_inj]
  show ¬ (UInt32.ofNat (number bytes (p + 4) 4) &&& 2).toNat = 0 ↔ _
  rw [hand]
  cases (number bytes (p + 4) 4).testBit 1 <;> decide

/-! ## the reader decides the checks -/

theorem read_decided (bytes : ByteArray) :
    Decided (ElfHeader.read bytes) (headerChecks bytes) (header bytes) := by
  refine .require_dep fun h => ?_
  have h : 64 ≤ bytes.size := h
  have hbyte (k : Nat) (hk : k < 64) (b : UInt8) :
      bytes[k] ≠ b ↔ ¬ bytes.data[k]? = some b := by
    rw [Array.getElem?_eq_getElem (Nat.lt_of_lt_of_le hk h), Option.some_inj]
    rfl
  dsimp only
  rw [parse_eq h]
  refine .guard (by rw [start_eq h, ElfHeader.magic]) fun _ => ?_
  refine .guard (hbyte 4 (by decide) 2) fun _ => ?_
  refine .guard (hbyte 5 (by decide) 1) fun _ => ?_
  refine .guard ?_ fun _ => ?_
  · rw [← UInt16.toNat_inj, not_not]
    exact Eq.congr_left toNat_half
  refine .guard (not_congr ?_) fun _ => ?_
  · rw [← UInt16.toNat_inj]
    exact Eq.congr_left toNat_half
  refine .guard (not_congr ?_) fun _ => ?_
  · rw [← UInt16.toNat_inj]
    exact Eq.congr_left toNat_half
  refine .guard ?_ fun _ => ?_
  · rw [not_and_or]
    refine or_congr (not_congr ?_) (not_congr ?_)
    · rw [← UInt32.toNat_inj]
      exact Eq.congr_left toNat_single
    · exact Eq.congr_left toNat_half
  rw [toNat_programOffset, toNat_programCount]
  exact .require fun _ => .nil _

/-- no program header is left out: all of them lie in a file whose header passes, and where they lie
is told by words -/
theorem segment?_eq (h : AllPass (headerChecks bytes)) (hi : i < number bytes 56 2) :
    (header bytes).segment? bytes i = .ok (some (programHeader bytes (place bytes i))) := by
  obtain ⟨hword, hbound⟩ : number bytes 32 8 + 56 * number bytes 56 2 < 2 ^ 64 ∧
      number bytes 32 8 + 56 * number bytes 56 2 ≤ bytes.size := by
    simp only [headerChecks, allPass_cons] at h
    tauto
  have hoffset : (header bytes).programOffset.toNat = number bytes 32 8 := toNat_programOffset
  have hstep : (UInt64.ofNat (ElfSegment.size * i)).toNat = 56 * i :=
    UInt64.toNat_ofNat_of_lt' (show 56 * i < 2 ^ 64 by omega)
  have hsize : (UInt64.ofNat ElfSegment.size).toNat = 56 := rfl
  have hplace : ((header bytes).programOffset + UInt64.ofNat (ElfSegment.size * i)).toNat
      = place bytes i := by
    rw [UInt64.toNat_add, hoffset, hstep, place]
    omega
  unfold ElfHeader.segment?
  rw [Word.add_of_lt (by omega), ok_bind, Word.add_of_lt (by rw [hplace, place]; omega), ok_bind,
    hplace, read?_eq (by rw [place]; omega)]
  rfl

theorem filterMapM_ok {ε α β : Type} {f : α → Except ε (Option β)} {g : α → Option β} {l : List α}
    (h : ∀ a ∈ l, f a = .ok (g a)) : l.filterMapM f = .ok (l.filterMap g) := by
  induction l with
  | nil => rfl
  | cons a l ih =>
    obtain ⟨ha, hl⟩ := List.forall_mem_cons.1 h
    rw [List.filterMapM_cons, ha, ok_bind, ih hl, List.filterMap_cons]
    cases g a <;> rfl

theorem segments_eq (h : AllPass (headerChecks bytes)) :
    (header bytes).segments bytes
      = .ok ((List.range (number bytes 56 2)).map fun i =>
        programHeader bytes (place bytes i)) := by
  rw [ElfHeader.segments, toNat_programCount,
    filterMapM_ok fun i hi => segment?_eq h (List.mem_range.1 hi), ← Function.comp_def some,
    List.filterMap_eq_map]

theorem load_decided (bytes : ByteArray) (p : Nat) :
    Decided ((programHeader bytes p).load bytes) (segmentChecks bytes p) (segment bytes p) := by
  have hoffset : (programHeader bytes p).offset.toNat = number bytes (p + 8) 8 := toNat_double
  have hfile : (programHeader bytes p).fileSize.toNat = number bytes (p + 32) 8 := toNat_double
  have hmemory : (programHeader bytes p).memorySize.toNat = number bytes (p + 40) 8 := toNat_double
  unfold ElfSegment.load
  rw [hoffset, hfile]
  refine .guard ?_ fun hsize => .require fun hinside => ?_
  · rw [UInt64.lt_iff_toNat_lt, hfile, hmemory, not_le]
  · -- the data are as many bytes as the header says, so the segment is as large as it says
    have hinside := hinside.2
    have hdata : (bytes.extract (number bytes (p + 8) 8)
        (number bytes (p + 8) 8 + number bytes (p + 32) 8)).size = number bytes (p + 32) 8 := by
      rw [ByteArray.size_extract]
      omega
    have hmax : max (programHeader bytes p).memorySize (UInt64.ofNat (number bytes (p + 32) 8))
        = (programHeader bytes p).memorySize := by
      apply max_eq_of_le
      rw [UInt64.le_iff_toNat_le, toNat_double, hmemory]
      exact hsize
    have hsegment : Segment.ofData (programHeader bytes p).va
        (bytes.extract (number bytes (p + 8) 8)
          (number bytes (p + 8) 8 + number bytes (p + 32) 8))
        (programHeader bytes p).memorySize (programHeader bytes p).writable = segment bytes p := by
      rw [Segment.ofData, hdata, hmax, writable_eq]
      rfl
    rw [hsegment]
    exact .nil _

theorem load?_eq (h : AllPass (headerChecks bytes)) (hi : i < number bytes 56 2) :
    (header bytes).load? bytes i = if number bytes (place bytes i) 4 = 1
      then some <$> ((programHeader bytes (place bytes i)).load bytes).mapError .error
      else .ok none := by
  rw [ElfHeader.load?, segment?_eq h hi]
  exact if_congr isLoaded_iff rfl rfl

/-- the segments to be loaded are loaded in order, and nothing panics on the way -/
theorem filterMapM_load? (h : AllPass (headerChecks bytes)) {items : List Nat}
    (hitems : ∀ i ∈ items, i < number bytes 56 2) :
    items.filterMapM ((header bytes).load? bytes)
      = (((items.map (place bytes)).filter fun p => number bytes p 4 = 1).mapM fun p =>
        (programHeader bytes p).load bytes).mapError .error := by
  induction items with
  | nil => rfl
  | cons i items ih =>
    obtain ⟨hi, hrest⟩ := List.forall_mem_cons.1 hitems
    rw [List.filterMapM_cons, load?_eq h hi, ih hrest, List.map_cons, List.filter_cons]
    by_cases hload : number bytes (place bytes i) 4 = 1
    · rw [if_pos hload, if_pos (decide_eq_true hload), List.mapM_cons]
      cases (programHeader bytes (place bytes i)).load bytes with
      | error e => rfl
      | ok segment =>
        cases ((items.map (place bytes)).filter fun p => number bytes p 4 = 1).mapM fun p =>
          (programHeader bytes p).load bytes <;> rfl
    · rw [if_neg hload, if_neg (mt of_decide_eq_true hload)]
      rfl

/-- the program in a file, with its headers found from the numbers of the file -/
def reading (bytes : ByteArray) (name : String) : Except ElfError ProgramImage := do
  let header ← ElfHeader.read bytes
  let segments ← (loads bytes).mapM fun p => (programHeader bytes p).load bytes
  return .of name segments (some header.entry)

theorem ofElf_eq_reading (bytes : ByteArray) (name : String) :
    ProgramImage.ofElf name bytes = (reading bytes name).mapError .error := by
  unfold ProgramImage.ofElf reading
  rcases read_decided bytes with ⟨hall, hread⟩ | ⟨-, hread⟩
  · rw [hread, Except.mapError, ok_bind, ok_bind, toNat_programCount,
      filterMapM_load? hall fun i hi => List.mem_range.1 hi, ← loads]
    cases (loads bytes).mapM fun p => (programHeader bytes p).load bytes <;> rfl
  · rw [hread]
    rfl

theorem reading_decided (bytes : ByteArray) (name : String) :
    Decided (reading bytes name) (checks bytes) (image bytes name) := by
  refine (read_decided bytes).bind fun _ => ?_
  have hsegments := Decided.mapM (loads bytes) fun p _ => load_decided bytes p
  exact hsegments.map fun segments => ProgramImage.of name segments (some (header bytes).entry)

/-! ## what the result does not depend on -/

namespace SameProgram

theorem number_eq (h : SameProgram bytes other) (offset length : Nat)
    (hlt : offset + length ≤ 64) : number other offset length = number bytes offset length :=
  number_congr fun k _ hk => h.header k (by omega)

theorem headerChecks_eq (h : SameProgram bytes other) :
    headerChecks other = headerChecks bytes := by
  have hfour : other.data.toList.take 4 = bytes.data.toList.take 4 := by
    apply List.ext_getElem?
    intro k
    rw [List.getElem?_take, List.getElem?_take]
    split
    · next hk =>
      rw [Array.getElem?_toList, Array.getElem?_toList]
      exact h.header k (by omega)
    · rfl
  simp only [headerChecks, hfour, h.size, h.header 4 (by decide), h.header 5 (by decide),
    h.number_eq 16 2 (by decide), h.number_eq 18 2 (by decide),
    h.number_eq 20 4 (by decide), h.number_eq 32 8 (by decide),
    h.number_eq 54 2 (by decide), h.number_eq 56 2 (by decide)]

theorem loads_eq (h : SameProgram bytes other) : loads other = loads bytes := by
  have hcount := h.number_eq 56 2 (by decide)
  have hplace : place other = place bytes := by
    funext i
    rw [place, place, h.number_eq 32 8 (by decide)]
  rw [loads, loads, hcount, hplace]
  refine List.filter_congr fun p hp => ?_
  obtain ⟨i, hi, rfl⟩ := List.mem_map.1 hp
  exact decide_eq_decide.2 (h.types i (List.mem_range.1 hi))

/-- the header of a segment is the same in both files -/
theorem number_load (h : SameProgram bytes other) (hp : p ∈ loads bytes) (offset length : Nat)
    (hlt : offset + length ≤ 56) :
    number other (p + offset) length = number bytes (p + offset) length :=
  number_congr fun k _ hk => h.loaded p hp k (by omega) (by omega)

theorem segmentChecks_eq (h : SameProgram bytes other) (hp : p ∈ loads bytes) :
    segmentChecks other p = segmentChecks bytes p := by
  simp only [segmentChecks, h.size, h.number_load hp 8 8 (by decide),
    h.number_load hp 16 8 (by decide), h.number_load hp 32 8 (by decide),
    h.number_load hp 40 8 (by decide)]

theorem segment_eq (h : SameProgram bytes other) (hp : p ∈ loads bytes) :
    segment other p = segment bytes p := by
  have hdata : other.extract (number bytes (p + 8) 8)
        (number bytes (p + 8) 8 + number bytes (p + 32) 8)
      = bytes.extract (number bytes (p + 8) 8)
        (number bytes (p + 8) 8 + number bytes (p + 32) 8) := by
    apply ByteArray.ext
    rw [ByteArray.data_extract, ByteArray.data_extract]
    apply Array.ext_getElem?
    intro k
    have hsize : other.data.size = bytes.data.size := h.size
    rw [Array.getElem?_extract, Array.getElem?_extract, hsize]
    split
    · exact h.data p hp _ (by omega) (by omega)
    · rfl
  simp only [segment, h.number_load hp 4 4 (by decide), h.number_load hp 8 8 (by decide),
    h.number_load hp 16 8 (by decide), h.number_load hp 32 8 (by decide),
    h.number_load hp 40 8 (by decide), hdata]

theorem ofElf_eq (h : SameProgram bytes other) (name : String) :
    ProgramImage.ofElf name other = ProgramImage.ofElf name bytes := by
  have hchecks : checks other = checks bytes := by
    rw [checks, checks, h.headerChecks_eq, h.loads_eq, List.flatMap_congr fun p hp =>
      h.segmentChecks_eq hp]
  have himage : image other name = image bytes name := by
    rw [image, image, h.loads_eq, h.number_eq 24 8 (by decide),
      List.map_congr_left fun p hp => h.segment_eq hp]
  have hother := reading_decided other name
  rw [hchecks, himage] at hother
  rw [ofElf_eq_reading, ofElf_eq_reading, hother.unique (reading_decided bytes name)]

end SameProgram

end ElfFile

open ElfFile in
/-- the reader ends with an answer for every file, and reads no byte that the file does not have.
It accepts a file if and only if all checks pass, and names the error of the first that does not;
then it finds every program header, and the program has the segments to be loaded and depends on
nothing else.  It never panics. -/
theorem ProgramImage.ofElf_decided (bytes : ByteArray) :
    (∀ h, ElfHeader.read bytes = .ok h ↔ AllPass (headerChecks bytes) ∧ h = header bytes) ∧
    (∀ e, ElfHeader.read bytes = .error e ↔ FirstFails (headerChecks bytes) e) ∧
    (∀ h, ElfHeader.read bytes = .ok h → h.segments bytes
      = .ok ((List.range (number bytes 56 2)).map fun i => programHeader bytes (place bytes i))) ∧
    ∀ name, (∀ x, ofElf name bytes = .ok x ↔ AllPass (checks bytes) ∧ x = image bytes name) ∧
      (∀ e, ofElf name bytes = .error (.error e) ↔ FirstFails (checks bytes) e) ∧
      (∀ p, ofElf name bytes ≠ .error (.panic p)) ∧
      ∀ other, SameProgram bytes other → ofElf name other = ofElf name bytes := by
  have hread := read_decided bytes
  refine ⟨hread.ok_iff, hread.error_iff, fun h hh => ?_, fun name => ?_⟩
  · obtain ⟨hall, rfl⟩ := (hread.ok_iff h).1 hh
    exact segments_eq hall
  · have himage := reading_decided bytes name
    refine ⟨fun x => ?_, fun e => ?_, fun p => ?_, fun other hother => hother.ofElf_eq name⟩
    · rw [ofElf_eq_reading, mapError_eq_ok, himage.ok_iff]
    · rw [ofElf_eq_reading, mapError_eq_error, himage.error_iff]
    · rw [ofElf_eq_reading]
      exact mapError_ne_panic

end PagedKernel
