import PagedKernel.Proofs.Paging.UserMemory

/-!
# Texts

How reading a text that ends with a zero byte ends.

* `AddressSpace.TextAt`, `AddressSpace.NoTextAt`   there is a text, or a byte before its end is
  denied
* `AddressSpace.readTextFrom_piece`  what one page holds of a text
* `AddressSpace.readTextFrom_cases`  a text is read to its end, and no further
* `AddressSpace.readText_cases`      so it is from any address whose run does not wrap around
* `AddressSpace.readText_ok`         reading a text always gives an answer

The reader takes what lies in one page at a time.  What one piece leaves to be read is again a text,
or again none, at the address that follows.
-/

namespace PagedKernel

namespace AddressSpace

variable {mem : Memory} {roots : Finset Frame} {root : Frame} {va : VirtualAddress} {n : Nat}
  {ok : Frame → Prop} {inv : Nat → Prop}

/-- what is found of a byte in a row of bytes: its first place, or that it is not there -/
theorem findIdx?_loop {b : ByteArray} {test : UInt8 → Bool} (start : Nat) :
    (ByteArray.findIdx?.loop b test start).elim
      (∀ j (h : j < b.size), start ≤ j → test b[j] = false)
      fun n => ∃ h : n < b.size, test b[n] = true ∧
        ∀ j (hj : j < n), start ≤ j → test b[j] = false := by
  fun_induction ByteArray.findIdx?.loop b test start with
  | case1 i hi htest => exact ⟨hi, htest, fun j hj hij => absurd hj (Nat.not_lt.2 hij)⟩
  | case2 i hi htest ih =>
    rw [Bool.not_eq_true] at htest
    have hnext (j : Nat) (h : j < b.size) (hij : i ≤ j)
        (hlater : i + 1 ≤ j → test b[j] = false) : test b[j] = false := by
      rcases Nat.eq_or_lt_of_le hij with rfl | hlt
      · exact htest
      · exact hlater hlt
    cases hloop : ByteArray.findIdx?.loop b test (i + 1) with
    | none =>
      rw [hloop] at ih
      exact fun j h hij => hnext j h hij (ih j h)
    | some n =>
      rw [hloop] at ih
      obtain ⟨h, hn, hbefore⟩ := ih
      exact ⟨h, hn, fun j hj hij => hnext j (Nat.lt_trans hj h) hij (hbefore j hj)⟩
  | case3 i hi => exact fun j h hij => absurd h (by omega)

/-- the text at `va` has `n` bytes: they are granted, none of them is zero, and a zero byte that is
granted ends them unless there are `left` of them -/
structure TextAt (mem : Memory) (root : Frame) (va : VirtualAddress) (left n : Nat) : Prop where
  le : n ≤ left
  granted : Granted mem root (.process .userRead) va n
  nonzero : ∀ i < n, mem.mappedByte root (va.value.toNat + i) ≠ some 0
  stop : n < left → Granted mem root (.process .userRead) va (n + 1) ∧
    mem.mappedByte root (va.value.toNat + n) = some 0

/-- no text is there: before a zero byte there is one that is not granted, at place `i` -/
structure NoTextAt (mem : Memory) (root : Frame) (va : VirtualAddress) (left : Nat)
    (fault : UserFault) (i : Nat) : Prop where
  denied : DeniedAt mem root (.process .userRead) va left fault i
  nonzero : ∀ j < i, mem.mappedByte root (va.value.toNat + j) ≠ some 0

section Texts

variable {next : VirtualAddress} {done left : Nat}

/-- a text ends in one place -/
theorem TextAt.unique {n' : Nat} (h : TextAt mem root va left n) (h' : TextAt mem root va left n') :
    n = n' := by
  have hle := h.le
  have hle' := h'.le
  by_contra hne
  rcases Nat.lt_or_gt_of_ne hne with hlt | hlt
  · exact h'.nonzero n hlt (h.stop (by omega)).2
  · exact h.nonzero n' hlt (h'.stop (by omega)).2

theorem NoTextAt.not_textAt {fault : UserFault} {i : Nat} (h : NoTextAt mem root va left fault i) :
    ¬ TextAt mem root va left n := by
  intro htext
  have hlt := h.denied.1
  have hnot := h.denied.not_granted
  rcases Nat.lt_trichotomy i n with hin | rfl | hin
  · exact hnot (htext.granted.mono hin)
  · exact hnot (htext.stop hlt).1
  · exact h.nonzero n hin (htext.stop (by omega)).2

/-- the bytes that were read before a text belong to it if none of them is zero -/
theorem TextAt.append (h : TextAt mem root next (left - done) n) (hle : done ≤ left)
    (hgranted : Granted mem root (.process .userRead) va done)
    (hnonzero : ∀ i < done, mem.mappedByte root (va.value.toNat + i) ≠ some 0)
    (hnext : next.value.toNat = va.value.toNat + done) : TextAt mem root va left (done + n) where
  le := by
    have := h.le
    omega
  granted := hgranted.append hnext h.granted
  nonzero i hi := by
    by_cases hold : i < done
    · exact hnonzero i hold
    · have hsame : next.value.toNat + (i - done) = va.value.toNat + i := by omega
      rw [← hsame]
      exact h.nonzero (i - done) (by omega)
  stop hlt := by
    obtain ⟨hgranted', hzero⟩ := h.stop (by omega)
    rw [hnext, Nat.add_assoc] at hzero
    exact ⟨hgranted.append hnext hgranted', hzero⟩

theorem NoTextAt.append {fault : UserFault} {i : Nat}
    (h : NoTextAt mem root next (left - done) fault i)
    (hgranted : Granted mem root (.process .userRead) va done)
    (hnonzero : ∀ i < done, mem.mappedByte root (va.value.toNat + i) ≠ some 0)
    (hnext : next.value.toNat = va.value.toNat + done) :
    NoTextAt mem root va left fault (done + i) where
  denied := h.denied.append hgranted hnext
  nonzero j hj := by
    by_cases hold : j < done
    · exact hnonzero j hold
    · have hsame : next.value.toNat + (j - done) = va.value.toNat + j := by omega
      rw [← hsame]
      exact h.nonzero (j - done) (by omega)

/-- bytes that are not zero where they were read are not zero in memory -/
theorem BytesAt.nonzero {part : ByteArray} (h : BytesAt mem root va part) (hn : n ≤ part.size)
    (hbefore : ∀ i (hi : i < n), (part[i] == 0) = false) :
    ∀ i < n, mem.mappedByte root (va.value.toNat + i) ≠ some 0 := by
  intro i hi hzero
  rw [h i (Nat.lt_of_lt_of_le hi hn)] at hzero
  have hfalse := hbefore i hi
  rw [Option.some.inj hzero] at hfalse
  cases hfalse

/-- the first zero byte of what was read ends the text -/
theorem BytesAt.textAt {part : ByteArray} (h : BytesAt mem root va part) (hle : part.size ≤ left)
    (hgranted : Granted mem root (.process .userRead) va part.size) (hn : n < part.size)
    (hzero : (part[n] == 0) = true) (hbefore : ∀ i (hi : i < n), (part[i] == 0) = false) :
    TextAt mem root va left n where
  le := by omega
  granted := hgranted.mono (Nat.le_of_lt hn)
  nonzero := h.nonzero (Nat.le_of_lt hn) hbefore
  stop _ := ⟨hgranted.mono hn, by rw [h n hn, beq_iff_eq.1 hzero]⟩

/-- one piece of what is left holds the end of the text, or is denied at its first byte, or is all
granted and holds no zero byte; then what follows it is read -/
theorem readTextFrom_piece (hmem : Forest mem roots) (hr : root ∈ roots) (va : VirtualAddress)
    (hleft : 0 < left) (hwithin : Within mem root (.process .userRead) ok va left)
    (hend : ∀ i ≤ left, Granted mem root (.process .userRead) va i → va.value.toNat + i < 2 ^ 64)
    (out : ByteArray) :
    ∃ part, BytesAt mem root va part ∧
      (TextAt mem root va left part.size ∧
          (AddressSpace.mk root).readTextFrom mem va left out = .ok (.ok (out ++ part)) ∨
        (∃ fault, NoTextAt mem root va left fault 0 ∧
          (AddressSpace.mk root).readTextFrom mem va left out = .ok (.error fault)) ∨
        (0 < part.size ∧ part.size ≤ left ∧
          Granted mem root (.process .userRead) va part.size ∧
          (∀ i < part.size, mem.mappedByte root (va.value.toNat + i) ≠ some 0) ∧
          ∃ next : VirtualAddress, next.value.toNat = va.value.toNat + part.size ∧
            (AddressSpace.mk root).readTextFrom mem va left out
              = (AddressSpace.mk root).readTextFrom mem next (left - part.size) (out ++ part))) := by
  have hpos := pageChunk_pos va left hleft
  have hle := pageChunk_le va left
  obtain ⟨part, refusal, hcopy, hbytes, hends⟩ := copyFrom_within hmem hr (hwithin.mono hle)
  rw [readTextFrom, dif_pos hleft]
  dsimp only
  rw [hcopy, ok_bind]
  cases refusal with
  | some fault =>
    have hzero := hends.eq_zero (Nat.min_le_right _ _)
    exact ⟨part, hbytes, .inr (.inl ⟨fault,
      ⟨hzero ▸ hends.mono hle, fun j hj => absurd hj (Nat.not_lt_zero j)⟩, rfl⟩)⟩
  | none =>
    obtain ⟨hsize, hgranted⟩ := hends
    rw [← hsize] at hpos hle hgranted ⊢
    have hfind : (part.findIdx? (· == 0)).elim _ _ := findIdx?_loop 0
    dsimp only
    cases hstop : part.findIdx? (· == 0) with
    | some stop =>
      rw [hstop] at hfind
      obtain ⟨hlt, hzero, hbefore⟩ := hfind
      have hcut : (part.extract 0 stop).size = stop := by
        rw [ByteArray.size_extract]
        omega
      refine ⟨part.extract 0 stop, hbytes.extract stop, .inl ⟨?_, rfl⟩⟩
      rw [hcut]
      exact hbytes.textAt hle hgranted hlt hzero fun i hi => hbefore i hi (Nat.zero_le i)
    | none =>
      rw [hstop] at hfind
      have hnonzero := hbytes.nonzero (Nat.le_refl _) fun i hi => hfind i hi (Nat.zero_le i)
      obtain ⟨next, hadd, hnext⟩ := va.exists_add (hend _ hle hgranted)
      refine ⟨part, hbytes, .inr (.inr ⟨hpos, hle, hgranted, hnonzero, next, hnext, ?_⟩)⟩
      dsimp only
      rw [hadd, ok_bind]

/-- a text is read to its end, and no further; without one the report tells of the first byte that
is not granted -/
theorem readTextFrom_cases (hmem : Forest mem roots) (hr : root ∈ roots) (va : VirtualAddress)
    (left : Nat) (hwithin : Within mem root (.process .userRead) ok va left)
    (hend : ∀ i ≤ left, Granted mem root (.process .userRead) va i → va.value.toNat + i < 2 ^ 64)
    (out : ByteArray) :
    (∃ part, TextAt mem root va left part.size ∧ BytesAt mem root va part ∧
      (AddressSpace.mk root).readTextFrom mem va left out = .ok (.ok (out ++ part))) ∨
    ∃ fault i, NoTextAt mem root va left fault i ∧
      (AddressSpace.mk root).readTextFrom mem va left out = .ok (.error fault) := by
  induction left using Nat.strongRecOn generalizing va out with
  | ind left ih =>
    by_cases hleft : 0 < left
    · obtain ⟨part, hbytes, hpiece⟩ := readTextFrom_piece hmem hr va hleft hwithin hend out
      rcases hpiece with ⟨htext, hread⟩ | ⟨fault, hno, hread⟩ |
        ⟨hpos, hle, hgranted, hnonzero, next, hnext, hread⟩
      · exact .inl ⟨part, htext, hbytes, hread⟩
      · exact .inr ⟨fault, 0, hno, hread⟩
      · have hend' : ∀ i ≤ left - part.size,
            Granted mem root (.process .userRead) next i → next.value.toNat + i < 2 ^ 64 := by
          intro i hi hmore
          rw [hnext, Nat.add_assoc]
          exact hend _ (by omega) (hgranted.append hnext hmore)
        rw [hread]
        rcases ih _ (by omega) next (hwithin.rest hgranted hnext) hend' (out ++ part) with
          ⟨more, htext, hmore, hrest⟩ | ⟨fault, i, hno, hrest⟩
        · refine .inl ⟨part ++ more, ?_, hbytes.append hnext hmore, ?_⟩
          · rw [ByteArray.size_append]
            exact htext.append hle hgranted hnonzero hnext
          · rw [hrest, ByteArray.append_assoc]
        · exact .inr ⟨fault, _, hno.append hgranted hnonzero hnext, hrest⟩
    · obtain rfl : left = 0 := by omega
      refine .inl ⟨ByteArray.empty, ⟨Nat.le_refl 0, .zero, fun i hi => ?_,
        fun hlt => absurd hlt (Nat.lt_irrefl 0)⟩, .empty, ?_⟩
      · exact absurd hi (Nat.not_lt_zero i)
      rw [readTextFrom, dif_neg hleft, ByteArray.append_empty]
      rfl

theorem readText_cases (hmem : Forest mem roots) (hr : root ∈ roots) (va : VirtualAddress)
    (hwithin : Within mem root (.process .userRead) ok va 4096)
    (hend : ∀ i ≤ 4096, Granted mem root (.process .userRead) va i →
      va.value.toNat + i < 2 ^ 64) :
    (∃ bytes, TextAt mem root va 4096 bytes.size ∧ BytesAt mem root va bytes ∧
      (AddressSpace.mk root).readText mem va = .ok (.ok (Utf8.text bytes))) ∨
    ∃ fault i, NoTextAt mem root va 4096 fault i ∧
      (AddressSpace.mk root).readText mem va = .ok (.error fault) := by
  unfold readText
  rcases readTextFrom_cases hmem hr va 4096 hwithin hend ByteArray.empty with
    ⟨bytes, htext, hbytes, hread⟩ | ⟨fault, i, hno, hread⟩
  · rw [ByteArray.empty_append] at hread
    exact .inl ⟨bytes, htext, hbytes, by rw [hread]; rfl⟩
  · exact .inr ⟨fault, i, hno, by rw [hread]; rfl⟩

theorem readText_cases_of_runs (hmem : Forest mem roots) (hr : root ∈ roots)
    (hruns : Runs mem root (.process .userRead) inv ok) (va : VirtualAddress)
    (hinv : inv va.page.number.toNat) :
    (∃ bytes, TextAt mem root va 4096 bytes.size ∧ BytesAt mem root va bytes ∧
      (AddressSpace.mk root).readText mem va = .ok (.ok (Utf8.text bytes))) ∨
    ∃ fault i, NoTextAt mem root va 4096 fault i ∧
      (AddressSpace.mk root).readText mem va = .ok (.error fault) :=
  readText_cases hmem hr va (hruns.within hinv 4096) fun i _ hgranted =>
    (hruns.inv_of_granted hinv i hgranted).1

theorem readText_ok (hmem : Forest mem roots) (hr : root ∈ roots)
    (hruns : Runs mem root (.process .userRead) inv ok) (va : VirtualAddress)
    (hinv : inv va.page.number.toNat) :
    ∃ x, (AddressSpace.mk root).readText mem va = .ok x := by
  rcases readText_cases_of_runs hmem hr hruns va hinv with ⟨_, -, -, hread⟩ | ⟨_, _, -, hread⟩
  · exact ⟨_, hread⟩
  · exact ⟨_, hread⟩

/-- no text is read from an address that does not grant the access -/
theorem readText_denied (hmem : Forest mem roots) (hr : root ∈ roots)
    (hruns : Runs mem root (.process .userRead) inv ok) (va : VirtualAddress)
    (hinv : inv va.page.number.toNat) (hnot : ¬ Granted mem root (.process .userRead) va 1) :
    ∃ fault, (AddressSpace.mk root).readText mem va = .ok (.error fault) := by
  rcases readText_cases_of_runs hmem hr hruns va hinv with
    ⟨bytes, htext, -, -⟩ | ⟨fault, _, -, hread⟩
  · exfalso
    by_cases hsome : 0 < bytes.size
    · exact hnot (htext.granted.mono hsome)
    · exact hnot ((htext.stop (by omega)).1.mono (Nat.le_add_left 1 _))
  · exact ⟨fault, hread⟩

end Texts

end AddressSpace

end PagedKernel
