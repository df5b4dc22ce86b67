import PagedKernel.Proofs.Paging.Accesses
import PagedKernel.Proofs.Paging.UserText

/-!
# Texts byte by byte

The reader of texts takes what lies in one page at a time; a text ends in the same place when it is
read one byte after another.

* `AddressSpace.ReadsByte`  the byte that a process reads at an address
* `AddressSpace.TextEnds`   where a text ends, told byte by byte
* `AddressSpace.Tree.readText_spec`  what is read is the text, or the fault of its first byte that
  may not be read
* `AddressSpace.Reads.eq_text`       bytes that end in a zero are read as the text that they are
-/

namespace PagedKernel

namespace AddressSpace

variable {space : AddressSpace} {mem : Memory} {va : VirtualAddress} {b b' : UInt8} {i n : Nat}

/-- a process may read `va`, and finds `b` there -/
def ReadsByte (space : AddressSpace) (mem : Memory) (va : VirtualAddress) (b : UInt8) : Prop :=
  space.Allows mem .userRead va ∧
    ∃ pa, space.translate mem va = .ok (some pa) ∧ mem.byte? pa.value.toNat = some b

/-- the text at `va` ends before byte `n`: a process may read the bytes before, and none of them is
zero; byte `n` is a zero that it may read, or the text has the 4096 bytes that are read at most -/
structure TextEnds (space : AddressSpace) (mem : Memory) (va : VirtualAddress) (n : Nat) :
    Prop where
  le : n ≤ 4096
  before : ∀ i < n, ∃ b, space.ReadsByte mem (va.plus i) b ∧ b ≠ 0
  stop : n < 4096 → space.ReadsByte mem (va.plus n) 0

/-- what reading a text comes to: the text up to where it ends, and if it ends nowhere the fault of
its first byte that may not be read -/
structure Reads (space : AddressSpace) (mem : Memory) (va : VirtualAddress)
    (result : Except UserFault String) : Prop where
  text : ∀ n, space.TextEnds mem va n → ∃ bytes : ByteArray, bytes.size = n ∧
    (∀ i (h : i < bytes.size), space.ReadsByte mem (va.plus i) bytes[i]) ∧
    result = .ok (Utf8.text bytes)
  denied : (∀ n, ¬ space.TextEnds mem va n) → ∃ fault i,
    space.FirstDenied mem .userRead va 4096 fault i ∧ result = .error fault

theorem ReadsByte.unique (h : space.ReadsByte mem va b) (h' : space.ReadsByte mem va b') :
    b = b' := by
  obtain ⟨-, pa, htranslate, hbyte⟩ := h
  obtain ⟨-, pa', htranslate', hbyte'⟩ := h'
  obtain rfl := Option.some.inj (Except.ok.inj (htranslate.symm.trans htranslate'))
  exact Option.some.inj (hbyte.symm.trans hbyte')

/-- bytes other than zero, with a zero behind them, are read as the text that they are -/
theorem Reads.eq_text {result : Except UserFault String} (h : space.Reads mem va result)
    {bytes : ByteArray} (hsize : bytes.size < 4096)
    (hbytes : ∀ i (h : i < bytes.size), space.ReadsByte mem (va.plus i) bytes[i])
    (hnonzero : ∀ i (h : i < bytes.size), bytes[i] ≠ 0)
    (hstop : space.ReadsByte mem (va.plus bytes.size) 0) : result = .ok (Utf8.text bytes) := by
  have hends : space.TextEnds mem va bytes.size :=
    ⟨Nat.le_of_lt hsize, fun i hi => ⟨_, hbytes i hi, hnonzero i hi⟩, fun _ => hstop⟩
  obtain ⟨found, hfound, hreads, rfl⟩ := h.text _ hends
  have hsame : found = bytes :=
    ByteArray.ext_getElem hfound fun i hi hi' => (hreads i hi).unique (hbytes i hi')
  rw [hsame]

/-- what a copy fetches without a fault are the bytes that a process reads one by one -/
theorem Fetches.readsByte {length : Nat} {part : ByteArray}
    (h : space.Fetches va length mem part none) (hi : i < part.size) :
    space.ReadsByte mem (va.plus i) part[i] := by
  refine ⟨by_contra fun hnot => ?_, h.bytes i hi⟩
  have hrefused := h.refused_iff.2 ⟨i, by rwa [h.all rfl] at hi, hnot⟩
  cases hrefused

namespace Tree

theorem readsByte_iff (h : space.Tree mem) (hlt : va.value.toNat + i < 2 ^ 64) :
    space.ReadsByte mem (va.plus i) b ↔ space.Allows mem .userRead (va.plus i) ∧
      mem.mappedByte space.root (va.value.toNat + i) = some b := by
  refine and_congr_right fun hallows => ?_
  obtain ⟨f, p, hpage, -⟩ := h.allows_iff.1 hallows
  rw [page_plus hlt] at hpage
  obtain ⟨pa, htranslate, hpa⟩ := h.translate_plus hlt hpage
  rw [Memory.mappedByte_of_page hpage,
    ← Memory.byte?_eq (h.inside _ f p hpage) hpa (Nat.mod_lt _ (by decide))]
  constructor
  · rintro ⟨pa', htranslate', hbyte⟩
    obtain rfl := Option.some.inj (Except.ok.inj (htranslate.symm.trans htranslate'))
    exact hbyte
  · exact fun hbyte => ⟨pa, htranslate, hbyte⟩

theorem readsByte_of_allows (h : space.Tree mem) (hlt : va.value.toNat + i < 2 ^ 64)
    (hallows : space.Allows mem .userRead (va.plus i)) :
    ∃ b, space.ReadsByte mem (va.plus i) b := by
  obtain ⟨f, p, hpage, -⟩ := h.allows_iff.1 hallows
  rw [page_plus hlt] at hpage
  exact ⟨_, (h.readsByte_iff hlt).2 ⟨hallows, Memory.mappedByte_of_page hpage⟩⟩

theorem textEnds_iff (h : space.Tree mem) (hend : va.value.toNat + 4096 < 2 ^ 64) :
    space.TextEnds mem va n ↔ TextAt mem space.root va 4096 n := by
  constructor
  · intro htext
    have hle := htext.le
    have hgranted : Granted mem space.root (.process .userRead) va n :=
      (h.granted_iff (by omega)).2 fun i hi => by
        obtain ⟨b, hb, -⟩ := htext.before i hi
        exact hb.1
    refine ⟨hle, hgranted, fun i hi hzero => ?_, fun hlt => ?_⟩
    · obtain ⟨b, hb, hne⟩ := htext.before i hi
      rw [h.readsByte_iff (by omega), hzero] at hb
      exact hne (Option.some.inj hb.2).symm
    · have hstop := htext.stop hlt
      refine ⟨(h.granted_iff (by omega)).2 fun i hi => ?_, ((h.readsByte_iff (by omega)).1 hstop).2⟩
      rcases Nat.lt_succ_iff_lt_or_eq.1 hi with hlt | rfl
      · exact (h.granted_iff (by omega)).1 hgranted i hlt
      · exact hstop.1
  · intro htext
    have hle := htext.le
    refine ⟨hle, fun i hi => ?_, fun hlt => ?_⟩
    · obtain ⟨b, hb⟩ := h.readsByte_of_allows (by omega)
        ((h.granted_iff (by omega)).1 htext.granted i hi)
      refine ⟨b, hb, ?_⟩
      rintro rfl
      exact htext.nonzero i hi ((h.readsByte_iff (by omega)).1 hb).2
    · obtain ⟨hgranted, hzero⟩ := htext.stop hlt
      exact (h.readsByte_iff (by omega)).2
        ⟨(h.granted_iff (by omega)).1 hgranted n (Nat.lt_succ_self n), hzero⟩

theorem readText_spec (h : space.Tree mem) (hend : va.value.toNat + 4096 < 2 ^ 64) :
    ∃ result, space.readText mem va = .ok result ∧ space.Reads mem va result := by
  rcases readText_cases h.forest h.root_mem va (h.within _ (by omega)) (fun i hi _ => by omega) with
    ⟨bytes, htext, hbytes, hread⟩ | ⟨fault, i, hno, hread⟩
  · have hle := htext.le
    refine ⟨_, hread, fun n hn => ⟨bytes, ?_, fun i hi => ?_, rfl⟩, fun hnone => ?_⟩
    · exact htext.unique ((h.textEnds_iff hend).1 hn)
    · exact (h.readsByte_iff (by omega)).2
        ⟨(h.granted_iff (by omega)).1 htext.granted i hi, hbytes i hi⟩
    · exact absurd ((h.textEnds_iff hend).2 htext) (hnone _)
  · refine ⟨_, hread, fun n hn => ?_, fun _ => ⟨fault, i, h.firstDenied (by omega) hno.denied, rfl⟩⟩
    exact absurd ((h.textEnds_iff hend).1 hn) hno.not_textAt

end Tree

/-- a text whose bytes lie in two pages, and the zero that ends it in the second -/
theorem exists_text : ∃ (m : Machine) (space : AddressSpace), space.Built m ∧
    ∀ i (h : i < (⟨#[0x48, 0x69, 0]⟩ : ByteArray).size),
      space.ReadsByte m.toMemory (Address.plus ⟨0x400fff⟩ i)
        ((⟨#[0x48, 0x69, 0]⟩ : ByteArray)[i]) := by
  obtain ⟨m, space, hbuilt, hseparate, hallows, -⟩ := exists_edge
  have hend : (⟨0x400fff⟩ : VirtualAddress).value.toNat
      + (⟨#[0x48, 0x69, 0]⟩ : ByteArray).size ≤ 2 ^ 64 := by decide
  obtain ⟨result, m', -, hbuilt', hcopies⟩ :=
    (hbuilt.ends_copyTo hend (hseparate.mono (by decide))).exists_ok
  obtain rfl := hcopies.ok_iff.2 fun i hi => hallows .userWrite i (Nat.lt_trans hi (by decide))
  obtain ⟨part, refusal, hread, hfetches⟩ := hbuilt'.tree.fetches hend
  obtain ⟨rfl, rfl⟩ := Prod.mk.inj (Except.ok.inj ((hcopies.back rfl).symm.trans hread))
  exact ⟨m', space, hbuilt', fun _ => hfetches.readsByte⟩

end AddressSpace

end PagedKernel
