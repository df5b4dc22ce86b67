import PagedKernel.Proofs.Paging.Built
import PagedKernel.Proofs.Paging.UserMemory

/-!
# Accesses byte by byte

What the processor makes of the single bytes of a run, and that copying a run page by page comes to
the same.

* `Address.plus`                  the address of a byte of a run
* `AddressSpace.Allows`           the page of an address is mapped and grants an access
* `AddressSpace.FirstDenied`      the first byte of a run that is denied, and the report of that
* `AddressSpace.Stores`           the bytes of a run lie where it is translated to, and no other
  byte changed
* `AddressSpace.copies_bytewise`  a copy stops at the first byte that the processor would deny
-/

namespace PagedKernel

/-- the address `n` bytes on -/
def Address.plus {kind : AddressKind} (a : Address kind) (n : Nat) : Address kind :=
  ⟨a.value + UInt64.ofNat n⟩

theorem Address.eq_of_toNat {kind : AddressKind} {a b : Address kind}
    (h : a.value.toNat = b.value.toNat) : a = b := by
  obtain ⟨v⟩ := a
  obtain ⟨w⟩ := b
  exact congrArg Address.mk (UInt64.toNat_inj.1 h)

/-- the report of an access has the flags of the access -/
theorem FaultCode.ofAccess_flags (a : Access) (present : Bool) :
    (ofAccess a present).user = a.user ∧ (ofAccess a present).write = a.write ∧
      (ofAccess a present).present = present := by
  obtain ⟨write, user⟩ := a
  cases write <;> cases user <;> cases present <;> decide

namespace AddressSpace

variable {space : AddressSpace} {mem mem' : Memory} {m m' : Machine} {va : VirtualAddress}
  {a : Access} {size count n i : Nat} {bytes : ByteArray} {fault : UserFault}

/-- the page of an address is mapped, for processes if one makes the access, and for writing if it
writes -/
def Allows (space : AddressSpace) (mem : Memory) (a : Access) (va : VirtualAddress) : Prop :=
  ∃ x, space.lookup mem va = .ok (some x) ∧ (a.user = true → x.permissions.user = true) ∧
    (a.write = true → x.permissions.writable = true)

/-- of the accesses to `size` bytes from `va` on the one at place `i` is the first that is denied,
and `fault` reports it -/
structure FirstDenied (space : AddressSpace) (mem : Memory) (a : Access) (va : VirtualAddress)
    (size : Nat) (fault : UserFault) (i : Nat) : Prop where
  lt : i < size
  before : ∀ j < i, space.Allows mem a (va.plus j)
  denied : ¬ space.Allows mem a (va.plus i)
  place : fault.va = va.plus i
  user : fault.code.user = a.user
  write : fault.code.write = a.write
  /-- the report says whether the page is mapped -/
  present : ∃ found, space.lookup mem (va.plus i) = .ok found ∧ fault.code.present = found.isSome

/-- the first `count` of `bytes` lie at the physical addresses that those from `va` on are
translated to; every other byte of memory is what it was, and no frame is counted anew -/
structure Stores (space : AddressSpace) (va : VirtualAddress) (bytes : ByteArray) (count : Nat)
    (mem mem' : Memory) : Prop where
  placed : ∀ i (h : i < bytes.size), i < count → ∃ pa,
    space.translate mem (va.plus i) = .ok (some pa) ∧ mem'.byte? pa.value.toNat = some bytes[i]
  rest : ∀ pa, (∀ i < count, ∀ x, space.translate mem (va.plus i) = .ok (some x) →
    x.value.toNat ≠ pa) → mem'.byte? pa = mem.byte? pa
  ledger : mem'.ledger = mem.ledger

/-- the pages of `size` bytes from `va` on that a process may write are mapped to frames of their
own, none of which is a table of the space -/
structure Separate (space : AddressSpace) (mem : Memory) (va : VirtualAddress) (size : Nat) :
    Prop where
  apart : ∀ i < size, ∀ j < size, space.Allows mem .userWrite (va.plus i) →
    space.Allows mem .userWrite (va.plus j) → ∀ x y,
    space.lookup mem (va.plus i) = .ok (some x) → space.lookup mem (va.plus j) = .ok (some y) →
    x.frame = y.frame → (va.plus i).page = (va.plus j).page
  spared : ∀ i < size, space.Allows mem .userWrite (va.plus i) → ∀ x,
    space.lookup mem (va.plus i) = .ok (some x) → ¬ mem.IsTable space.root x.frame

/-- how a copy of `bytes` to `va` ends: it succeeds if all bytes may be written, and a process reads
them then; else it stops at the first that may not -/
structure Copies (space : AddressSpace) (va : VirtualAddress) (bytes : ByteArray) (mem : Memory)
    (result : Except UserFault Unit) (mem' : Memory) : Prop where
  ok_iff : result = .ok () ↔ ∀ i < bytes.size, space.Allows mem .userWrite (va.plus i)
  stored : result = .ok () → space.Stores va bytes bytes.size mem mem'
  back : result = .ok () → space.copyFrom mem' va bytes.size = .ok (bytes, none)
  denied : ∀ fault, result = .error fault → ∃ i,
    space.FirstDenied mem .userWrite va bytes.size fault i ∧ space.Stores va bytes i mem mem'

/-- what is fetched by a copy of `length` bytes from `va`: all of them if all may be read, else
those before the first that may not -/
structure Fetches (space : AddressSpace) (va : VirtualAddress) (length : Nat) (mem : Memory)
    (part : ByteArray) (refusal : Option UserFault) : Prop where
  refused_iff : refusal.isSome = true ↔
    ∃ i < length, ¬ space.Allows mem .userRead (va.plus i)
  all : refusal = none → part.size = length
  denied : ∀ fault, refusal = some fault →
    space.FirstDenied mem .userRead va length fault part.size
  bytes : ∀ i (h : i < part.size), ∃ pa, space.translate mem (va.plus i) = .ok (some pa) ∧
    mem.byte? pa.value.toNat = some part[i]

/-! ## what the walk of an address says -/

theorem toNat_plus (h : va.value.toNat + i < 2 ^ 64) :
    (va.plus i).value.toNat = va.value.toNat + i :=
  (va.advance_of_lt h).2

theorem page_plus (h : va.value.toNat + i < 2 ^ 64) :
    (va.plus i).page.number.toNat = (va.value.toNat + i) / 4096 := by
  rw [Address.toNat_page, toNat_plus h]

theorem offset_plus (h : va.value.toNat + i < 2 ^ 64) :
    (va.plus i).offset.toNat = (va.value.toNat + i) % 4096 := by
  rw [Address.toNat_offset, toNat_plus h]

namespace Tree

theorem lookup_eq (h : space.Tree mem) (va : VirtualAddress) :
    space.lookup mem va = .ok ((mem.pageAt space.root va.page.number.toNat).map
      fun (f, p) => ⟨va, f, p⟩) :=
  h.forest.lookup_eq h.root_mem va

theorem translate_eq (h : space.Tree mem) (va : VirtualAddress) :
    space.translate mem va = .ok ((mem.pageAt space.root va.page.number.toNat).map
      fun x => x.1.address va.offset) := by
  rw [translate, h.lookup_eq, ok_bind, ok_pure, Option.map_map]
  rfl

theorem grants_iff (p : Permissions) (a : Access) :
    Memory.grants p (.process a) = true ↔
      (a.user = true → p.user = true) ∧ (a.write = true → p.writable = true) := by
  rw [Memory.grants, refuses]
  cases a.user <;> cases a.write <;> cases p.user <;> cases p.writable <;> decide

theorem allows_iff (h : space.Tree mem) :
    space.Allows mem a va ↔ ∃ f p, mem.pageAt space.root va.page.number.toNat = some (f, p) ∧
      Memory.grants p (.process a) = true := by
  unfold Allows
  rw [h.lookup_eq]
  constructor
  · rintro ⟨x, hx, hallows⟩
    obtain ⟨⟨f, p⟩, hpage, rfl⟩ := Option.map_eq_some_iff.1 (Except.ok.inj hx)
    exact ⟨f, p, hpage, (grants_iff p a).2 hallows⟩
  · rintro ⟨f, p, hpage, hgrant⟩
    rw [hpage]
    exact ⟨_, rfl, (grants_iff p a).1 hgrant⟩

theorem granted_iff (h : space.Tree mem) (hend : va.value.toNat + n ≤ 2 ^ 64) :
    Granted mem space.root (.process a) va n ↔ ∀ i < n, space.Allows mem a (va.plus i) := by
  refine forall₂_congr fun i hi => ?_
  rw [h.allows_iff, page_plus (by omega)]

/-- all frames that a run of bytes can come to lie in memory -/
theorem within (h : space.Tree mem) (right : Privilege) (hend : va.value.toNat + size ≤ 2 ^ 64) :
    Within mem space.root right (fun f => ∃ i < size, ∃ p,
      mem.pageAt space.root ((va.value.toNat + i) / 4096) = some (f, p) ∧
        Memory.grants p right = true) va size :=
  fun i hi _ => ⟨by omega, fun f p hpage hgrant =>
    ⟨⟨i, hi, p, hpage, hgrant⟩, h.inside _ f p hpage⟩⟩

theorem firstDenied (h : space.Tree mem) (hend : va.value.toNat + size ≤ 2 ^ 64)
    (hdenied : DeniedAt mem space.root (.process a) va size fault i) :
    space.FirstDenied mem a va size fault i := by
  have hnot := hdenied.not_granted
  obtain ⟨hi, hva, hgranted, hres⟩ := hdenied
  have hplace : fault.va = va.plus i :=
    Address.eq_of_toNat (hva.trans (toNat_plus (by omega)).symm)
  have hbefore := (h.granted_iff (by omega)).1 hgranted
  have hcode := Memory.code_of_resolved hres
  obtain ⟨huser, hwrite, hpresent⟩ := FaultCode.ofAccess_flags a
    (mem.pageAt space.root fault.va.page.number.toNat).isSome
  rw [← hcode] at huser hwrite hpresent
  refine ⟨hi, hbefore, fun hallows => hnot ?_, hplace, huser, hwrite, _, h.lookup_eq _, ?_⟩
  · refine (h.granted_iff (by omega)).2 fun j hj => ?_
    rcases Nat.lt_succ_iff_lt_or_eq.1 hj with hlt | rfl
    · exact hbefore j hlt
    · exact hallows
  · rw [hpresent, hplace, Option.isSome_map]

/-- where a byte of a run is translated to -/
theorem translate_plus (h : space.Tree mem) (hlt : va.value.toNat + i < 2 ^ 64) {f : Frame}
    {p : Permissions} (hpage : mem.pageAt space.root ((va.value.toNat + i) / 4096) = some (f, p)) :
    ∃ pa, space.translate mem (va.plus i) = .ok (some pa) ∧
      pa.value.toNat = 4096 * f.number.toNat + (va.value.toNat + i) % 4096 := by
  have hplace := Frame.toNat_address (Memory.pageAt_eq_some hpage).1 (va.plus i).offset_lt
  rw [offset_plus hlt] at hplace
  refine ⟨_, ?_, hplace⟩
  rw [h.translate_eq, page_plus hlt, hpage, Option.map_some]

/-- what is read of a run lies where the run is translated to -/
theorem byte?_of_bytesAt (h : space.Tree mem) {out : ByteArray}
    (hbytes : BytesAt mem space.root va out) (hend : va.value.toNat + out.size ≤ 2 ^ 64)
    (hi : i < out.size) : ∃ pa, space.translate mem (va.plus i) = .ok (some pa) ∧
      mem.byte? pa.value.toNat = some out[i] := by
  obtain ⟨⟨f, p⟩, hpage, hbyte⟩ := Option.map_eq_some_iff.1 (hbytes i hi)
  obtain ⟨pa, htranslate, hpa⟩ := h.translate_plus (by omega) hpage
  refine ⟨pa, htranslate, ?_⟩
  rw [Memory.byte?_eq (h.inside _ f p hpage) hpa (Nat.mod_lt _ (by decide))]
  exact congrArg some hbyte

theorem lookup_plus (h : space.Tree mem) (hlt : va.value.toNat + i < 2 ^ 64) {f : Frame}
    {p : Permissions} (hpage : mem.pageAt space.root ((va.value.toNat + i) / 4096) = some (f, p)) :
    space.lookup mem (va.plus i) = .ok (some ⟨va.plus i, f, p⟩) := by
  rw [h.lookup_eq, page_plus hlt, hpage]
  rfl

/-! ## copies -/

/-- bytes that were stored in the frames of a run lie where the run is translated to -/
theorem stores (h : space.Tree mem) (hend : va.value.toNat + bytes.size ≤ 2 ^ 64)
    (hseparate : space.Separate mem va bytes.size) (hcount : count ≤ bytes.size)
    (hgranted : Granted mem space.root (.process .userWrite) va count) {ok : Frame → Prop}
    (ht : Touched ok mem mem') (hst : Stored mem space.root va bytes count mem') :
    space.Stores va bytes count mem mem' where
  placed i hi hlt := by
    obtain ⟨f, p, hpage, hgrant⟩ := hgranted i hlt
    obtain ⟨pa, htranslate, hpa⟩ := h.translate_plus (by omega) hpage
    have hallows := (h.granted_iff (by omega)).1 hgranted
    have hin : mem'.hasFrame f = true := by
      rw [Memory.hasFrame_iff, ht.size, ← Memory.hasFrame_iff]
      exact h.inside _ f p hpage
    refine ⟨pa, htranslate, ?_⟩
    rw [Memory.byte?_eq hin hpa (Nat.mod_lt _ (by decide)), hst.placed i hi hlt f p hpage]
    intro j hj q hpage'
    have hsame := hseparate.apart j (by omega) i hi (hallows j hj) (hallows i hlt) _ _
      (h.lookup_plus (by omega) hpage') (h.lookup_plus (by omega) hpage) rfl
    rw [← page_plus (by omega), ← page_plus (by omega), hsame]
  rest pa hother := by
    have hsize : mem.contents.size ≤ 2 ^ 52 :=
      Nat.le_trans h.forest.size_le (Nat.pow_le_pow_right (by decide) (by decide))
    rcases Memory.byte?_cases hsize pa with hout | ⟨f, hin, hpa⟩
    · rw [Memory.byte?, Memory.byte?, Array.getElem?_eq_none hout,
        Array.getElem?_eq_none (ht.size.symm ▸ hout)]
    · have hin' : mem'.hasFrame f = true := by
        rw [Memory.hasFrame_iff, ht.size, ← Memory.hasFrame_iff]
        exact hin
      have hoffset : pa % 4096 < 4096 := Nat.mod_lt _ (by decide)
      rw [Memory.byte?_eq hin' hpa hoffset, Memory.byte?_eq hin hpa hoffset, hst.rest f]
      intro j hj p hpage heq
      obtain ⟨x, htranslate, hx⟩ := h.translate_plus (by omega) hpage
      exact hother j hj x htranslate (by omega)
  ledger := ht.ledger

theorem fetches (h : space.Tree mem) {length : Nat} (hend : va.value.toNat + length ≤ 2 ^ 64) :
    ∃ part refusal, space.copyFrom mem va length = .ok (part, refusal) ∧
      space.Fetches va length mem part refusal := by
  obtain ⟨part, refusal, hcopy, hbytes, hends⟩ :=
    copyFrom_within h.forest h.root_mem (h.within (.process .userRead) hend)
  refine ⟨part, refusal, hcopy, ?_⟩
  cases refusal with
  | none =>
    obtain ⟨hsize, hgranted⟩ := hends
    have hallows := (h.granted_iff hend).1 hgranted
    refine ⟨?_, fun _ => hsize, nofun, fun i hi => h.byte?_of_bytesAt hbytes (by omega) hi⟩
    refine iff_of_false Bool.false_ne_true ?_
    rintro ⟨i, hi, hnot⟩
    exact hnot (hallows i hi)
  | some fault =>
    have hfirst := h.firstDenied hend hends
    refine ⟨iff_of_true rfl ⟨part.size, hfirst.lt, hfirst.denied⟩, nofun, ?_,
      fun i hi => h.byte?_of_bytesAt hbytes ?_ hi⟩
    · rintro _ ⟨⟩
      exact hfirst
    · have := hfirst.lt
      omega

/-- a space that nothing wrote to finds what it found -/
theorem lookup_congr (h : space.Tree mem) (h' : space.Tree mem')
    (hdata : ∀ t, mem.IsTable space.root t → mem'.data t = mem.data t) (va : VirtualAddress) :
    space.lookup mem' va = space.lookup mem va := by
  rw [h'.lookup_eq, h.lookup_eq, Memory.pageAt_congr hdata]

/-- what was stored is read back -/
theorem copyFrom_stored (h' : space.Tree mem') (hend : va.value.toNat + bytes.size ≤ 2 ^ 64)
    (hlookup : ∀ va, space.lookup mem' va = space.lookup mem va)
    (hallows : ∀ i < bytes.size, space.Allows mem .userWrite (va.plus i))
    (hstores : space.Stores va bytes bytes.size mem mem') :
    space.copyFrom mem' va bytes.size = .ok (bytes, none) := by
  obtain ⟨part, refusal, hcopy, hfetches⟩ := h'.fetches hend
  have hnone : refusal = none := by
    rw [← Option.not_isSome_iff_eq_none, hfetches.refused_iff]
    rintro ⟨i, hi, hnot⟩
    obtain ⟨x, hx, huser, -⟩ := hallows i hi
    exact hnot ⟨x, (hlookup _).trans hx, huser, nofun⟩
  subst hnone
  have hsize := hfetches.all rfl
  have hsame : part = bytes := by
    refine ByteArray.ext_getElem hsize fun i hi hi' => ?_
    obtain ⟨pa, htranslate, hbyte⟩ := hfetches.bytes i hi
    obtain ⟨pa', htranslate', hbyte'⟩ := hstores.placed i hi' hi'
    rw [translate, hlookup, ← translate, htranslate'] at htranslate
    obtain rfl := Option.some.inj (Except.ok.inj htranslate)
    exact Option.some.inj (hbyte.symm.trans hbyte')
  rw [hcopy, hsame]

theorem ends_copyTo (h : space.Tree m.toMemory) (hend : va.value.toNat + bytes.size ≤ 2 ^ 64)
    (hseparate : space.Separate m.toMemory va bytes.size) :
    Ends (space.copyTo va bytes).outcome m
      (fun result m' => Touched (fun f => ¬ m.IsTable space.root f) m.toMemory m'.toMemory ∧
        space.Copies va bytes m.toMemory result m'.toMemory) Never := by
  have hok : ∀ f, (∃ i < bytes.size, ∃ p,
      m.pageAt space.root ((va.value.toNat + i) / 4096) = some (f, p) ∧
        Memory.grants p (.process .userWrite) = true) →
      ∀ r ∈ ({space.root} : Finset Frame), ¬ m.IsTable r f := by
    rintro f ⟨i, hi, p, hpage, hgrant⟩ r hr
    obtain rfl := Finset.mem_singleton.1 hr
    have hallows : space.Allows m.toMemory .userWrite (va.plus i) := by
      rw [h.allows_iff, page_plus (by omega)]
      exact ⟨f, p, hpage, hgrant⟩
    exact hseparate.spared i hi hallows _ (h.lookup_plus (by omega) hpage)
  have hspared := fun f hf => hok f hf _ h.root_mem
  have hwrite := ends_writeFrom va bytes h.forest h.root_mem (h.within _ hend) hok 0 .refl .none
    .zero (Nat.zero_le _)
  refine ends_outcome.2 (hwrite.mono (fun _ m' hm' => ?_) fun e m' he => ?_)
  · obtain ⟨⟨ht, hst⟩, hgranted⟩ := hm'
    refine ⟨ht.mono hspared, ?_⟩
    have hdata : ∀ t, m.IsTable space.root t → m'.data t = m.data t :=
      fun t htable => ht.data t fun hyes => hspared t hyes htable
    have h' : space.Tree m'.toMemory := h.congr ht.size hdata fun t _ => ht.count t
    have hallows := (h.granted_iff hend).1 hgranted
    have hstores := h.stores hend hseparate (Nat.le_refl _) hgranted ht hst
    exact ⟨iff_of_true rfl hallows, fun _ => hstores,
      fun _ => h'.copyFrom_stored hend (h.lookup_congr h' hdata) hallows hstores, nofun⟩
  · cases e with
    | panic p => exact he
    | error fault =>
      obtain ⟨ht, i, hdenied, hst⟩ := he
      have hfirst := h.firstDenied hend hdenied
      have hstores := h.stores hend hseparate (Nat.le_of_lt hfirst.lt) hdenied.2.2.1 ht hst
      refine ⟨ht.mono hspared, iff_of_false nofun fun hall => hfirst.denied (hall i hfirst.lt), nofun, nofun, ?_⟩
      rintro _ ⟨⟩
      exact ⟨i, hfirst, hstores⟩

end Tree

theorem Separate.mono (h : space.Separate mem va size) (hle : n ≤ size) :
    space.Separate mem va n where
  apart i hi j hj := h.apart i (Nat.lt_of_lt_of_le hi hle) j (Nat.lt_of_lt_of_le hj hle)
  spared i hi := h.spared i (Nat.lt_of_lt_of_le hi hle)

/-- a space is as good as built after bytes were copied into it, as none of its tables was written -/
theorem Built.ends_copyTo (h : space.Built m) (hend : va.value.toNat + bytes.size ≤ 2 ^ 64)
    (hseparate : space.Separate m.toMemory va bytes.size) :
    Ends (space.copyTo va bytes).outcome m (fun result m' => space.Built m' ∧
      space.Copies va bytes m.toMemory result m'.toMemory) Never := by
  refine (h.tree.ends_copyTo hend hseparate).mono (fun result m' hm' => ?_) fun _ _ he => he
  obtain ⟨ht, hcopies⟩ := hm'
  exact ⟨h.elsewhere ht.size (fun t htable => ht.data t (not_not_intro htable))
    fun t _ => ht.count t, hcopies⟩

/-- copying into a space and out of it is what the processor does byte by byte.  A space was built
with frames of its memory, and the pages of the range that a process may write have frames of their
own, none of them a table of the space.  Then a write succeeds if and only if all bytes may be
written, and a process reads them back; else the fault is that of the first byte that may not, with
just the bytes before it stored.  A read fails if and only if some byte may not be read, at the
first of these, and has filled the part of its buffer that comes before; it does not change memory,
which it is only asked about. -/
theorem copies_bytewise (h : space.Built m) (va : VirtualAddress) :
    (∀ bytes : ByteArray, va.value.toNat + bytes.size ≤ 2 ^ 64 →
      space.Separate m.toMemory va bytes.size →
      ∃ result m', (space.copyTo va bytes).outcome m = .ok result m' ∧
        space.Copies va bytes m.toMemory result m'.toMemory) ∧
    ∀ length : Nat, va.value.toNat + length ≤ 2 ^ 64 →
      ∃ part refusal, space.copyFrom m.toMemory va length = .ok (part, refusal) ∧
        space.Fetches va length m.toMemory part refusal := by
  refine ⟨fun bytes hend hseparate => ?_, fun _ hend => h.tree.fetches hend⟩
  obtain ⟨result, m', hcopy, -, hcopies⟩ := (h.ends_copyTo hend hseparate).exists_ok
  exact ⟨result, m', hcopy, hcopies⟩

/-- a run over the edge of a page, with a page behind it that is not mapped -/
theorem exists_edge : ∃ (m : Machine) (space : AddressSpace), space.Built m ∧
    space.Separate m.toMemory ⟨0x400fff⟩ 0x1001 ∧
    (∀ a, ∀ i < 0x1001, space.Allows m.toMemory a (Address.plus ⟨0x400fff⟩ i)) ∧
    ∀ a, ¬ space.Allows m.toMemory a (Address.plus ⟨0x400fff⟩ 0x1001) := by
  obtain ⟨m, space, f, g, hbuilt, hne, hf, hg, -, -, hpages⟩ := exists_pages
  have htree := hbuilt.tree
  have hfirst : m.pageAt space.root 0x400 = some (f, .userReadWrite) := hpages 0x400 (by decide)
  have hsecond : m.pageAt space.root 0x401 = some (g, .userReadWrite) := hpages 0x401 (by decide)
  have hthird : m.pageAt space.root 0x402 = none := hpages 0x402 (by decide)
  have hvalue : (⟨0x400fff⟩ : VirtualAddress).value.toNat = 0x400fff := rfl
  have hpage (i : Nat) (hi : i < 0x1001) :
      m.pageAt space.root (((⟨0x400fff⟩ : VirtualAddress).value.toNat + i) / 4096)
        = some (if i = 0 then f else g, .userReadWrite) := by
    by_cases h : i = 0
    · subst h
      exact hfirst
    · have hnumber : (0x400fff + i) / 4096 = 0x401 := by omega
      rw [hvalue, hnumber, if_neg h]
      exact hsecond
  have hlookup (i : Nat) (hi : i < 0x1001) := htree.lookup_plus (by omega) (hpage i hi)
  refine ⟨m, space, hbuilt, ⟨fun i hi j hj _ _ x y hx hy hsame => ?_, fun i hi _ x hx => ?_⟩,
    fun a i hi => ⟨_, hlookup i hi, fun _ => (by decide : Permissions.userReadWrite.user = true),
      fun _ => (by decide : Permissions.userReadWrite.writable = true)⟩, fun a => ?_⟩
  · obtain rfl := Option.some.inj (Except.ok.inj ((hlookup i (by omega)).symm.trans hx))
    obtain rfl := Option.some.inj (Except.ok.inj ((hlookup j (by omega)).symm.trans hy))
    have hij : i = 0 ↔ j = 0 := by
      dsimp only at hsame
      split at hsame <;> split at hsame
      · exact iff_of_true ‹_› ‹_›
      · exact absurd hsame hne
      · exact absurd hsame.symm hne
      · exact iff_of_false ‹_› ‹_›
    refine Page.ext (UInt64.toNat_inj.1 ?_)
    rw [page_plus (by omega), page_plus (by omega)]
    omega
  · obtain rfl := Option.some.inj (Except.ok.inj ((hlookup i (by omega)).symm.trans hx))
    dsimp only
    split
    · exact hf
    · exact hg
  · rw [htree.allows_iff]
    rintro ⟨h, p, hmapped, -⟩
    cases hthird.symm.trans hmapped

/-- two bytes are written over the edge of a page and read back, and a read that runs from there
over the end of the second page gives what lies before it -/
theorem copies_bytewise_edge : ∃ (m : Machine) (space : AddressSpace), space.Built m ∧
    space.Separate m.toMemory ⟨0x400fff⟩ 2 ∧
    (∃ m', (space.copyTo ⟨0x400fff⟩ ⟨#[0x48, 0x69]⟩).outcome m = .ok (.ok ()) m' ∧
      space.Copies ⟨0x400fff⟩ ⟨#[0x48, 0x69]⟩ m.toMemory (.ok ()) m'.toMemory ∧
      space.copyFrom m'.toMemory ⟨0x400fff⟩ 2 = .ok (⟨#[0x48, 0x69]⟩, none)) ∧
    ∃ part fault, space.copyFrom m.toMemory ⟨0x400fff⟩ 0x1002 = .ok (part, some fault) ∧
      part.size = 0x1001 := by
  obtain ⟨m, space, hbuilt, hseparate, hallows, hdenied⟩ := exists_edge
  obtain ⟨hwrites, hreads⟩ := copies_bytewise hbuilt ⟨0x400fff⟩
  obtain ⟨result, m', hcopy, hcopies⟩ := hwrites ⟨#[0x48, 0x69]⟩ (by decide)
    (hseparate.mono (by decide))
  obtain rfl := hcopies.ok_iff.2 fun i hi => hallows .userWrite i (Nat.lt_trans hi (by decide))
  obtain ⟨part, refusal, hread, hfetches⟩ := hreads 0x1002 (by decide)
  obtain ⟨fault, rfl⟩ := Option.isSome_iff_exists.1
    (hfetches.refused_iff.2 ⟨0x1001, by decide, hdenied _⟩)
  have hfault := hfetches.denied fault rfl
  refine ⟨m, space, hbuilt, hseparate.mono (by decide),
    ⟨m', hcopy, hcopies, hcopies.back rfl⟩, part, fault, hread, ?_⟩
  by_contra hnot
  have hlt := hfault.lt
  exact hfault.denied (hallows .userRead part.size (by omega))

end AddressSpace

end PagedKernel
