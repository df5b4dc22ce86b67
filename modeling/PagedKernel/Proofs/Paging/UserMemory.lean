import PagedKernel.Paging.UserMemory
import PagedKernel.Proofs.Memory.Operations
import PagedKernel.Proofs.Paging.Forest

/-!
# Accesses through an address space

How reading and writing page by page ends, given that the trees of memory are a forest.

* `Memory.resolved`             what an access to an address comes to
* `AddressSpace.Runs`           the pages that a run of accesses can come to
* `Touched mem mem' ok`         only frames of `ok` were written
* `Stored mem root va bytes n mem'`   the first `n` of `bytes` were written from `va` on
* `AddressSpace.Refused`        some page of a run of bytes does not grant the access
* `AddressSpace.Granted`, `AddressSpace.Denied`   all pages grant it, or one is the first not to
* `AddressSpace.Within`         a run of bytes that is granted stays within memory and the addresses
* `AddressSpace.ends_writeFrom` a write stores its bytes in pages that it was granted
* `AddressSpace.readFrom_ok`    reading gives the bytes that it was granted

The last page of all addresses is never mapped, so that no access runs over the end.
-/

namespace PagedKernel

/-! ## places -/

theorem Frame.toNat_address {f : Frame} (hf : f.number.toNat < 2 ^ 40) {offset : UInt64}
    (ho : offset.toNat < 4096) :
    (f.address offset).value.toNat = 4096 * f.number.toNat + offset.toNat := by
  rw [Page.address, UInt64.toNat_add, UInt64.toNat_mul]
  simp only [UInt64.reduceToNat]
  omega

theorem Address.advance_of_lt (va : VirtualAddress) {n : Nat} (h : va.value.toNat + n < 2 ^ 64) :
    va.advance n = .ok ⟨va.value + UInt64.ofNat n⟩ ∧
      (va.value + UInt64.ofNat n).toNat = va.value.toNat + n := by
  refine ⟨if_pos h, ?_⟩
  rw [UInt64.toNat_add, UInt64.toNat_ofNat']
  omega

theorem Address.exists_add (va : VirtualAddress) {n : Nat} (h : va.value.toNat + n < 2 ^ 64) :
    ∃ next, va.add (UInt64.ofNat n) = .ok next ∧ next.value.toNat = va.value.toNat + n := by
  have hn : (UInt64.ofNat n).toNat = n := by
    rw [UInt64.toNat_ofNat']
    omega
  refine ⟨⟨va.value + UInt64.ofNat n⟩, ?_, (va.advance_of_lt h).2⟩
  rw [Address.add, Word.add_of_lt, ok_bind, ok_pure]
  rw [hn]
  exact h

namespace Memory

variable {mem : Memory} {roots : Finset Frame} {root f : Frame} {p : Permissions}
  {va : VirtualAddress} {right : Privilege}

/-- whether a page that is mapped grants an access -/
def grants (p : Permissions) : Privilege → Bool
  | .process a => !AddressSpace.refuses p a
  | .kernel => true

/-- the report of an access that is not granted, when the page is mapped (`present`) or is not -/
def denial (present : Bool) : Privilege → FaultCode
  | .process a => .ofAccess a present
  | .kernel => .ofAccess .kernelWrite false

/-- what an access to `va` comes to -/
def resolved (mem : Memory) (root : Frame) (va : VirtualAddress) (right : Privilege) :
    Except UserFault PhysicalAddress :=
  (mem.pageAt root va.page.number.toNat).elim (.error ⟨va, denial false right⟩) fun x =>
    if grants x.2 right then .ok (x.1.address va.offset) else .error ⟨va, denial true right⟩

theorem resolved_of_none (h : mem.pageAt root va.page.number.toNat = none) :
    mem.resolved root va right = .error ⟨va, denial false right⟩ := by
  rw [resolved, h, Option.elim_none]

theorem resolved_of_granted (h : mem.pageAt root va.page.number.toNat = some (f, p))
    (hg : grants p right = true) : mem.resolved root va right = .ok (f.address va.offset) := by
  rw [resolved, h, Option.elim_some, if_pos hg]

theorem resolved_of_denied (h : mem.pageAt root va.page.number.toNat = some (f, p))
    (hg : ¬ grants p right = true) :
    mem.resolved root va right = .error ⟨va, denial true right⟩ := by
  rw [resolved, h, Option.elim_some, if_neg hg]

theorem resolved_eq_ok {pa : PhysicalAddress} (h : mem.resolved root va right = .ok pa) :
    ∃ f p, mem.pageAt root va.page.number.toNat = some (f, p) ∧ grants p right = true ∧
      pa = f.address va.offset := by
  cases hpage : mem.pageAt root va.page.number.toNat with
  | none =>
    rw [resolved_of_none hpage] at h
    cases h
  | some x =>
    obtain ⟨f, p⟩ := x
    by_cases hg : grants p right = true
    · rw [resolved_of_granted hpage hg] at h
      exact ⟨f, p, rfl, hg, (Except.ok.inj h).symm⟩
    · rw [resolved_of_denied hpage hg] at h
      cases h

/-- a fault tells the address that was accessed -/
theorem va_of_resolved {fault : UserFault} (h : mem.resolved root va right = .error fault) :
    fault.va = va := by
  unfold resolved at h
  cases hpage : mem.pageAt root va.page.number.toNat with
  | none =>
    rw [hpage] at h
    exact congrArg UserFault.va (Except.error.inj h).symm
  | some x =>
    rw [hpage, Option.elim_some] at h
    split at h
    · cases h
    · exact congrArg UserFault.va (Except.error.inj h).symm

/-- and it tells whether the page is mapped -/
theorem code_of_resolved {a : Access} {fault : UserFault}
    (h : mem.resolved root va (.process a) = .error fault) :
    fault.code = .ofAccess a (mem.pageAt root va.page.number.toNat).isSome := by
  unfold resolved at h
  cases hpage : mem.pageAt root va.page.number.toNat with
  | none =>
    rw [hpage] at h
    exact congrArg UserFault.code (Except.error.inj h).symm
  | some x =>
    rw [hpage, Option.elim_some] at h
    split at h
    · cases h
    · exact congrArg UserFault.code (Except.error.inj h).symm

theorem resolved_congr {mem' : Memory}
    (h : mem'.pageAt root va.page.number.toNat = mem.pageAt root va.page.number.toNat) :
    mem'.resolved root va right = mem.resolved root va right := by
  rw [resolved, resolved, h]

theorem resolve_eq (h : Forest mem roots) (hr : root ∈ roots) (va : VirtualAddress)
    (right : Privilege) :
    (AddressSpace.mk root).resolve mem va right = .ok (mem.resolved root va right) := by
  have hlookup := h.lookup_eq hr va
  cases hpage : mem.pageAt root va.page.number.toNat with
  | none =>
    rw [hpage, Option.map_none] at hlookup
    rw [resolved_of_none hpage]
    cases right with
    | process a => rw [AddressSpace.resolve, AddressSpace.access, hlookup]; rfl
    | kernel => rw [AddressSpace.resolve, AddressSpace.translate, hlookup]; rfl
  | some x =>
    obtain ⟨f, p⟩ := x
    rw [hpage, Option.map_some] at hlookup
    cases right with
    | process a =>
      rw [AddressSpace.resolve, AddressSpace.access, hlookup, ok_bind]
      dsimp only
      by_cases hrefuse : AddressSpace.refuses p a = true
      · have hg : ¬ grants p (.process a) = true := by
          rw [grants, hrefuse]
          exact Bool.false_ne_true
        rw [resolved_of_denied hpage hg, if_pos hrefuse]
        rfl
      · have hg : grants p (.process a) = true := by
          rw [grants, Bool.not_eq_true', ← Bool.not_eq_true]
          exact hrefuse
        rw [resolved_of_granted hpage hg, if_neg hrefuse]
        rfl
    | kernel =>
      rw [AddressSpace.resolve, AddressSpace.translate, hlookup, resolved_of_granted hpage rfl]
      rfl

/-- the byte that lies where `root` maps address `a`, whatever the page grants -/
def mappedByte (mem : Memory) (root : Frame) (a : Nat) : Option UInt8 :=
  (mem.pageAt root (a / 4096)).map fun x => (mem.data x.1).byte (a % 4096)

theorem mappedByte_of_page {a : Nat} (h : mem.pageAt root (a / 4096) = some (f, p)) :
    mem.mappedByte root a = some ((mem.data f).byte (a % 4096)) := by
  rw [mappedByte, h, Option.map_some]

/-! ## one page -/

/-- bytes that lie in one frame are stored in it -/
theorem writeFrom_frame {pa : Nat} {bytes : ByteArray} (hfit : pa % 4096 + bytes.size ≤ 4096) :
    mem.writeFrom pa bytes 0 = if bytes.size = 0 then mem
      else mem.modifyFrame (pa / 4096) fun data => data.write (pa % 4096) bytes 0 bytes.size := by
  rw [writeFrom]
  by_cases hz : bytes.size = 0
  · rw [if_pos (Nat.le_of_eq hz), if_pos hz]
  · have hmin : min (bytes.size - 0) (4096 - pa % 4096) = bytes.size := by omega
    rw [if_neg (by omega), if_neg hz]
    simp only [hmin]
    rw [writeFrom, if_pos (by omega)]

end Memory

/-- memory in which only frames of `ok` were written -/
structure Touched (ok : Frame → Prop) (mem mem' : Memory) : Prop where
  size : mem'.contents.size = mem.contents.size
  ledger : mem'.ledger = mem.ledger
  data : ∀ f, ¬ ok f → mem'.data f = mem.data f

namespace Touched

variable {ok : Frame → Prop} {mem mem' mem'' : Memory}

theorem refl : Touched ok mem mem := ⟨rfl, rfl, fun _ _ => rfl⟩

theorem trans (h : Touched ok mem mem') (h' : Touched ok mem' mem'') : Touched ok mem mem'' :=
  ⟨h'.size.trans h.size, h'.ledger.trans h.ledger, fun f hf => (h'.data f hf).trans (h.data f hf)⟩

theorem mono {ok' : Frame → Prop} (h : Touched ok mem mem') (hok : ∀ f, ok f → ok' f) :
    Touched ok' mem mem' :=
  ⟨h.size, h.ledger, fun f hf => h.data f (mt (hok f) hf)⟩

theorem count (h : Touched ok mem mem') (f : Frame) : mem'.count f = mem.count f := by
  rw [Memory.count, Memory.count, h.ledger]

theorem manages (h : Touched ok mem mem') (f : Frame) : mem'.manages f = mem.manages f := by
  rw [Memory.manages, Memory.manages, h.ledger]

end Touched

/-- bytes that lie in one frame are stored in it, and nowhere else -/
theorem Machine.ends_store {m : Machine} {f : Frame} {pa : PhysicalAddress} {bytes : ByteArray}
    (hin : m.hasFrame f = true)
    (hpa : pa.value.toNat = 4096 * f.number.toNat + pa.value.toNat % 4096)
    (hfit : pa.value.toNat % 4096 + bytes.size ≤ 4096) :
    Ends (store pa bytes) m
      (fun _ m' => Touched (fun g => g = f) m.toMemory m'.toMemory ∧
        m'.data f = if bytes.size = 0 then m.data f
          else (m.data f).write (pa.value.toNat % 4096) bytes 0 bytes.size) Never := by
  have hlt := Memory.hasFrame_iff.1 hin
  have hnumber : pa.value.toNat / 4096 = f.number.toNat := by omega
  have hholds : m.holds pa bytes.size = true := by
    rw [Memory.holds, Bool.or_eq_true, decide_eq_true_eq, Memory.byteCount, pageSize]
    right
    omega
  unfold store
  rw [ends_bind, ends_get, if_pos hholds]
  refine ends_update.2 ?_
  show Touched _ m.toMemory (m.writeFrom pa.value.toNat bytes 0) ∧
    (m.writeFrom pa.value.toNat bytes 0).data f = _
  rw [Memory.writeFrom_frame hfit, hnumber]
  split
  · exact ⟨.refl, rfl⟩
  · refine ⟨⟨?_, rfl, fun g hg => ?_⟩, ?_⟩
    · rw [Memory.modifyFrame, Array.size_modify]
    · rw [Memory.data_modifyFrame hin, if_neg hg]
    · rw [Memory.data_modifyFrame hin, if_pos rfl]

/-- the first `count` of `bytes` lie where `root` maps the addresses from `va` on, and all other
bytes are what they were -/
structure Stored (mem : Memory) (root : Frame) (va : VirtualAddress) (bytes : ByteArray)
    (count : Nat) (mem' : Memory) : Prop where
  /-- a later byte may replace an earlier one only in a frame that two of the pages have -/
  placed : ∀ i (h : i < bytes.size), i < count → ∀ f p,
    mem.pageAt root ((va.value.toNat + i) / 4096) = some (f, p) →
    (∀ j < count, ∀ q, mem.pageAt root ((va.value.toNat + j) / 4096) = some (f, q) →
      (va.value.toNat + j) / 4096 = (va.value.toNat + i) / 4096) →
    (mem'.data f).byte ((va.value.toNat + i) % 4096) = bytes[i]
  rest : ∀ f i, (∀ j < count, ∀ p, mem.pageAt root ((va.value.toNat + j) / 4096) = some (f, p) →
    (va.value.toNat + j) % 4096 ≠ i) → (mem'.data f).byte i = (mem.data f).byte i

namespace Stored

variable {mem mem₁ mem₂ : Memory} {root f : Frame} {va : VirtualAddress} {bytes : ByteArray}
  {done n : Nat} {p : Permissions}

theorem none : Stored mem root va bytes 0 mem :=
  ⟨fun i _ hi => absurd hi (Nat.not_lt_zero i), fun _ _ _ => rfl⟩

/-- the bytes of one more page are stored -/
theorem step (h : Stored mem root va bytes done mem₁) (hpos : 0 < n) (hn : done + n ≤ bytes.size)
    (hfit : (va.value.toNat + done) % 4096 + n ≤ 4096)
    (hpage : mem.pageAt root ((va.value.toNat + done) / 4096) = some (f, p))
    (hothers : ∀ g, g ≠ f → mem₂.data g = mem₁.data g)
    (hwritten : mem₂.data f = (mem₁.data f).write ((va.value.toNat + done) % 4096)
      (bytes.extract done (done + n)) 0 n) : Stored mem root va bytes (done + n) mem₂ := by
  have hsize : 0 + n ≤ (bytes.extract done (done + n)).size := by
    rw [ByteArray.size_extract]
    omega
  have hbyte := fun i => FrameData.byte_write (mem₁.data f) (bytes.extract done (done + n))
    ((va.value.toNat + done) % 4096) 0 n i hfit hsize
  refine ⟨fun i hi hlt g q hg hunique => ?_, fun g i hnot => ?_⟩
  · by_cases hold : i < done
    · have hbefore := h.placed i hi hold g q hg fun j hj => hunique j (by omega)
      by_cases hgf : g = f
      · -- both bytes lie in one page, this one before the new ones
        subst hgf
        have hsame := hunique done (by omega) p hpage
        rw [hwritten, hbyte, dif_neg (by omega)]
        exact hbefore
      · rw [hothers g hgf]
        exact hbefore
    · have hsame : (va.value.toNat + i) / 4096 = (va.value.toNat + done) / 4096 := by omega
      rw [hsame, hpage] at hg
      obtain ⟨rfl, -⟩ := Prod.mk.inj (Option.some.inj hg)
      rw [hwritten, hbyte, dif_pos (by omega)]
      have hplace : done + (0 + ((va.value.toNat + i) % 4096 - (va.value.toNat + done) % 4096))
          = i := by omega
      exact (ByteArray.getElem_extract _).trans (by simp only [hplace])
  · have hbefore := h.rest g i fun j hj => hnot j (by omega)
    by_cases hgf : g = f
    · subst hgf
      rw [hwritten, hbyte, dif_neg fun hin => ?_]
      · exact hbefore
      · have hlast : (va.value.toNat + (done + (i - (va.value.toNat + done) % 4096))) / 4096
            = (va.value.toNat + done) / 4096 := by omega
        refine hnot (done + (i - (va.value.toNat + done) % 4096)) (by omega) p ?_ (by omega)
        rw [hlast]
        exact hpage
    · rw [hothers g hgf]
      exact hbefore

end Stored

theorem Touched.forest {ok : Frame → Prop} {mem mem' : Memory} {roots : Finset Frame}
    (h : Touched ok mem mem') (hmem : Forest mem roots)
    (hok : ∀ f, ok f → ∀ r ∈ roots, ¬ mem.IsTable r f) :
    Forest mem' roots ∧ ∀ r ∈ roots, ∀ t, mem.IsTable r t → mem'.data t = mem.data t := by
  have hdata : ∀ r ∈ roots, ∀ t, mem.IsTable r t → mem'.data t = mem.data t :=
    fun r hr t ht => h.data t fun hyes => hok t hyes r hr ht
  refine ⟨hmem.congr h.size hdata fun r hr t ht => ?_, hdata⟩
  rw [h.count]
  exact hmem.counted r hr t ht

namespace AddressSpace

variable {m₀ : Memory} {m : Machine} {roots : Finset Frame} {root : Frame} {va : VirtualAddress}
  {bytes : ByteArray} {right : Privilege} {ok : Frame → Prop} {inv : Nat → Prop}

/-! ## runs of pages -/

/-- the pages that a run of accesses can come to: with every page that is granted `inv` goes on to
the next, and its frame is in memory and in `ok` -/
def Runs (mem : Memory) (root : Frame) (right : Privilege) (inv : Nat → Prop)
    (ok : Frame → Prop) : Prop :=
  ∀ n f p, inv n → mem.pageAt root n = some (f, p) → Memory.grants p right = true →
    n + 1 < 2 ^ 52 ∧ inv (n + 1) ∧ ok f ∧ mem.hasFrame f = true

/-- one of `size` bytes from `va` on lies in a page that does not grant the access -/
def Refused (mem : Memory) (root : Frame) (right : Privilege) (va : VirtualAddress) (size : Nat) :
    Prop :=
  ∃ i < size, ∀ f p, mem.pageAt root ((va.value.toNat + i) / 4096) = some (f, p) →
    ¬ Memory.grants p right = true

/-- the first `n` bytes from `va` on lie in pages that grant the access -/
def Granted (mem : Memory) (root : Frame) (right : Privilege) (va : VirtualAddress) (n : Nat) :
    Prop :=
  ∀ i < n, ∃ f p, mem.pageAt root ((va.value.toNat + i) / 4096) = some (f, p) ∧
    Memory.grants p right = true

/-- an access to `size` bytes from `va` on is denied: the address of `fault` is the first that does
not grant it -/
def Denied (mem : Memory) (root : Frame) (right : Privilege) (va : VirtualAddress) (size : Nat)
    (fault : UserFault) : Prop :=
  ∃ i < size, fault.va.value.toNat = va.value.toNat + i ∧ Granted mem root right va i ∧
    mem.resolved root fault.va right = .error fault

/-- the access is denied at place `i`, which is the first that does not grant it -/
def DeniedAt (mem : Memory) (root : Frame) (right : Privilege) (va : VirtualAddress) (size : Nat)
    (fault : UserFault) (i : Nat) : Prop :=
  i < size ∧ fault.va.value.toNat = va.value.toNat + i ∧ Granted mem root right va i ∧
    mem.resolved root fault.va right = .error fault

/-- as long as it is granted, an access to `size` bytes from `va` on stays within the addresses,
and comes to frames of memory that are in `ok` -/
def Within (mem : Memory) (root : Frame) (right : Privilege) (ok : Frame → Prop)
    (va : VirtualAddress) (size : Nat) : Prop :=
  ∀ i < size, Granted mem root right va i → va.value.toNat + i < 2 ^ 64 ∧
    ∀ f p, mem.pageAt root ((va.value.toNat + i) / 4096) = some (f, p) →
      Memory.grants p right = true → ok f ∧ mem.hasFrame f = true

theorem DeniedAt.denied {mem : Memory} {size i : Nat} {fault : UserFault}
    (h : DeniedAt mem root right va size fault i) : Denied mem root right va size fault := ⟨i, h⟩

theorem Granted.zero {mem : Memory} : Granted mem root right va 0 :=
  fun i hi => absurd hi (Nat.not_lt_zero i)

theorem Granted.mono {mem : Memory} {n k : Nat} (h : Granted mem root right va n) (hk : k ≤ n) :
    Granted mem root right va k :=
  fun i hi => h i (Nat.lt_of_lt_of_le hi hk)

theorem Granted.not_refused {mem : Memory} {size : Nat}
    (h : Granted mem root right va size) : ¬ Refused mem root right va size := by
  rintro ⟨i, hi, hrefused⟩
  obtain ⟨f, p, hpage, hgrant⟩ := h i hi
  exact hrefused f p hpage hgrant

theorem Denied.refused {mem : Memory} {size : Nat} {fault : UserFault}
    (h : Denied mem root right va size fault) : Refused mem root right va size := by
  obtain ⟨i, hi, hva, -, hres⟩ := h
  refine ⟨i, hi, fun f p hpage hgrant => ?_⟩
  rw [← hva, ← Address.toNat_page] at hpage
  cases hres.symm.trans (Memory.resolved_of_granted hpage hgrant)

/-- the bytes of one more chunk lie in a page that grants the access -/
theorem Granted.step {mem : Memory} {place : VirtualAddress} {done size : Nat} {f : Frame}
    {p : Permissions} (h : Granted mem root right va done)
    (hvalue : place.value.toNat = va.value.toNat + done)
    (hpage : mem.pageAt root place.page.number.toNat = some (f, p))
    (hgrant : Memory.grants p right = true) :
    Granted mem root right va (done + pageChunk place (size - done)) := by
  intro i hi
  by_cases hold : i < done
  · exact h i hold
  · have hoffset := place.toNat_offset
    have hsame : (va.value.toNat + i) / 4096 = place.page.number.toNat := by
      rw [place.toNat_page]
      unfold pageChunk at hi
      omega
    exact ⟨f, p, by rw [hsame]; exact hpage, hgrant⟩

theorem next_place (place : VirtualAddress) (left : Nat) (h : pageChunk place left < left) :
    place.value.toNat + pageChunk place left = 4096 * (place.page.number.toNat + 1) := by
  have hpage := place.toNat_page
  have hoffset := place.toNat_offset
  unfold pageChunk at h ⊢
  omega

/-- the place that is reached when `done` bytes have been moved -/
theorem exists_place {done : Nat} (h : va.value.toNat + done < 2 ^ 64) :
    ∃ place, va.advance done = .ok place ∧ place.value.toNat = va.value.toNat + done ∧
      place.page.number.toNat = (va.value.toNat + done) / 4096 := by
  obtain ⟨hadvance, hvalue⟩ := Address.advance_of_lt va h
  exact ⟨_, hadvance, hvalue, by rw [Address.toNat_page, hvalue]⟩

/-- the place after a chunk that is not the last one is on the next page -/
theorem inv_next {place : VirtualAddress} {done size : Nat}
    (hvalue : place.value.toNat = va.value.toNat + done)
    (hnext : place.page.number.toNat + 1 < 2 ^ 52) (hinv : inv (place.page.number.toNat + 1))
    (hmore : done + pageChunk place (size - done) < size) :
    va.value.toNat + (done + pageChunk place (size - done)) < 2 ^ 64 ∧
      inv ((va.value.toNat + (done + pageChunk place (size - done))) / 4096) := by
  have hstep := next_place place (size - done) (by omega)
  have hend : va.value.toNat + (done + pageChunk place (size - done))
      = 4096 * (place.page.number.toNat + 1) := by omega
  rw [hend, Nat.mul_div_cancel_left _ (by decide)]
  exact ⟨by omega, hinv⟩

/-- a run that has been granted so far has come to a page of the run -/
theorem Runs.inv_of_granted {mem : Memory} (h : Runs mem root right inv ok)
    (hinv : inv va.page.number.toNat) (i : Nat) (hgranted : Granted mem root right va i) :
    va.value.toNat + i < 2 ^ 64 ∧ inv ((va.value.toNat + i) / 4096) := by
  have hvalue := va.value.toNat_lt
  induction i with
  | zero =>
    rw [Nat.add_zero, ← va.toNat_page]
    exact ⟨hvalue, hinv⟩
  | succ i ih =>
    obtain ⟨-, hhere⟩ := ih (hgranted.mono (Nat.le_succ i))
    obtain ⟨f, p, hpage, hgrant⟩ := hgranted i (Nat.lt_succ_self i)
    obtain ⟨hnext, hthere, -, -⟩ := h _ f p hhere hpage hgrant
    have hor : (va.value.toNat + (i + 1)) / 4096 = (va.value.toNat + i) / 4096 ∨
        (va.value.toNat + (i + 1)) / 4096 = (va.value.toNat + i) / 4096 + 1 := by omega
    refine ⟨by omega, ?_⟩
    rcases hor with hsame | hsame
    · rw [hsame]
      exact hhere
    · rw [hsame]
      exact hthere

theorem Runs.within {mem : Memory} (h : Runs mem root right inv ok)
    (hinv : inv va.page.number.toNat) (size : Nat) : Within mem root right ok va size := by
  intro i _ hgranted
  obtain ⟨hlt, hhere⟩ := h.inv_of_granted hinv i hgranted
  refine ⟨hlt, fun f p hpage hgrant => ?_⟩
  obtain ⟨-, -, hok, hin⟩ := h _ f p hhere hpage hgrant
  exact ⟨hok, hin⟩

theorem Within.mono {mem : Memory} {size n : Nat} (h : Within mem root right ok va size)
    (hn : n ≤ size) : Within mem root right ok va n :=
  fun i hi => h i (Nat.lt_of_lt_of_le hi hn)

/-- one more piece of the bytes, which lies in one page, is stored -/
theorem ends_storePiece {done : Nat} {place : VirtualAddress} {f : Frame} {p : Permissions}
    (hm : Touched ok m₀ m.toMemory) (hst : Stored m₀ root va bytes done m.toMemory)
    (hdone : done < bytes.size) (hvalue : place.value.toNat = va.value.toNat + done)
    (hpage : m₀.pageAt root ((va.value.toNat + done) / 4096) = some (f, p)) (hokf : ok f)
    (hin : m₀.hasFrame f = true) :
    Ends (Machine.store (f.address place.offset)
        (bytes.extract done (done + pageChunk place (bytes.size - done)))) m
      (fun _ m' => Touched ok m₀ m'.toMemory ∧
        Stored m₀ root va bytes (done + pageChunk place (bytes.size - done)) m'.toMemory)
      Never := by
  have hoffset := place.offset_lt
  have hplace := place.toNat_offset
  have hpa := Frame.toNat_address (Memory.pageAt_eq_some hpage).1 hoffset
  have hin' : m.hasFrame f = true := by
    rw [Memory.hasFrame_iff, hm.size, ← Memory.hasFrame_iff]
    exact hin
  have hchunk := pageChunk_pos place (bytes.size - done) (by omega)
  have hchunk' := pageChunk_le place (bytes.size - done)
  have hfit : pageChunk place (bytes.size - done) ≤ 4096 - place.offset.toNat :=
    Nat.min_le_right _ _
  have hpart : (bytes.extract done (done + pageChunk place (bytes.size - done))).size
      = pageChunk place (bytes.size - done) := by
    rw [ByteArray.size_extract]
    omega
  refine (Machine.ends_store hin' ?_ ?_).mono (fun _ m₁ h₁ => ?_) fun _ _ hn => hn
  · omega
  · rw [hpart]
    omega
  · obtain ⟨htouched, hwritten⟩ := h₁
    have hoff : (f.address place.offset).value.toNat % 4096 = (va.value.toNat + done) % 4096 := by
      omega
    rw [hpart, if_neg (by omega), hoff] at hwritten
    exact ⟨hm.trans (htouched.mono fun g hg => hg.symm ▸ hokf),
      hst.step hchunk (by omega) (by omega) hpage (fun g hg => htouched.data g hg) hwritten⟩

/-- writing page by page stores the bytes in frames of pages that are granted, and changes nothing
else; it fails at the first page that is not, with the bytes before it stored -/
theorem ends_writeFrom (va : VirtualAddress) (bytes : ByteArray) (hmem : Forest m₀ roots)
    (hr : root ∈ roots) (hwithin : Within m₀ root right ok va bytes.size)
    (hok : ∀ f, ok f → ∀ r ∈ roots, ¬ m₀.IsTable r f)
    (done : Nat) (hm : Touched ok m₀ m.toMemory) (hst : Stored m₀ root va bytes done m.toMemory)
    (hgranted : Granted m₀ root right va done) (hsize : done ≤ bytes.size) :
    Ends ((AddressSpace.mk root).writeFrom va bytes right done) m
      (fun _ m' => (Touched ok m₀ m'.toMemory ∧ Stored m₀ root va bytes bytes.size m'.toMemory) ∧
        Granted m₀ root right va bytes.size)
      (Fails fun fault m' => Touched ok m₀ m'.toMemory ∧
        ∃ i, DeniedAt m₀ root right va bytes.size fault i ∧
          Stored m₀ root va bytes i m'.toMemory) := by
  induction hleft : bytes.size - done using Nat.strongRecOn generalizing done m with
  | ind left ih =>
    unfold writeFrom
    by_cases hdone : done < bytes.size
    · obtain ⟨hlt, hinside⟩ := hwithin done hdone hgranted
      obtain ⟨place, hadvance, hvalue, hnumber⟩ := exists_place hlt
      obtain ⟨hforest, hdata⟩ := hm.forest hmem hok
      rw [dif_pos hdone, ends_bind, ends_attemptExcept hadvance, ends_bind, ends_lift,
        Machine.ends_inspect (Memory.resolve_eq hforest hr place right), ends_bind]
      cases hres : m.resolved root place right with
      | error fault =>
        obtain rfl := Memory.va_of_resolved hres
        refine ends_ofResult_error.2 ⟨hm, done, ⟨hdone, hvalue, hgranted, ?_⟩, hst⟩
        rw [← Memory.resolved_congr (Memory.pageAt_congr (hdata root hr) _)]
        exact hres
      | ok pa =>
        obtain ⟨f, p, hpage, hgrant, rfl⟩ := Memory.resolved_eq_ok hres
        rw [Memory.pageAt_congr (hdata root hr), hnumber] at hpage
        obtain ⟨hokf, hin⟩ := hinside f p hpage hgrant
        have hchunk := pageChunk_pos place (bytes.size - done) (by omega)
        have hchunk' := pageChunk_le place (bytes.size - done)
        rw [ends_ofResult_ok, ends_bind, ends_lift]
        refine (ends_storePiece hm hst hdone hvalue hpage hokf hin).mono (fun _ m₁ h₁ => ?_)
          fun _ _ hn => hn.elim
        exact ih _ (by omega) _ h₁.1 h₁.2 (hgranted.step hvalue (hnumber.symm ▸ hpage) hgrant)
          (by omega) rfl
    · rw [dif_neg hdone]
      obtain rfl : done = bytes.size := by omega
      exact ends_pure.2 ⟨⟨hm, hst⟩, hgranted⟩

/-! ## reading -/

variable {mem : Memory} {n : Nat}

/-- what is read of one frame -/
theorem read_eq {f : Frame} {place : VirtualAddress} (hin : mem.hasFrame f = true)
    (hf : f.number.toNat < 2 ^ 40) (hn : n ≤ 4096 - place.offset.toNat) :
    mem.read (f.address place.offset) n = .ok ((mem.data f).read place.offset.toNat n) := by
  have hlt := Memory.hasFrame_iff.1 hin
  have hoffset := place.offset_lt
  have haddress := Frame.toNat_address hf hoffset
  have hholds : mem.holds (f.address place.offset) n = true := by
    rw [Memory.holds, Bool.or_eq_true, decide_eq_true_eq, Memory.byteCount, pageSize]
    right
    omega
  have hnumber : (f.address place.offset).value.toNat / 4096 = f.number.toNat := by omega
  have hplace : (f.address place.offset).value.toNat % 4096 = place.offset.toNat := by omega
  rw [Memory.read, if_pos hholds, Memory.readInto, hnumber, hplace, Array.getElem?_eq_getElem hlt,
    Memory.data_eq hlt]
  split
  · next hzero =>
    rw [FrameData.read, hzero, Nat.add_zero, ByteArray.extract_same]
  · dsimp only
    rw [Nat.min_eq_left hn, Nat.sub_self, Memory.readInto, if_pos rfl, Option.map_some,
      Option.getD_some, ByteArray.empty_append]

theorem readFrom_done (space : AddressSpace) {length done : Nat} {out : ByteArray}
    (h : length ≤ done) : space.readFrom mem va length done out = .ok (out, none) := by
  rw [readFrom, dif_neg (Nat.not_lt.2 h)]
  rfl

theorem readFrom_denied {space : AddressSpace} {length done : Nat} {out : ByteArray}
    {place : VirtualAddress} {fault : UserFault} (h : done < length)
    (hplace : va.advance done = .ok place)
    (hres : space.resolve mem place (.process .userRead) = .ok (.error fault)) :
    space.readFrom mem va length done out = .ok (out, some fault) := by
  rw [readFrom, dif_pos h, hplace, ok_bind, hres, ok_bind]
  rfl

theorem readFrom_granted (out : ByteArray) {space : AddressSpace} {length done : Nat}
    {part : ByteArray}
    {place : VirtualAddress} {pa : PhysicalAddress} (h : done < length)
    (hplace : va.advance done = .ok place)
    (hres : space.resolve mem place (.process .userRead) = .ok (.ok pa))
    (hread : mem.read pa (pageChunk place (length - done)) = .ok part) :
    space.readFrom mem va length done out
      = space.readFrom mem va length (done + pageChunk place (length - done)) (out ++ part) := by
  rw [readFrom, dif_pos h, hplace, ok_bind, hres, ok_bind]
  dsimp only
  rw [hread, ok_bind]

/-- `out` are the bytes from `va` on -/
def BytesAt (mem : Memory) (root : Frame) (va : VirtualAddress) (out : ByteArray) : Prop :=
  ∀ i (h : i < out.size), mem.mappedByte root (va.value.toNat + i) = some out[i]

theorem BytesAt.empty : BytesAt mem root va ByteArray.empty :=
  fun i h => absurd h (Nat.not_lt_zero i)

/-- the bytes of one more chunk are those of its page -/
theorem BytesAt.step {out : ByteArray} {place : VirtualAddress} {f : Frame} {p : Permissions}
    (h : BytesAt mem root va out) (hvalue : place.value.toNat = va.value.toNat + out.size)
    (hpage : mem.pageAt root place.page.number.toNat = some (f, p))
    (hn : n ≤ 4096 - place.offset.toNat) :
    BytesAt mem root va (out ++ (mem.data f).read place.offset.toNat n) := by
  have hoffset := place.toNat_offset
  have hlt := place.offset_lt
  have hfit : place.offset.toNat + n ≤ 4096 := by omega
  intro i hi
  by_cases hold : i < out.size
  · rw [ByteArray.getElem_append_left hold]
    exact h i hold
  · rw [ByteArray.size_append, FrameData.size_read _ hfit] at hi
    have hsame : (va.value.toNat + i) / 4096 = place.page.number.toNat := by
      rw [place.toNat_page]
      omega
    have hplace : (va.value.toNat + i) % 4096 = place.offset.toNat + (i - out.size) := by omega
    rw [ByteArray.getElem_append_right (Nat.le_of_not_lt hold), FrameData.getElem_read _ hfit,
      Memory.mappedByte_of_page (hsame ▸ hpage), hplace]

/-- reading page by page always gives an answer: the bytes before the first page that is not
granted, and the report of the access to that -/
theorem readFrom_ok (hmem : Forest mem roots) (hr : root ∈ roots) {length : Nat}
    (hwithin : Within mem root (.process .userRead) ok va length) (out : ByteArray)
    (hbytes : BytesAt mem root va out)
    (hgranted : Granted mem root (.process .userRead) va out.size) (hsize : out.size ≤ length) :
    ∃ part refusal,
      (AddressSpace.mk root).readFrom mem va length out.size out = .ok (part, refusal) ∧
      BytesAt mem root va part ∧
      refusal.elim (part.size = length ∧ Granted mem root (.process .userRead) va length)
        fun fault => DeniedAt mem root (.process .userRead) va length fault part.size := by
  induction hleft : length - out.size using Nat.strongRecOn generalizing out with
  | ind left ih =>
    by_cases hdone : out.size < length
    · obtain ⟨hlt, hinside⟩ := hwithin out.size hdone hgranted
      obtain ⟨place, hadvance, hvalue, hnumber⟩ := exists_place hlt
      have hresolve := Memory.resolve_eq hmem hr place (.process .userRead)
      cases hres : mem.resolved root place (.process .userRead) with
      | error fault =>
        rw [hres] at hresolve
        obtain rfl := Memory.va_of_resolved hres
        exact ⟨out, _, readFrom_denied hdone hadvance hresolve, hbytes, hdone, hvalue, hgranted,
          hres⟩
      | ok pa =>
        rw [hres] at hresolve
        obtain ⟨f, p, hpage, hgrant, rfl⟩ := Memory.resolved_eq_ok hres
        obtain ⟨-, hin⟩ := hinside f p (hnumber ▸ hpage) hgrant
        have hfit : pageChunk place (length - out.size) ≤ 4096 - place.offset.toNat :=
          Nat.min_le_right _ _
        have hpart := read_eq hin (Memory.pageAt_eq_some hpage).1 hfit
        have hoffset := place.offset_lt
        have hchunk := pageChunk_pos place (length - out.size) (by omega)
        have hchunk' := pageChunk_le place (length - out.size)
        have hmore : (out ++ (mem.data f).read place.offset.toNat
            (pageChunk place (length - out.size))).size
              = out.size + pageChunk place (length - out.size) := by
          rw [ByteArray.size_append, FrameData.size_read _ (by omega)]
        have hgranted' : Granted mem root (.process .userRead) va
            (out.size + pageChunk place (length - out.size)) :=
          hgranted.step hvalue hpage hgrant
        rw [readFrom_granted _ hdone hadvance hresolve hpart]
        rw [← hmore] at hgranted' ⊢
        exact ih _ (by omega) _ (hbytes.step hvalue hpage hfit) hgranted' (by omega) rfl
    · have hend : out.size = length := by omega
      exact ⟨out, none, readFrom_done _ (Nat.le_of_eq hend.symm), hbytes, hend, hend ▸ hgranted⟩

theorem copyFrom_within (hmem : Forest mem roots) (hr : root ∈ roots) {length : Nat}
    (hwithin : Within mem root (.process .userRead) ok va length) :
    ∃ part refusal, (AddressSpace.mk root).copyFrom mem va length = .ok (part, refusal) ∧
      BytesAt mem root va part ∧
      refusal.elim (part.size = length ∧ Granted mem root (.process .userRead) va length)
        fun fault => DeniedAt mem root (.process .userRead) va length fault part.size :=
  readFrom_ok hmem hr hwithin ByteArray.empty .empty .zero (Nat.zero_le length)

theorem copyFrom_ok (hmem : Forest mem roots) (hr : root ∈ roots)
    (hruns : Runs mem root (.process .userRead) inv ok) (va : VirtualAddress) (length : Nat)
    (hinv : inv va.page.number.toNat) :
    ∃ part refusal, (AddressSpace.mk root).copyFrom mem va length = .ok (part, refusal) ∧
      refusal.elim (Granted mem root (.process .userRead) va length)
        (Denied mem root (.process .userRead) va length) := by
  obtain ⟨part, refusal, hcopy, -, hends⟩ := copyFrom_within hmem hr (hruns.within hinv length)
  refine ⟨part, refusal, hcopy, ?_⟩
  cases refusal with
  | none => exact hends.2
  | some fault => exact hends.denied

/-! ## further on -/

section Further

variable {next : VirtualAddress} {done size : Nat}

theorem Granted.append (h : Granted mem root right va done)
    (hnext : next.value.toNat = va.value.toNat + done) (h' : Granted mem root right next n) :
    Granted mem root right va (done + n) := by
  intro i hi
  by_cases hold : i < done
  · exact h i hold
  · have hsame : next.value.toNat + (i - done) = va.value.toNat + i := by omega
    rw [← hsame]
    exact h' (i - done) (by omega)

theorem Within.rest (h : Within mem root right ok va size)
    (hgranted : Granted mem root right va done)
    (hnext : next.value.toNat = va.value.toNat + done) :
    Within mem root right ok next (size - done) := by
  intro i hi hgranted'
  rw [hnext, Nat.add_assoc]
  exact h (done + i) (by omega) (hgranted.append hnext hgranted')

theorem DeniedAt.append {fault : UserFault} {i : Nat}
    (h : DeniedAt mem root right next (size - done) fault i)
    (hgranted : Granted mem root right va done)
    (hnext : next.value.toNat = va.value.toNat + done) :
    DeniedAt mem root right va size fault (done + i) := by
  obtain ⟨hi, hva, hbefore, hres⟩ := h
  exact ⟨by omega, by omega, hgranted.append hnext hbefore, hres⟩

theorem DeniedAt.mono {fault : UserFault} {i : Nat} (h : DeniedAt mem root right va n fault i)
    (hn : n ≤ size) : DeniedAt mem root right va size fault i :=
  ⟨Nat.lt_of_lt_of_le h.1 hn, h.2⟩

theorem DeniedAt.not_granted {fault : UserFault} {i : Nat}
    (h : DeniedAt mem root right va size fault i) : ¬ Granted mem root right va (i + 1) := by
  obtain ⟨-, hva, -, hres⟩ := h
  intro hgranted
  obtain ⟨f, p, hpage, hgrant⟩ := hgranted i (Nat.lt_succ_self i)
  rw [← hva, ← Address.toNat_page] at hpage
  cases hres.symm.trans (Memory.resolved_of_granted hpage hgrant)

/-- in one page the first byte is the one that is denied -/
theorem DeniedAt.eq_zero {fault : UserFault} {i : Nat} (h : DeniedAt mem root right va n fault i)
    (hn : n ≤ 4096 - va.offset.toNat) : i = 0 := by
  by_contra hne
  refine h.not_granted fun j hj => ?_
  obtain ⟨hi, -, hbefore, -⟩ := h
  have hoffset := va.toNat_offset
  have hsame : (va.value.toNat + j) / 4096 = (va.value.toNat + 0) / 4096 := by omega
  rw [hsame]
  exact hbefore 0 (by omega)

theorem BytesAt.append {out more : ByteArray} (h : BytesAt mem root va out)
    (hnext : next.value.toNat = va.value.toNat + out.size) (h' : BytesAt mem root next more) :
    BytesAt mem root va (out ++ more) := by
  intro i hi
  by_cases hold : i < out.size
  · rw [ByteArray.getElem_append_left hold]
    exact h i hold
  · rw [ByteArray.size_append] at hi
    have hsame : next.value.toNat + (i - out.size) = va.value.toNat + i := by omega
    rw [ByteArray.getElem_append_right (Nat.le_of_not_lt hold), ← hsame]
    exact h' (i - out.size) (by omega)

/-- a part of what was read is what a shorter read gives -/
theorem BytesAt.extract {out : ByteArray} (h : BytesAt mem root va out) (n : Nat) :
    BytesAt mem root va (out.extract 0 n) := by
  intro i hi
  have hlt : i < out.size := by
    rw [ByteArray.size_extract] at hi
    omega
  rw [h i hlt, ByteArray.getElem_extract]
  simp only [Nat.zero_add]

end Further

end AddressSpace

end PagedKernel
