import PagedKernel.Process.Space
import PagedKernel.Proofs.Paging.UserMemory
import PagedKernel.Proofs.Process.Views
import PagedKernel.Proofs.Program.Picture

/-!
# What a process sees of its program

While a program is loaded, the pages and the bytes that its process sees change in two ways: a page
is mapped for a segment, and bytes are written.

* `Pictured l r perms byte mem`   the process of `r` sees these permissions and bytes, and no others
* `AddressSpace.segmentView`      what a page shows that was mapped for a segment
* `Pictured.mapped`               a page was mapped
* `Pictured.stored`               bytes were written
* `Pictured.filled`               the bytes of a segment were
-/

namespace PagedKernel

variable {l : Layout} {kr r : Frame} {procs : Finset Frame} {owed : List Frame}
  {mem mem' : Memory} {n : Nat} {p : Permissions} {perms perms' : Nat → Option Permissions}
  {byte byte' : Nat → UInt8} {bytes : ByteArray} {va : VirtualAddress} {s : Segment}

/-- the process of `r` has the pages of `perms`, with these permissions, and they hold the bytes of
`byte` -/
structure Pictured (l : Layout) (r : Frame) (perms : Nat → Option Permissions)
    (byte : Nat → UInt8) (mem : Memory) : Prop where
  permissions : ∀ n, l.firstPage ≤ n → n < l.endPage → (mem.viewAt r n).map Prod.fst = perms n
  bytes : ∀ a, l.firstPage ≤ a / 4096 → a / 4096 < l.endPage → ∀ v,
    mem.viewAt r (a / 4096) = some v → v.2.byte (a % 4096) = byte a

namespace AddressSpace

theorem segmentPermissions_cases (s : Segment) :
    segmentPermissions s = .userReadWrite ∨ segmentPermissions s = .userReadOnly := by
  unfold segmentPermissions
  cases s.writable
  · exact .inr rfl
  · exact .inl rfl

/-- what a page shows that was mapped for a segment, when it showed `x` before: zeroes if it was not
mapped, and what it held if it was -/
def segmentView (s : Segment) (x : Option (Permissions × FrameData)) : Permissions × FrameData :=
  x.elim (segmentPermissions s, .zero) fun y =>
    (if s.writable && !y.1.writable then .userReadWrite else y.1, y.2)

end AddressSpace

namespace Pictured

/-- nothing is mapped yet -/
theorem empty (hnone : ∀ n, l.firstPage ≤ n → n < l.endPage → mem.pageAt r n = none) :
    Pictured l r (Segment.allowed []) (Segment.shown []) mem := by
  refine ⟨fun n h₁ h₂ => ?_, fun a h₁ h₂ v hv => ?_⟩
  · rw [Memory.viewAt_of_none (hnone n h₁ h₂)]
    rfl
  · rw [Memory.viewAt_of_none (hnone _ h₁ h₂)] at hv
    cases hv

theorem congr (h : Pictured l r perms byte mem)
    (hperms : ∀ n, l.firstPage ≤ n → n < l.endPage → perms' n = perms n)
    (hbyte : ∀ a, byte' a = byte a) : Pictured l r perms' byte' mem := by
  refine ⟨fun n h₁ h₂ => ?_, fun a h₁ h₂ v hv => ?_⟩
  · rw [hperms n h₁ h₂]
    exact h.permissions n h₁ h₂
  · rw [hbyte]
    exact h.bytes a h₁ h₂ v hv

/-- a page that shows something else -/
theorem shows {v : Permissions × FrameData} (h : Pictured l r perms byte mem)
    (hshows : Shows l r n (some v) mem mem') (hself : perms' n = some v.1)
    (hother : ∀ k, k ≠ n → perms' k = perms k)
    (hbytes : ∀ a, a / 4096 = n → v.2.byte (a % 4096) = byte a) :
    Pictured l r perms' byte mem' := by
  refine ⟨fun k h₁ h₂ => ?_, fun a h₁ h₂ w hw => ?_⟩
  · rw [hshows.pages k h₁ h₂]
    split
    · next heq => rw [heq, hself, Option.map_some]
    · next hne => rw [hother k hne, h.permissions k h₁ h₂]
  · rw [hshows.pages _ h₁ h₂] at hw
    split at hw
    · next heq =>
      obtain rfl := Option.some.inj hw
      exact hbytes a heq
    · exact h.bytes a h₁ h₂ w hw

/-- a page is mapped for a segment; if it is new, it holds zeroes -/
theorem mapped {done : List Segment} (h : Pictured l r perms (Segment.shown done) mem)
    (h₁ : l.firstPage ≤ n) (h₂ : n < l.endPage)
    (hshows : Shows l r n (some (AddressSpace.segmentView s (mem.viewAt r n))) mem mem')
    (hcovers : s.covers n = true) (hold : perms n = Segment.allowed done n)
    (hself : perms' n = Segment.allowed (done ++ [s]) n)
    (hother : ∀ k, k ≠ n → perms' k = perms k) :
    Pictured l r perms' (Segment.shown done) mem' := by
  have hperms := h.permissions n h₁ h₂
  rw [hold] at hperms
  refine h.shows hshows ?_ hother fun a ha => ?_
  · rw [hself]
    cases hview : mem.viewAt r n with
    | none =>
      rw [hview, Option.map_none] at hperms
      exact Segment.allowed_append_of_none hcovers hperms.symm
    | some v =>
      rw [hview, Option.map_some] at hperms
      exact Segment.allowed_append_of_some hcovers hperms.symm
  · subst ha
    cases hview : mem.viewAt r (a / 4096) with
    | none =>
      rw [hview, Option.map_none] at hperms
      rw [Segment.shown_of_none hperms.symm]
      exact FrameData.byte_filled 0 (Nat.mod_lt _ (by decide))
    | some v => exact h.bytes a h₁ h₂ v hview

/-- bytes are written into pages that are mapped -/
theorem stored (h : Pictured l r perms byte mem) (hs : Sound l kr procs owed mem) (hr : r ∈ procs)
    (hpages : ∀ n, mem'.pageAt r n = mem.pageAt r n)
    (hstored : Stored mem r va bytes bytes.size mem')
    (h₁ : l.firstPage ≤ va.page.number.toNat)
    (h₂ : va.value.toNat + bytes.size ≤ 4096 * l.endPage) :
    Pictured l r perms (fun a => if h : va.value.toNat ≤ a ∧ a < va.value.toNat + bytes.size then
      bytes[a - va.value.toNat] else byte a) mem' := by
  have hpage := va.toNat_page
  -- no two pages of a process have one frame
  have hunique : ∀ a f p, l.firstPage ≤ a / 4096 → a / 4096 < l.endPage →
      mem.pageAt r (a / 4096) = some (f, p) → ∀ j < bytes.size, ∀ q,
      mem.pageAt r ((va.value.toNat + j) / 4096) = some (f, q) →
      (va.value.toNat + j) / 4096 = a / 4096 := by
    intro a f p ha₁ ha₂ ha j hj q hq
    exact (hs.shared r hr r hr _ _ f q p (by omega) (by omega) ha₁ ha₂ hq ha).1
  refine ⟨fun n hn hn' => ?_, fun a ha₁ ha₂ v hv => ?_⟩
  · rw [← h.permissions n hn hn', Memory.viewAt, Memory.viewAt, hpages, Option.map_map,
      Option.map_map]
    rfl
  · rw [Memory.viewAt, hpages] at hv
    obtain ⟨⟨f, p⟩, hmap, rfl⟩ := Option.map_eq_some_iff.1 hv
    dsimp only
    split
    · next hin =>
      have hplace : va.value.toNat + (a - va.value.toNat) = a := by omega
      have hbyte := hstored.placed (a - va.value.toNat) (by omega) (by omega) f p
      rw [hplace] at hbyte
      exact hbyte hmap (hunique a f p ha₁ ha₂ hmap)
    · next hout =>
      rw [← h.bytes a ha₁ ha₂ _ (Memory.viewAt_of_pageAt hmap)]
      refine hstored.rest f _ fun j hj q hq heq => hout ?_
      have := hunique a f p ha₁ ha₂ hmap j hj q hq
      omega

/-- zeroes are written for all of a segment, and then its data -/
theorem filled {done : List Segment} {mem'' : Memory} {blank : ByteArray}
    (h : Pictured l r perms (Segment.shown done) mem) (hs : Sound l kr procs owed mem)
    (hs' : Sound l kr procs owed mem') (hr : r ∈ procs)
    (hpages : ∀ n, mem'.pageAt r n = mem.pageAt r n)
    (hpages' : ∀ n, mem''.pageAt r n = mem'.pageAt r n)
    (hzero : ∀ i (h : i < blank.size), blank[i] = 0) (hzeroes : blank.size = s.size.toNat)
    (hblank : Stored mem r s.va blank blank.size mem')
    (hdata : Stored mem' r s.va s.data s.data.size mem'') (hrange : s.InRange l)
    (hsize : s.data.size ≤ s.size.toNat) :
    Pictured l r perms (Segment.shown (done ++ [s])) mem'' := by
  obtain ⟨hfirst, hstop⟩ := (Segment.inRange_iff hs.ordered).1 hrange
  have hcleared := h.stored hs hr hpages hblank hfirst (by rw [hzeroes]; omega)
  refine (hcleared.stored hs' hr hpages' hdata hfirst (by omega)).congr (fun _ _ _ => rfl)
    fun a => ?_
  rw [Segment.shown_append hsize, ← hzeroes]
  congr 1
  funext _
  split
  · exact (hzero _ _).symm
  · rfl

end Pictured

end PagedKernel
