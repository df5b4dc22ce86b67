import PagedKernel.Proofs.Kernel.Images
import PagedKernel.Proofs.Kernel.Isolation

/-!
# New pages

A process that asks for a page gets zeroes in a frame of its own, whatever it had at the address
before.  What it had loses one reference, and who else maps it keeps it.

* `Kernel.Renews`              a process has got a new page, and nothing else has changed
* `Kernel.Allocates.renews`    so it has when it was given one
* `Kernel.Reachable.renewed`   an address that is not its own is refused, and any other gets a page
-/

namespace PagedKernel

/-- on the default machine no page of a process lacks a table: those of the kernel's part and of the
stack are enough -/
theorem Complete.missing_eq_zero {size : UInt64} {r : Frame} {mem : Memory} {n : Nat}
    (h : Complete (.withPhysical size) r mem) (hl : (Layout.withPhysical size).Ordered)
    (h₁ : (Layout.withPhysical size).firstPage ≤ n) (h₂ : n < (Layout.withPhysical size).endPage) :
    mem.missing r (pagePath n) = 0 := by
  have hfirst : (Layout.withPhysical size).firstPage = 256 := Layout.firstPage_sized
  have hend : (Layout.withPhysical size).endPage = 768 :=
    show (0x300000 : UInt64).toNat / 4096 = 768 by decide
  have hframes := hl.firstPage_le
  rw [hfirst] at h₁ hframes
  rw [hend] at h₂
  by_cases hlow : n < 512
  · have hkernel := h.low 255 (by omega)
    rw [Layout.kernelPage, if_pos ⟨by decide, by omega⟩] at hkernel
    exact Memory.missing_of_pageAt hkernel (pagePath_congr (by omega))
  · obtain ⟨x, hx⟩ := Option.ne_none_iff_exists'.1 h.stack
    rw [hend] at hx
    exact Memory.missing_of_pageAt hx (pagePath_congr (by omega))

namespace Kernel

variable {k k' k₀ : Kernel} {pid : Nat} {va : VirtualAddress} {size : UInt64}

theorem Valid.missing_eq_zero {s : AddressSpace} {n : Nat} (h : k.Valid ∅)
    (hlayout : k.layout = .withPhysical size) (hs : k.processes.space? pid = some s)
    (h₁ : k.layout.firstPage ≤ n) (h₂ : n < k.layout.endPage) :
    k.memory.missing s.root (pagePath n) = 0 := by
  have hl := h.sound.ordered
  have hcomplete := h.complete pid (Finset.notMem_empty _) s hs
  rw [hlayout] at hl hcomplete h₁ h₂
  exact hcomplete.missing_eq_zero hl h₁ h₂

/-- the process of `pid` has in `k'` a page of zeroes at `va`, in place of what it had there -/
structure Renews (pid : Pid) (va : VirtualAddress) (k k' : Kernel) : Prop where
  processes : k'.processes = k.processes
  /-- the frame of the page was free -/
  page : ∃ f, k'.lookup pid va = .ok (some ⟨va, f, .userReadWrite⟩) ∧ k.IsFree f ∧
    k'.memory.count f = 1
  zeroes : ∀ a : VirtualAddress, a.page = va.page → k'.byteAt pid a = some 0
  others : ∀ a, k.layout.isUserAddress a = true → a.page ≠ va.page →
    k'.lookup pid a = k.lookup pid a ∧ k'.byteAt pid a = k.byteAt pid a
  /-- the frame that the page had before lost this reference, and is free if it was not shared -/
  old : ∀ m, k.lookup pid va = .ok (some m) →
    k'.memory.count m.frame + 1 = k.memory.count m.frame ∧
      (k'.IsFree m.frame ↔ k.holders m.frame = {(pid, va.page.number.toNat)})
  /-- no other frame is counted anew -/
  counts : ∀ f, (∀ m, k.lookup pid va = .ok (some m) → m.frame ≠ f) →
    (∀ m, k'.lookup pid va = .ok (some m) → m.frame ≠ f) → k'.memory.count f = k.memory.count f
  siblings : ∀ q, q ≠ pid → (k.processes.space? q).isSome = true → Undisturbed q k k'

/-- where no table is lacking, a new page changes what it is to change, and nothing else -/
theorem Allocates.renews (h : Allocates pid va k k') (hk : k.Valid ∅)
    (hlayout : k.layout = .withPhysical size) : Renews pid va k k' := by
  obtain ⟨s, hs, hreplaced⟩ := h.memory
  obtain ⟨f, hfree, hmanages, hpage, hcount⟩ := hreplaced.page
  have hl := hk.sound.ordered
  have hk' := h.serves.valid
  have hend := hl.endPage_le
  have hs' : k'.processes.space? pid = some s := h.processes ▸ hs
  have hsame : k'.layout = k.layout := congrArg KernelConfig.layout h.serves.config
  have hin := fun a => (hl.isUserAddress_iff a).1
  obtain ⟨h₁, h₂⟩ := hin va h.place.1
  have hcount := hcount (hk.missing_eq_zero hlayout hs h₁ h₂)
  have hne : ∀ a : VirtualAddress, a.page ≠ va.page →
      a.page.number.toNat ≠ va.page.number.toNat := fun a hne heq => hne (Page.eq_of_toNat heq)
  have hnew : k'.lookup pid va = .ok (some ⟨va, f, .userReadWrite⟩) := by
    rw [hk'.lookup_eq hs', hpage, Option.map_some]
  refine ⟨h.processes, ⟨f, hnew, ⟨?_, hfree⟩, ?_⟩, fun a ha => ?_, fun a ha hdiffer => ?_,
    fun m hm => ?_, fun g hg hg' => ?_, fun q hq hloaded => ?_⟩
  · rw [hk.sound.managed, hmanages]
  · rw [hcount, if_pos rfl]
  · have huser : k'.layout.isUserAddress a = true := by
      rw [hsame, hk.sound.ordered.isUserAddress_iff, ha]
      exact ⟨h₁, h₂⟩
    rw [hk'.byteAt_eq hs' huser, ha, hreplaced.shows.pages _ h₁ h₂, if_pos rfl, Option.map_some]
    exact congrArg some (FrameData.byte_filled 0 a.offset_lt)
  · obtain ⟨ha₁, ha₂⟩ := hin a ha
    have hother := hreplaced.others a.page.number.toNat (by omega) (hne a hdiffer)
    refine ⟨by rw [hk'.lookup_eq hs', hk.lookup_eq hs, hother], ?_⟩
    rw [hk'.byteAt_eq hs' (by rw [hsame]; exact ha), hk.byteAt_eq hs ha,
      hreplaced.shows.pages _ ha₁ ha₂, if_neg (hne a hdiffer)]
  · have hpage₁ := hk.pageAt_of_lookup hs hm
    obtain ⟨hcount₁, hmanages₁, -⟩ := hk.sound.of_page (ProcessTable.root_mem hs) h₁ h₂ hpage₁
    have hdiffer : m.frame ≠ f := fun heq => hcount₁ (heq ▸ hfree)
    have hless : k'.memory.count m.frame = k.memory.count m.frame - 1 := by
      rw [hcount, if_neg hdiffer, if_pos (Memory.frameAt_of_pageAt hpage₁)]
    refine ⟨by omega, ?_⟩
    rw [← hk.count_eq_one_iff hs h₁ h₂ hpage₁, IsFree, hsame, hk.sound.managed, hmanages₁, hless]
    exact ⟨fun hzero => by omega, fun hone => ⟨rfl, by omega⟩⟩
  · have hnot : ¬ k.memory.frameAt s.root va.page.number.toNat = some g := by
      intro hframe
      obtain ⟨p, hpage₁⟩ := Memory.pageAt_of_frameAt hframe
      refine hg ⟨va, g, p⟩ ?_ rfl
      rw [hk.lookup_eq hs, hpage₁, Option.map_some]
    rw [hcount, if_neg fun heq => hg' _ hnew heq.symm, if_neg hnot]
  · obtain ⟨s₁, hs₁⟩ := Option.isSome_iff_exists.1 hloaded
    exact (h.serves.spares {q} fun hin => hq (Finset.mem_singleton.1 hin).symm).undisturbed hk hk'
      hs₁

/-- an address outside the memory of a process, or inside a page, is refused -/
theorem pageAlloc_invalid (h : va.value < k.layout.processStart ∨ k.layout.virtualSize ≤ va.value ∨
    va.isAligned = false) : pageAlloc pid va k = .error (.error (.invalidAddress va)) k := by
  have hrefuse : (!k.layout.isUserAddress va || !va.isAligned) = true := by
    rw [Layout.isUserAddress]
    rcases h with h | h | h
    · simp [UInt64.not_le.2 h]
    · simp [UInt64.not_lt.2 h]
    · simp [h]
  have hends : Ends (pageAlloc pid va) k (fun _ _ => False) fun e k' =>
      e = .error (.invalidAddress va) ∧ k' = k := by
    rw [pageAlloc, ends_bind, ends_get]
    dsimp only
    exact ends_ite.2 ⟨fun _ => ends_fail.2 ⟨rfl, rfl⟩, fun hno => absurd hrefuse hno⟩
  obtain ⟨e, k', halloc, rfl, rfl⟩ := hends.exists_error
  exact halloc

/-- a page is refused where it would not be the process's own, and nothing happens; a page that a
process gets is new -/
theorem Reachable.renewed (h : Reachable k₀ k) (hn : size.toNat ≤ 2 ^ 48)
    (h₀ : StartedOn size k₀) (pid : Pid) (va : VirtualAddress) :
    (va.value < k.layout.processStart ∨ k.layout.virtualSize ≤ va.value ∨ va.isAligned = false →
      pageAlloc pid va k = .error (.error (.invalidAddress va)) k) ∧
    ∀ k', pageAlloc pid va k = .ok () k' → Renews pid va k k' := by
  refine ⟨pageAlloc_invalid, fun k' halloc => ?_⟩
  obtain ⟨hvalid₀, hlayout, -⟩ := h₀.valid hn
  obtain ⟨hvalid, hspares⟩ := h.confined hvalid₀
  exact ((ends_pageAlloc hvalid va).ok halloc).renews hvalid (hspares.layout.trans hlayout)

/-- a process that has been loaded can have a new page where its program was -/
theorem renewed_overlapping : ∃ k₀ k k' : Kernel, StartedOn 0x200000 k₀ ∧ Reachable k₀ k ∧
    pageAlloc 1 ⟨0⟩ k = .error (.error (.invalidAddress ⟨0⟩)) k ∧
    pageAlloc 1 ⟨0x100000⟩ k = .ok () k' ∧ Renews 1 ⟨0x100000⟩ k k' := by
  have hn : (0x200000 : UInt64).toNat ≤ 2 ^ 48 := by decide
  have hframes : (Layout.withPhysical 0x200000).frameCount = 512 := by decide +kernel
  have htables : tablesFor 512 = 3 := by decide
  obtain ⟨k₀, k, h₀, -, h, hloads, hlayout, -, hfree⟩ :=
    StartedOn.exists_overlapping hn (by rw [hframes, htables]; decide)
  rw [hframes, htables] at hfree
  obtain ⟨s, hadopts, -⟩ := hloads.memory
  have hrange : k.layout.isUserAddress ⟨0x100000⟩ = true := by
    rw [hlayout]
    decide
  have hmissing : k.memory.missing s.root (pagePath 256) = 0 :=
    hadopts.after.missing_eq_zero hlayout hadopts.space (by rw [hlayout]; decide)
      (by rw [hlayout]; decide)
  have hends : Ends (pageAlloc 1 ⟨0x100000⟩) k (fun _ _ => True) Never := by
    refine (ends_pageAlloc (h.valid hn h₀) _).mono (fun _ _ _ => trivial) fun e k' he => ?_
    cases e with
    | panic e => exact he.elim
    | error e =>
      have hpage : (⟨0x100000⟩ : VirtualAddress).page.number.toNat = 256 := by decide
      have hless := he.1.2 hrange rfl s hadopts.space
      rw [hpage, hmissing] at hless
      omega
  obtain ⟨_, k', halloc, -⟩ := hends.exists_ok
  have hbelow : (0 : UInt64) < k.layout.processStart := by
    rw [hlayout]
    decide
  exact ⟨k₀, k, k', h₀, h, (h.renewed hn h₀ 1 ⟨0⟩).1 (.inl hbelow), halloc,
    (h.renewed hn h₀ 1 ⟨0x100000⟩).2 k' halloc⟩

end Kernel

end PagedKernel
