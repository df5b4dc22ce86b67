import PagedKernel.Proofs.Kernel.Mappings
import PagedKernel.Proofs.Kernel.Reachable

/-!
# What a process may write

A process can write to the console, and to frames that nobody else has a use for.

* `Kernel.Owns`                 a page of a process maps a frame that is its own
* `Kernel.Private`              whatever may be written is the console or owned, and what is shared
                                may not be written
* `Kernel.Reachable.privacy`    so it is in every reachable kernel
-/

namespace PagedKernel

namespace Kernel

/-- the page of `va` that `pid` has maps `f`, and `f` has no other use -/
structure Owns (k : Kernel) (tables : List Frame) (pid : Pid) (va : VirtualAddress) (f : Frame) :
    Prop where
  address : k.layout.isUserAddress va = true
  allocatable : k.layout.isAllocatable f.base = .ok true
  count : k.memory.count f = 1
  table : f ∉ tables
  /-- no other page of any process maps the frame -/
  only : ∀ q va' m, k.layout.isUserAddress va' = true → k.lookup q va' = .ok (some m) →
    m.frame = f → q = pid ∧ va'.page = va.page

/-- what processes may write is the console, or theirs alone; `tables` are all page tables -/
structure Private (k : Kernel) (tables : List Frame) : Prop where
  /-- a page that a process may write is the console's, or the process owns its frame -/
  writable : ∀ pid va m, va.value.toNat < 2 ^ 48 → k.lookup pid va = .ok (some m) →
    m.permissions.writable = true → m.permissions.user = true →
      va.page.base.value = k.layout.console ∧ m.frame.base.value = k.layout.console ∨
        k.Owns tables pid va m.frame
  /-- a frame that has several users may be written by none of them -/
  shared : ∀ pid va m, k.layout.isUserAddress va = true → k.lookup pid va = .ok (some m) →
    2 ≤ k.memory.count m.frame → m.permissions.writable = false
  /-- what a process writes changes the console, or a frame that is no table, that the kernel does
  not use and that no other process can read -/
  written : ∀ pid va bytes f, (leave (writeUser pid va bytes) k).memory.data f ≠ k.memory.data f →
    f.base.value = k.layout.console ∨
      k.layout.isAllocatable f.base = .ok true ∧ f ∉ tables ∧
        ∀ q va' m, q ≠ pid → va'.value.toNat < 2 ^ 48 → k.lookup q va' = .ok (some m) →
          m.permissions.user = true → m.frame ≠ f

variable {k k₀ : Kernel} {unfinished : Finset Pid} {pid : Nat} {s : AddressSpace} {f : Frame}
  {p : Permissions} {n : Nat}

theorem base_console (hl : k.layout.Ordered) :
    (Page.ofNumber (UInt64.ofNat k.layout.consolePage) : Frame).base.value = k.layout.console := by
  have hconsole := hl.console_eq
  have hlt := hl.consolePage_lt
  have hfirst := hl.firstPage_lt
  have hend := hl.endPage_le
  rw [← UInt64.toNat_inj, Page.toNat_base, Page.toNat_ofNumber (by omega), hconsole, Nat.mul_comm]

namespace Valid

theorem owns (h : k.Valid unfinished) {tables : List Frame}
    (htables : ∀ f, f ∈ tables ↔
      ∃ r ∈ insert k.space.root k.processes.roots, k.memory.IsTable r f)
    (hs : k.processes.space? pid = some s) {va : VirtualAddress}
    (hva : k.layout.isUserAddress va = true)
    (hpage : k.memory.pageAt s.root va.page.number.toNat = some (f, p))
    (hw : p.writable = true) : k.Owns tables pid va f := by
  have hroot := ProcessTable.root_mem hs
  obtain ⟨h₁, h₂⟩ := (h.sound.ordered.isUserAddress_iff va).1 hva
  obtain ⟨-, hmanages, htable⟩ := h.sound.of_page hroot h₁ h₂ hpage
  refine ⟨hva, ?_, ?_, fun hin => ?_, fun q va' m hva' hm hf => ?_⟩
  · rw [h.sound.managed, hmanages]
  · have haccounts := h.sound.accounts f
    rw [Memory.tableCount_eq_zero htable, h.sound.holders_writable hroot h₁ h₂ hpage hw,
      Finset.card_singleton, List.count_nil] at haccounts
    exact haccounts
  · obtain ⟨r, hr, ht⟩ := (htables f).1 hin
    exact htable r hr ht
  · obtain ⟨h₁', h₂'⟩ := (h.sound.ordered.isUserAddress_iff va').1 hva'
    obtain ⟨-, s', hs', hroot', hpage'⟩ := h.of_lookup hm
    rw [hf] at hpage'
    obtain ⟨hn, hsame | hro⟩ := h.sound.shared _ hroot _ hroot' _ _ f _ _ h₁ h₂ h₁' h₂' hpage hpage'
    · have hspace : s' = s := by
        cases s
        cases s'
        exact congrArg AddressSpace.mk hsame.symm
      exact ⟨h.distinct q pid s (hspace ▸ hs') hs, Page.eq_of_toNat hn.symm⟩
    · rw [hw] at hro
      cases hro

/-- a page that a process may use lies in its memory, or is that of the console -/
theorem user_cases (h : k.Valid unfinished) (hs : k.processes.space? pid = some s)
    (hn : n < 2 ^ 36) (hpage : k.memory.pageAt s.root n = some (f, p)) (hu : p.user = true) :
    n = k.layout.consolePage ∧ f = Page.ofNumber (UInt64.ofNat k.layout.consolePage) ∨
      k.layout.firstPage ≤ n ∧ n < k.layout.endPage := by
  have hroot := ProcessTable.root_mem hs
  by_cases hlow : n < k.layout.firstPage
  · exact .inl (AddressSpace.console_of_user h.sound hroot hlow hpage hu)
  · exact .inr ⟨Nat.le_of_not_lt hlow, (AddressSpace.hasFrame_of_page h.sound hroot hn hpage).2⟩

theorem console_ne (h : k.Valid unfinished) (hf : k.memory.manages f = true) :
    f ≠ Page.ofNumber (UInt64.ofNat k.layout.consolePage) := by
  rintro rfl
  rw [AddressSpace.not_manages_console h.sound] at hf
  cases hf

/-- a frame that a process may write is the console's, or no other process can read it -/
theorem unread_of_writable (h : k.Valid unfinished) {tables : List Frame}
    (htables : ∀ f, f ∈ tables ↔
      ∃ r ∈ insert k.space.root k.processes.roots, k.memory.IsTable r f)
    (hs : k.processes.space? pid = some s)
    (hf : AddressSpace.Writable k.layout s.root k.memory f) :
    f.base.value = k.layout.console ∨
      k.layout.isAllocatable f.base = .ok true ∧ f ∉ tables ∧
        ∀ q va m, q ≠ pid → va.value.toNat < 2 ^ 48 → k.lookup q va = .ok (some m) →
          m.permissions.user = true → m.frame ≠ f := by
  rcases hf with ⟨n, p, h₁, h₂, hpage, hw⟩ | rfl
  · have hend := h.sound.ordered.endPage_le
    have hn : (pageAddress n).page.number.toNat = n := page_pageAddress (by omega)
    have howns := h.owns htables hs ((h.sound.ordered.isUserAddress_iff (pageAddress n)).2
      (by rw [hn]; exact ⟨h₁, h₂⟩)) (hn.symm ▸ hpage) hw
    refine .inr ⟨howns.allocatable, howns.table, fun q va m hq hva hm hu hmf => ?_⟩
    obtain ⟨-, s', hs', -, hpage'⟩ := h.of_lookup hm
    have hvalue := va.toNat_page
    rcases h.user_cases hs' (by omega) hpage' hu with ⟨-, hconsole⟩ | huser
    · have hmanages := (h.sound.of_page (ProcessTable.root_mem hs) h₁ h₂ hpage).2.1
      exact h.console_ne hmanages (hmf ▸ hconsole)
    · exact hq (howns.only q va m ((h.sound.ordered.isUserAddress_iff va).2 huser) hm hmf).1
  · exact .inl (base_console h.sound.ordered)

theorem exists_private (h : k.Valid ∅) :
    ∃ tables, k.tableFrames = .ok tables ∧ k.Private tables := by
  obtain ⟨tables, heq, -, htables⟩ := h.tableFrames_eq
  have hl := h.sound.ordered
  refine ⟨tables, heq, fun pid va m hva hm hw hu => ?_, fun pid va m hva hm hcount => ?_,
    fun pid va bytes f => ?_⟩
  · obtain ⟨-, s, hs, -, hpage⟩ := h.of_lookup hm
    have hvalue := va.toNat_page
    rcases h.user_cases hs (by omega) hpage hu with ⟨hn, hf⟩ | huser
    · refine .inl ⟨?_, hf ▸ base_console hl⟩
      rw [← UInt64.toNat_inj, va.page.toNat_base, hn, hl.console_eq, Nat.mul_comm]
    · exact .inr (h.owns htables hs ((hl.isUserAddress_iff va).2 huser) hpage hw)
  · obtain ⟨-, s, hs, -, hpage⟩ := h.of_lookup hm
    cases hw : m.permissions.writable with
    | false => rfl
    | true =>
      have hone := (h.owns htables hs hva hpage hw).count
      omega
  · intro hf
    obtain ⟨s, hs, hwrite⟩ := ((ends_writeUser h va bytes).mono (fun _ _ hk' => hk'.writable)
      (Fails.mono fun _ _ he => he.1.writable)).leave_of_fails f hf
    exact h.unread_of_writable htables hs hwrite

end Valid

/-- whatever operations were done, processes write nothing but the console and what is theirs -/
theorem Reachable.privacy {n : UInt64} (h : Reachable k₀ k) (hn : n.toNat ≤ 2 ^ 48)
    (h₀ : StartedOn n k₀) : ∃ tables, k.tableFrames = .ok tables ∧ k.Private tables :=
  (h.valid hn h₀).exists_private

theorem privacy_running : ∃ k₀ k : Kernel, StartedOn 0x200000 k₀ ∧ k.processes.Runs 1 ∧
    ∃ tables, k.tableFrames = .ok tables ∧ k.Private tables := by
  obtain ⟨k₀, k, h₀, h, -, hruns, -⟩ :=
    StartedOn.exists_running {} { layout := .withPhysical 0x200000 } rfl
  exact ⟨k₀, k, h₀, hruns, h.privacy (by decide) h₀⟩

end Kernel

end PagedKernel
