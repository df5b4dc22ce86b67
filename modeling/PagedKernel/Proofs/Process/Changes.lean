import PagedKernel.Proofs.Paging.Map
import PagedKernel.Proofs.Paging.Preorder
import PagedKernel.Proofs.Process.Sound

/-!
# Changes that keep memory sound

* `Sound.update`    frames that are no tables change, and references come and go
* `Sound.rebuild`   the tree of one process changes
* `Sound.mapped`    a page of a process is mapped to a frame that is owed, or was there before
* `Sound.adopt`     an empty tree becomes that of a process
* `Sound.disown`    a process is given up: what it holds is owed
* `Keeps`           what a change does not touch: the trees and the memory of other processes
-/

namespace PagedKernel

namespace Sound

variable {l : Layout} {kr : Frame} {procs : Finset Frame} {owed owed' : List Frame}
  {mem mem' : Memory} {r r' f g : Frame} {n n' : Nat} {p p' : Permissions}

/-! ## frames that are no tables -/

/-- tables keep their contents; whatever is counted more or less is owed more or less -/
theorem update (h : Sound l kr procs owed mem)
    (hsize : mem'.contents.size = mem.contents.size)
    (hmanages : ∀ f, mem'.manages f = mem.manages f)
    (hdata : ∀ r ∈ insert kr procs, ∀ t, mem.IsTable r t → mem'.data t = mem.data t)
    (hcount : ∀ f, mem'.count f + owed.count f = mem.count f + owed'.count f)
    (howed : ∀ f ∈ owed', mem.manages f = true ∧ ∀ r ∈ insert kr procs, ¬ mem.IsTable r f) :
    Sound l kr procs owed' mem' := by
  have htables : ∀ r ∈ insert kr procs, ∀ t, mem.IsTable r t → mem'.count t = 1 := by
    intro r hr t ht
    have hold := (h.of_isTable hr ht).2
    have hnew : owed'.count t = 0 := by
      rw [List.count_eq_zero]
      exact fun hmem => (howed t hmem).2 r hr ht
    have := hcount t
    rw [h.forest.counted r hr t ht] at this
    omega
  have hpage : ∀ r ∈ insert kr procs, ∀ n, mem'.pageAt r n = mem.pageAt r n :=
    fun r hr n => Memory.pageAt_congr (hdata r hr) n
  have hframe : ∀ r ∈ procs, ∀ n, mem'.frameAt r n = mem.frameAt r n := by
    intro r hr n
    rw [Memory.frameAt, Memory.frameAt, hpage r (root_mem hr)]
  refine ⟨h.ordered, h.forest.congr hsize hdata htables, h.kernel, hsize.trans h.size, ?_, ?_, ?_,
    ?_, ?_, ?_, ?_, ?_⟩
  · intro f
    rw [hmanages]
    exact h.managed f
  · intro f hf
    rw [hmanages]
    by_cases hold : mem.count f = 0
    · have hmem : f ∈ owed' := by
        rw [← List.count_pos_iff]
        have := hcount f
        have := h.accounts f
        omega
      exact (howed f hmem).1
    · exact h.reserved f hold
  · intro f
    have hholders := Memory.holders_congr (l := l) (fun r hr n _ _ => hframe r hr n) f
    have htable := Memory.tableCount_congr (f := f)
      fun r hr => Memory.isTable_congr (hdata r hr)
    rw [hholders, htable]
    have := hcount f
    have := h.accounts f
    omega
  · intro n hn
    rw [hpage kr kernel_mem]
    exact h.kernelPages n hn
  · intro r hr n hn x hx
    rw [hpage r (root_mem hr)] at hx
    exact h.low r hr n hn x hx
  · intro r hr n h₁ h₂
    rw [hpage r (root_mem hr)]
    exact h.high r hr n h₁ h₂
  · intro r hr n f p h₁ h₂ hx
    rw [hpage r (root_mem hr)] at hx
    exact h.perms r hr n f p h₁ h₂ hx
  · intro r hr r' hr' n n' f p p' h₁ h₂ h₁' h₂' hx hx'
    rw [hpage r (root_mem hr)] at hx
    rw [hpage r' (root_mem hr')] at hx'
    exact h.shared r hr r' hr' n n' f p p' h₁ h₂ h₁' h₂' hx hx'

/-! ## the tree of one process -/

/-- the pages of the other spaces stay while one tree grows -/
theorem pageAt_grown (h : Sound l kr procs owed mem)
    (hgrown : Grown (insert kr procs) r mem mem') (hr : r ∈ procs) (hr' : r' ∈ insert kr procs)
    (hne : r' ≠ r) (n : Nat) : mem'.pageAt r' n = mem.pageAt r' n :=
  hgrown.pageAt_other h.forest (root_mem hr) hr' hne n

theorem isTable_grown (h : Sound l kr procs owed mem)
    (hgrown : Grown (insert kr procs) r mem mem') (hr : r ∈ procs) (hr' : r' ∈ insert kr procs)
    (hne : r' ≠ r) : mem'.IsTable r' f ↔ mem.IsTable r' f :=
  Memory.isTable_congr fun _ ht => hgrown.data_of_isTable h.forest (root_mem hr) hr' hne ht

/-- the tree of a process has changed; `owed'` makes up for the pages that are mapped otherwise -/
theorem accounts_grown (h : Sound l kr procs owed mem) (hr : r ∈ procs)
    (hgrown : Grown (insert kr procs) r mem mem')
    (used : ∀ f, mem.count f ≠ 0 →
      (mem'.holders l procs f).card + owed'.count f = (mem.holders l procs f).card + owed.count f)
    (free : ∀ f, mem.count f = 0 → (mem'.holders l procs f).card + owed'.count f = 0) (f : Frame) :
    mem'.count f
      = mem'.tableCount (insert kr procs) f + (mem'.holders l procs f).card + owed'.count f := by
  have haccounts := h.accounts f
  by_cases hnew : mem'.IsTable r f → mem.IsTable r f
  · have htable : mem'.tableCount (insert kr procs) f = mem.tableCount (insert kr procs) f := by
      apply Memory.tableCount_congr
      intro r' hr'
      by_cases hne : r' = r
      · subst hne
        exact ⟨hnew, hgrown.table f⟩
      · exact h.isTable_grown hgrown hr hr' hne
    rw [hgrown.count f hnew, htable]
    by_cases hzero : mem.count f = 0
    · have := free f hzero
      omega
    · have := used f hzero
      omega
  · -- a new table was a free frame
    rw [Classical.not_imp] at hnew
    have hzero := (hgrown.fresh f hnew.1 hnew.2).1
    have := free f hzero
    rw [hgrown.forest.counted r (root_mem hr) f hnew.1,
      Memory.tableCount_eq_one (root_mem hr) hnew.1]
    omega

/-- the tree of a process has changed, and what it maps is in order -/
theorem rebuild (h : Sound l kr procs owed mem) (hr : r ∈ procs)
    (hgrown : Grown (insert kr procs) r mem mem')
    (low : ∀ n < l.firstPage, ∀ x, mem'.pageAt r n = some x → l.kernelPage n = some x)
    (high : ∀ n, l.endPage ≤ n → n < 2 ^ 36 → mem'.pageAt r n = none)
    (perms : ∀ n f p, l.firstPage ≤ n → n < l.endPage → mem'.pageAt r n = some (f, p) →
      p = .userReadWrite ∨ p = .userReadOnly)
    (shared : ∀ r' ∈ procs, ∀ n n' f p p', l.firstPage ≤ n → n < l.endPage →
      l.firstPage ≤ n' → n' < l.endPage → mem'.pageAt r n = some (f, p) →
      mem'.pageAt r' n' = some (f, p') →
        n = n' ∧ (r = r' ∨ p.writable = false ∧ p'.writable = false))
    (used : ∀ f, mem.count f ≠ 0 →
      (mem'.holders l procs f).card + owed'.count f = (mem.holders l procs f).card + owed.count f)
    (free : ∀ f, mem.count f = 0 → (mem'.holders l procs f).card + owed'.count f = 0) :
    Sound l kr procs owed' mem' := by
  have hpage : ∀ r' ∈ insert kr procs, r' ≠ r → ∀ n, mem'.pageAt r' n = mem.pageAt r' n :=
    fun r' hr' hne n => h.pageAt_grown hgrown hr hr' hne n
  have hkernel : kr ≠ r := by
    rintro rfl
    exact h.kernel hr
  refine ⟨h.ordered, hgrown.forest, h.kernel, hgrown.size.trans h.size, ?_,
    fun f hf => hgrown.manages_of_count h.reserved hf, h.accounts_grown hr hgrown used free, ?_, ?_,
    ?_, ?_, ?_⟩
  · intro f
    rw [hgrown.manages]
    exact h.managed f
  · intro n hn
    rw [hpage kr kernel_mem hkernel]
    exact h.kernelPages n hn
  · intro r' hr' n hn x hx
    by_cases hne : r' = r
    · subst hne
      exact low n hn x hx
    · rw [hpage r' (root_mem hr') hne] at hx
      exact h.low r' hr' n hn x hx
  · intro r' hr' n h₁ h₂
    by_cases hne : r' = r
    · subst hne
      exact high n h₁ h₂
    · rw [hpage r' (root_mem hr') hne]
      exact h.high r' hr' n h₁ h₂
  · intro r' hr' n f p h₁ h₂ hx
    by_cases hne : r' = r
    · subst hne
      exact perms n f p h₁ h₂ hx
    · rw [hpage r' (root_mem hr') hne] at hx
      exact h.perms r' hr' n f p h₁ h₂ hx
  · intro r₁ hr₁ r₂ hr₂ n n' f p p' h₁ h₂ h₁' h₂' hx hx'
    by_cases hne : r₁ = r
    · subst hne
      obtain ⟨hn, hor⟩ := shared r₂ hr₂ n n' f p p' h₁ h₂ h₁' h₂' hx hx'
      exact ⟨hn, hor.imp_right And.left⟩
    · by_cases hne' : r₂ = r
      · subst hne'
        obtain ⟨hn, hor⟩ := shared r₁ hr₁ n' n f p' p h₁' h₂' h₁ h₂ hx' hx
        exact ⟨hn.symm, hor.imp Eq.symm And.right⟩
      · rw [hpage r₁ (root_mem hr₁) hne] at hx
        rw [hpage r₂ (root_mem hr₂) hne'] at hx'
        exact h.shared r₁ hr₁ r₂ hr₂ n n' f p p' h₁ h₂ h₁' h₂' hx hx'

/-- both pages that map one frame cannot be written -/
theorem shared_both (h : Sound l kr procs owed mem) (hr : r ∈ procs) (hr' : r' ∈ procs)
    (h₁ : l.firstPage ≤ n) (h₂ : n < l.endPage) (h₁' : l.firstPage ≤ n') (h₂' : n' < l.endPage)
    (hx : mem.pageAt r n = some (f, p)) (hx' : mem.pageAt r' n' = some (f, p')) :
    n = n' ∧ (r = r' ∨ p.writable = false ∧ p'.writable = false) := by
  obtain ⟨hn, hor⟩ := h.shared r hr r' hr' n n' f p p' h₁ h₂ h₁' h₂' hx hx'
  obtain ⟨-, hor'⟩ := h.shared r' hr' r hr n' n f p' p h₁' h₂' h₁ h₂ hx' hx
  refine ⟨hn, ?_⟩
  rcases hor with hsame | hro
  · exact .inl hsame
  · rcases hor' with hsame | hro'
    · exact .inl hsame.symm
    · exact .inr ⟨hro, hro'⟩

theorem rebuild_low (h : Sound l kr procs owed mem) (hr : r ∈ procs)
    (hgrown : Grown (insert kr procs) r mem mem')
    (low : ∀ n < l.firstPage, ∀ x, mem'.pageAt r n = some x → l.kernelPage n = some x)
    (same : ∀ n, l.firstPage ≤ n → n < 2 ^ 36 → mem'.pageAt r n = mem.pageAt r n) :
    Sound l kr procs owed mem' := by
  have hend := h.ordered.endPage_le
  have hpage : ∀ r' ∈ procs, ∀ n, l.firstPage ≤ n → n < l.endPage →
      mem'.pageAt r' n = mem.pageAt r' n := by
    intro r' hr' n h₁ h₂
    by_cases hne : r' = r
    · subst hne
      exact same n h₁ (by omega)
    · exact h.pageAt_grown hgrown hr (root_mem hr') hne n
  have hholders : ∀ f, mem'.holders l procs f = mem.holders l procs f := by
    refine Memory.holders_congr fun r' hr' n h₁ h₂ => ?_
    rw [Memory.frameAt, Memory.frameAt, hpage r' hr' n h₁ h₂]
  refine h.rebuild hr hgrown low ?_ ?_ ?_ ?_ ?_
  · intro n h₁ h₂
    have hfirst := h.ordered.firstPage_lt
    rw [same n (by omega) h₂]
    exact h.high r hr n h₁ h₂
  · intro n f p h₁ h₂ hx
    rw [hpage r hr n h₁ h₂] at hx
    exact h.perms r hr n f p h₁ h₂ hx
  · intro r' hr' n n' f p p' h₁ h₂ h₁' h₂' hx hx'
    rw [hpage r hr n h₁ h₂] at hx
    rw [hpage r' hr' n' h₁' h₂'] at hx'
    exact h.shared_both hr hr' h₁ h₂ h₁' h₂' hx hx'
  · intro f _
    rw [hholders]
  · intro f hf
    have := h.accounts f
    rw [hholders]
    omega

theorem grown (h : Sound l kr procs owed mem) (hr : r ∈ procs)
    (hgrown : Grown (insert kr procs) r mem mem')
    (hpages : ∀ n, mem'.pageAt r n = mem.pageAt r n) : Sound l kr procs owed mem' := by
  refine h.rebuild_low hr hgrown (fun n hn x hx => ?_) fun n _ _ => hpages n
  rw [hpages] at hx
  exact h.low r hr n hn x hx

theorem mapped_low (h : Sound l kr procs owed mem) (hr : r ∈ procs) (hn : n < l.firstPage)
    {x : Frame × Permissions} (hx : l.kernelPage n = some x)
    (hmap : AddressSpace.Mapped (insert kr procs) r n (some x) mem mem') :
    Sound l kr procs owed mem' := by
  have hfirst := h.ordered.firstPage_lt
  have hend := h.ordered.endPage_le
  have hpage : ∀ k < 2 ^ 36, mem'.pageAt r k = if k = n then some x else mem.pageAt r k :=
    fun k hk => hmap.page_of_lt (by omega) hk
  refine h.rebuild_low hr hmap.grown (fun k hk y hy => ?_) fun k h₁ h₂ => ?_
  · rw [hpage k (by omega)] at hy
    split at hy
    · next hkn =>
      obtain rfl := Option.some.inj hy
      rw [hkn]
      exact hx
    · exact h.low r hr k hk y hy
  · rw [hpage k h₂, if_neg (by omega)]

theorem frameAt_mapped (h : Sound l kr procs owed mem) (hr : r ∈ procs) (h₂ : n < l.endPage)
    (hmap : AddressSpace.Mapped (insert kr procs) r n (some (f, p)) mem mem') (hr' : r' ∈ procs)
    (h₂' : n' < l.endPage) :
    mem'.frameAt r' n' = if r' = r ∧ n' = n then some f else mem.frameAt r' n' := by
  have hend := h.ordered.endPage_le
  unfold Memory.frameAt
  by_cases hne : r' = r
  · subst hne
    rw [hmap.page_of_lt (by omega) (by omega)]
    by_cases hn : n' = n
    · rw [if_pos hn, if_pos ⟨rfl, hn⟩, Option.map_some]
    · rw [if_neg hn, if_neg fun hyes => hn hyes.2]
  · rw [if_neg fun hyes => hne hyes.1, h.pageAt_grown hmap.grown hr (root_mem hr') hne]

/-- the holders of a frame after page `n` was mapped to `f` -/
theorem holders_mapped (h : Sound l kr procs owed mem) (hr : r ∈ procs) (h₁ : l.firstPage ≤ n)
    (h₂ : n < l.endPage)
    (hmap : AddressSpace.Mapped (insert kr procs) r n (some (f, p)) mem mem') (g : Frame) :
    mem'.holders l procs g
      = if g = f then insert (r, n) (mem.holders l procs g)
        else (mem.holders l procs g).erase (r, n) := by
  have hframe : ∀ r' ∈ procs, ∀ k < l.endPage, mem'.frameAt r' k
      = if r' = r ∧ k = n then some f else mem.frameAt r' k :=
    fun r' hr' k hk => h.frameAt_mapped hr h₂ hmap hr' hk
  ext ⟨r', k⟩
  rw [Memory.mem_holders]
  by_cases hg : g = f
  · subst hg
    rw [if_pos rfl, Finset.mem_insert, Memory.mem_holders, Prod.mk.injEq]
    constructor
    · rintro ⟨hr', hk, hfr⟩
      rw [hframe r' hr' k hk.2] at hfr
      split at hfr
      · next hsame => exact .inl hsame
      · exact .inr ⟨hr', hk, hfr⟩
    · rintro (⟨rfl, rfl⟩ | ⟨hr', hk, hfr⟩)
      · refine ⟨hr, ⟨h₁, h₂⟩, ?_⟩
        rw [hframe r' hr k h₂, if_pos ⟨rfl, rfl⟩]
      · refine ⟨hr', hk, ?_⟩
        rw [hframe r' hr' k hk.2]
        split
        · rfl
        · exact hfr
  · rw [if_neg hg, Finset.mem_erase, Memory.mem_holders, ne_eq, Prod.mk.injEq]
    constructor
    · rintro ⟨hr', hk, hfr⟩
      rw [hframe r' hr' k hk.2] at hfr
      split at hfr
      · exact absurd (Option.some.inj hfr).symm hg
      · next hne => exact ⟨hne, hr', hk, hfr⟩
    · rintro ⟨hne, hr', hk, hfr⟩
      refine ⟨hr', hk, ?_⟩
      rw [hframe r' hr' k hk.2, if_neg hne]
      exact hfr

/-- page `n` now holds `f`, and no longer what it held -/
theorem card_holders_mapped (h : Sound l kr procs owed mem) (hr : r ∈ procs)
    (h₁ : l.firstPage ≤ n) (h₂ : n < l.endPage)
    (hmap : AddressSpace.Mapped (insert kr procs) r n (some (f, p)) mem mem') (g : Frame) :
    (mem'.holders l procs g).card + (if mem.frameAt r n = some g then 1 else 0)
      = (mem.holders l procs g).card + if g = f then 1 else 0 := by
  have hmem : (r, n) ∈ mem.holders l procs g ↔ mem.frameAt r n = some g := by
    rw [Memory.mem_holders]
    exact ⟨fun hx => hx.2.2, fun hx => ⟨hr, ⟨h₁, h₂⟩, hx⟩⟩
  rw [h.holders_mapped hr h₁ h₂ hmap]
  by_cases hin : mem.frameAt r n = some g
  · have hpos := Finset.card_pos.2 ⟨_, hmem.2 hin⟩
    rw [if_pos hin]
    by_cases hg : g = f
    · rw [if_pos hg, if_pos hg, Finset.insert_eq_of_mem (hmem.2 hin)]
    · rw [if_neg hg, if_neg hg, Finset.card_erase_of_mem (hmem.2 hin)]
      omega
  · have hnot : (r, n) ∉ mem.holders l procs g := fun hyes => hin (hmem.1 hyes)
    rw [if_neg hin]
    by_cases hg : g = f
    · rw [if_pos hg, if_pos hg, Finset.card_insert_of_notMem hnot]
    · rw [if_neg hg, if_neg hg, Finset.erase_eq_of_notMem hnot]

/-- whoever maps `f` already does so at the same place, and cannot write -/
theorem shared_mapped (h : Sound l kr procs owed mem) (hr : r ∈ procs)
    (hmap : AddressSpace.Mapped (insert kr procs) r n (some (f, p)) mem mem') (h₂ : n < l.endPage)
    (hfit : ∀ r' ∈ procs, ∀ n' p', l.firstPage ≤ n' → n' < l.endPage →
      mem.pageAt r' n' = some (f, p') →
        r' = r ∧ n' = n ∨ n' = n ∧ p'.writable = false ∧ p.writable = false)
    (hr' : r' ∈ procs) {k k' : Nat} {q q' : Permissions} (hk : l.firstPage ≤ k)
    (hk₂ : k < l.endPage) (hk' : l.firstPage ≤ k') (hk₂' : k' < l.endPage)
    (hx : mem'.pageAt r k = some (g, q)) (hx' : mem'.pageAt r' k' = some (g, q')) :
    k = k' ∧ (r = r' ∨ q.writable = false ∧ q'.writable = false) := by
  have hend := h.ordered.endPage_le
  have hother : mem.pageAt r' k' = some (g, q') ∨ r' = r ∧ k' = n ∧ g = f := by
    by_cases hne : r' = r
    · subst hne
      rw [hmap.page_of_lt (by omega) (by omega)] at hx'
      split at hx'
      · next hkn => exact .inr ⟨rfl, hkn, (Prod.mk.inj (Option.some.inj hx')).1.symm⟩
      · exact .inl hx'
    · rw [h.pageAt_grown hmap.grown hr (root_mem hr') hne] at hx'
      exact .inl hx'
  rw [hmap.page_of_lt (by omega) (by omega)] at hx
  split at hx
  · next hkn =>
    obtain ⟨rfl, rfl⟩ := Prod.mk.inj (Option.some.inj hx)
    rcases hother with hold | ⟨rfl, hkn', -⟩
    · rcases hfit r' hr' k' q' hk' hk₂' hold with ⟨rfl, hkn'⟩ | ⟨hkn', hro', hro⟩
      · exact ⟨hkn.trans hkn'.symm, .inl rfl⟩
      · exact ⟨hkn.trans hkn'.symm, .inr ⟨hro, hro'⟩⟩
    · exact ⟨hkn.trans hkn'.symm, .inl rfl⟩
  · next hkn =>
    rcases hother with hold | ⟨rfl, hkn', rfl⟩
    · exact h.shared_both hr hr' hk hk₂ hk' hk₂' hx hold
    · rcases hfit r' hr k q hk hk₂ hx with ⟨-, hbad⟩ | ⟨hbad, -⟩ <;> exact absurd hbad hkn

/-- a page of a process is mapped to `f`.  Whoever maps `f` already does so at the same place and
without writing; `owed'` gives up the reference for the page and takes the one that it had. -/
theorem mapped (h : Sound l kr procs owed mem) (hr : r ∈ procs) (h₁ : l.firstPage ≤ n)
    (h₂ : n < l.endPage)
    (hmap : AddressSpace.Mapped (insert kr procs) r n (some (f, p)) mem mem')
    (hp : p = .userReadWrite ∨ p = .userReadOnly) (hf : mem.count f ≠ 0)
    (hfit : ∀ r' ∈ procs, ∀ n' p', l.firstPage ≤ n' → n' < l.endPage →
      mem.pageAt r' n' = some (f, p') →
        r' = r ∧ n' = n ∨ n' = n ∧ p'.writable = false ∧ p.writable = false)
    (howed : ∀ g, owed'.count g + (if g = f then 1 else 0)
      = owed.count g + (if mem.frameAt r n = some g then 1 else 0)) :
    Sound l kr procs owed' mem' := by
  have hend := h.ordered.endPage_le
  have hpage : ∀ k < 2 ^ 36, mem'.pageAt r k = if k = n then some (f, p) else mem.pageAt r k :=
    fun k hk => hmap.page_of_lt (by omega) hk
  have hcard := fun g => h.card_holders_mapped hr h₁ h₂ hmap g
  refine h.rebuild hr hmap.grown ?_ ?_ ?_ ?_ ?_ ?_
  · intro k hk x hx
    rw [hpage k (by omega), if_neg (by omega)] at hx
    exact h.low r hr k hk x hx
  · intro k hk hk'
    rw [hpage k hk', if_neg (by omega)]
    exact h.high r hr k hk hk'
  · intro k g q hk hk' hx
    rw [hpage k (by omega)] at hx
    split at hx
    · obtain ⟨rfl, rfl⟩ := Prod.mk.inj (Option.some.inj hx)
      exact hp
    · exact h.perms r hr k g q hk hk' hx
  · intro r' hr' k k' g q q' hk hk₂ hk' hk₂' hx hx'
    exact h.shared_mapped hr hmap h₂ hfit hr' hk hk₂ hk' hk₂' hx hx'
  · intro g _
    have := hcard g
    have := howed g
    omega
  · intro g hzero
    have hgf : g ≠ f := by
      rintro rfl
      exact hf hzero
    have haccounts := h.accounts g
    have hg := hcard g
    have hg' := howed g
    rw [if_neg hgf] at hg hg'
    omega

/-! ## processes come and go -/

theorem holders_insert_of_none (hnone : ∀ n, mem.pageAt r n = none) (f : Frame) :
    mem.holders l (insert r procs) f = mem.holders l procs f := by
  ext ⟨r', n⟩
  rw [Memory.mem_holders, Memory.mem_holders, Finset.mem_insert]
  constructor
  · rintro ⟨rfl | hr', hn, hf⟩
    · rw [Memory.frameAt, hnone] at hf
      cases hf
    · exact ⟨hr', hn, hf⟩
  · rintro ⟨hr', hn, hf⟩
    exact ⟨.inr hr', hn, hf⟩

/-- the reference to the root of an empty tree is no longer owed -/
theorem accounts_adopt (h : Sound l kr procs (r :: owed) mem)
    (hempty : ∀ i, mem.entryAt r i = .empty) (hnot : ∀ r' ∈ insert kr procs, ¬ mem.IsTable r' r)
    (f : Frame) : mem.count f = mem.tableCount (insert kr (insert r procs)) f
      + (mem.holders l (insert r procs) f).card + owed.count f := by
  have haccounts := h.accounts f
  have hself := Memory.isTable_of_empty (f := f) hempty
  have htable : mem.tableCount (insert kr (insert r procs)) f
      = mem.tableCount (insert kr procs) f + mem.tableCount {r} f := by
    rw [Finset.insert_comm]
    exact Memory.tableCount_insert fun ht => hself.1 ht ▸ hnot
  rw [holders_insert_of_none (Memory.pageAt_of_empty hempty), htable]
  by_cases hf : f = r
  · rw [Memory.tableCount_eq_one (Finset.mem_singleton_self r) (hself.2 hf)]
    rw [hf, List.count_cons_self] at haccounts
    rw [hf]
    omega
  · have hnone : mem.tableCount {r} f = 0 :=
      Memory.tableCount_eq_zero fun r' hr' ht => hf (hself.1 (Finset.mem_singleton.1 hr' ▸ ht))
    rw [List.count_cons_of_ne (Ne.symm hf)] at haccounts
    rw [hnone]
    exact haccounts

theorem adopt (h : Sound l kr procs (r :: owed) mem) (hone : mem.count r = 1)
    (hempty : ∀ i, mem.entryAt r i = .empty) :
    r ∉ procs ∧ Sound l kr (insert r procs) owed mem ∧ ∀ n, mem.pageAt r n = none := by
  obtain ⟨-, hmanages, hnot⟩ := h.of_owed List.mem_cons_self
  have hnone := fun n => Memory.pageAt_of_empty hempty n
  have hr : r ∉ insert kr procs := fun hr => hnot r hr Memory.isTable_root
  have hprocs : r ∉ procs := fun hyes => hr (Finset.mem_insert_of_mem hyes)
  have hkr : kr ≠ r := by
    rintro rfl
    exact hr (Finset.mem_insert_self kr procs)
  have hroot := Forest.of_empty hempty h.forest.size_le (Memory.hasFrame_of_manages hmanages) hone
  have hforest : Forest mem (insert kr (insert r procs)) := by
    rw [Finset.insert_comm]
    refine h.forest.insert hroot fun r' hr' t ht => ?_
    rw [(Memory.isTable_of_empty hempty).1 ht]
    exact hnot r' hr'
  have hnew : ∀ r' ∈ insert r procs, r' = r ∨ r' ∈ procs := fun r' hr' => Finset.mem_insert.1 hr'
  refine ⟨hprocs, ⟨h.ordered, hforest, ?_, h.size, h.managed, h.reserved,
    h.accounts_adopt hempty hnot, h.kernelPages, ?_, ?_, ?_, ?_⟩, hnone⟩
  · rw [Finset.mem_insert, not_or]
    exact ⟨hkr, h.kernel⟩
  · intro r' hr' n hn x hx
    rcases hnew r' hr' with rfl | hr'
    · rw [hnone] at hx
      cases hx
    · exact h.low r' hr' n hn x hx
  · intro r' hr' n h₁ h₂
    rcases hnew r' hr' with rfl | hr'
    · exact hnone n
    · exact h.high r' hr' n h₁ h₂
  · intro r' hr' n f p h₁ h₂ hx
    rcases hnew r' hr' with rfl | hr'
    · rw [hnone] at hx
      cases hx
    · exact h.perms r' hr' n f p h₁ h₂ hx
  · intro r₁ hr₁ r₂ hr₂ n n' f p p' h₁ h₂ h₁' h₂' hx hx'
    rcases hnew r₁ hr₁ with rfl | hr₁
    · rw [hnone] at hx
      cases hx
    · rcases hnew r₂ hr₂ with rfl | hr₂
      · rw [hnone] at hx'
        cases hx'
      · exact h.shared r₁ hr₁ r₂ hr₂ n n' f p p' h₁ h₂ h₁' h₂' hx hx'

end Sound

/-- the frames that the pages of a process map, from page `n` on -/
def Memory.userFrames (mem : Memory) (root : Frame) (n count : Nat) : List Frame :=
  (List.range' n count).filterMap (mem.frameAt root)

/-- the holders of one process more -/
theorem Memory.card_holders_add {mem : Memory} {l : Layout} {procs : Finset Frame} {r : Frame}
    (hr : r ∉ procs) (f : Frame) :
    (mem.holders l (insert r procs) f).card
      = (mem.holders l procs f).card + (mem.holders l {r} f).card := by
  have hsplit : mem.holders l (insert r procs) f
      = mem.holders l procs f ∪ mem.holders l {r} f := by
    ext ⟨r', n⟩
    rw [Finset.mem_union, mem_holders, mem_holders, mem_holders, Finset.mem_insert,
      Finset.mem_singleton]
    tauto
  have hdisjoint : Disjoint (mem.holders l procs f) (mem.holders l {r} f) := by
    rw [Finset.disjoint_left]
    rintro ⟨r', n⟩ h h'
    obtain ⟨hin, -⟩ := mem_holders.1 h
    obtain ⟨hin', -⟩ := mem_holders.1 h'
    obtain rfl := Finset.mem_singleton.1 hin'
    exact hr hin
  rw [hsplit, Finset.card_union_of_disjoint hdisjoint]

theorem Memory.card_holders_insert {mem : Memory} {l : Layout} {procs : Finset Frame} {r : Frame}
    (hr : r ∉ procs) (f : Frame) :
    (mem.holders l (insert r procs) f).card = (mem.holders l procs f).card
      + (mem.userFrames r l.firstPage (l.endPage - l.firstPage)).count f := by
  have hone : (mem.holders l {r} f).card
      = ((Finset.Ico l.firstPage l.endPage).filter fun n => mem.frameAt r n = some f).card := by
    refine Finset.card_bij (fun x _ => x.2) ?_ ?_ ?_
    · rintro ⟨r', n⟩ h
      obtain ⟨hr', hn, hf⟩ := mem_holders.1 h
      obtain rfl := Finset.mem_singleton.1 hr'
      exact Finset.mem_filter.2 ⟨Finset.mem_Ico.2 hn, hf⟩
    · rintro ⟨r₁, n⟩ h₁ ⟨r₂, n'⟩ h₂ rfl
      obtain rfl := Finset.mem_singleton.1 (mem_holders.1 h₁).1
      obtain rfl := Finset.mem_singleton.1 (mem_holders.1 h₂).1
      rfl
    · intro n hn
      obtain ⟨hn, hf⟩ := Finset.mem_filter.1 hn
      exact ⟨(r, n), mem_holders.2 ⟨Finset.mem_singleton_self r, Finset.mem_Ico.1 hn, hf⟩, rfl⟩
  have hlist : ((Finset.Ico l.firstPage l.endPage).filter fun n => mem.frameAt r n = some f).card
      = (mem.userFrames r l.firstPage (l.endPage - l.firstPage)).count f := by
    rw [userFrames, List.count, List.countP_filterMap, Finset.card_def, Finset.filter_val,
      Nat.Ico_eq_range', Multiset.filter_coe, Multiset.coe_card, ← List.countP_eq_length_filter]
    congr 1
    funext n
    cases mem.frameAt r n with
    | none => simp
    | some g =>
      rw [Option.map_some, Option.getD_some, Bool.eq_iff_iff, decide_eq_true_iff, beq_iff_eq,
        Option.some_inj]
  rw [card_holders_add hr, hone, hlist]

/-- the tables of a tree, the root last -/
def Memory.treeFrames (mem : Memory) (root : Frame) : List Frame :=
  (mem.preorder Level.pml4.lower .pml4 0 root).map TableFrame.frame ++ [root]

theorem Forest.count_treeFrames {mem : Memory} {roots : Finset Frame} {root : Frame}
    (h : Forest mem roots) (hroot : root ∈ roots) (f : Frame) :
    (mem.treeFrames root).count f = mem.tableCount {root} f := by
  have hmem := h.mem_preorder_iff hroot f
  have hnodup : (mem.treeFrames root).Nodup := by
    rw [Memory.treeFrames, List.nodup_append]
    refine ⟨h.nodup_preorder hroot, List.nodup_singleton root, fun g hg g' hg' => ?_⟩
    obtain rfl := List.mem_singleton.1 hg'
    exact ((h.mem_preorder_iff hroot g).1 hg).2
  by_cases ht : mem.IsTable root f
  · rw [Memory.tableCount_eq_one (Finset.mem_singleton_self root) ht]
    refine List.count_eq_one_of_mem hnodup ?_
    rw [Memory.treeFrames, List.mem_append, hmem, List.mem_singleton]
    by_cases hf : f = root
    · exact .inr hf
    · exact .inl ⟨ht, hf⟩
  · rw [Memory.tableCount_eq_zero, List.count_eq_zero]
    · rw [Memory.treeFrames, List.mem_append, hmem, List.mem_singleton]
      rintro (⟨hyes, -⟩ | rfl)
      · exact ht hyes
      · exact ht Memory.isTable_root
    · intro r hr
      obtain rfl := Finset.mem_singleton.1 hr
      exact ht

/-- a process is given up: what its pages and its tables hold is owed -/
theorem Sound.disown {l : Layout} {kr r : Frame} {procs : Finset Frame} {owed : List Frame}
    {mem : Memory} (h : Sound l kr (insert r procs) owed mem) (hr : r ∉ procs) :
    Sound l kr procs
      (mem.userFrames r l.firstPage (l.endPage - l.firstPage) ++ mem.treeFrames r ++ owed) mem := by
  have hin : ∀ r' ∈ procs, r' ∈ insert r procs := fun r' hr' => Finset.mem_insert_of_mem hr'
  have hsub : insert kr procs ⊆ insert kr (insert r procs) :=
    Finset.insert_subset_insert kr (Finset.subset_insert r procs)
  have hroot : r ∈ insert kr (insert r procs) :=
    Finset.mem_insert_of_mem (Finset.mem_insert_self r procs)
  have hkernel : kr ∉ insert r procs := h.kernel
  rw [Finset.mem_insert, not_or] at hkernel
  have hnew : r ∉ insert kr procs := by
    rw [Finset.mem_insert, not_or]
    exact ⟨fun he => hkernel.1 he.symm, hr⟩
  have htable : ∀ f, mem.tableCount (insert kr (insert r procs)) f
      = mem.tableCount (insert kr procs) f + mem.tableCount {r} f := by
    intro f
    rw [Finset.insert_comm]
    refine Memory.tableCount_insert fun ht r' hr' ht' => hnew ?_
    rw [h.forest.root_eq hroot (hsub hr') ht ht']
    exact hr'
  refine ⟨h.ordered, h.forest.subset hsub, hkernel.2, h.size, h.managed, h.reserved, ?_,
    h.kernelPages, fun r' hr' => h.low r' (hin r' hr'), fun r' hr' => h.high r' (hin r' hr'),
    fun r' hr' => h.perms r' (hin r' hr'),
    fun r₁ hr₁ r₂ hr₂ => h.shared r₁ (hin r₁ hr₁) r₂ (hin r₂ hr₂)⟩
  intro f
  rw [h.accounts f, htable, Memory.card_holders_insert hr, List.count_append, List.count_append,
    h.forest.count_treeFrames hroot]
  omega

end PagedKernel
