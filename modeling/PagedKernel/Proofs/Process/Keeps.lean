import PagedKernel.Proofs.Paging.UserMemory
import PagedKernel.Proofs.Process.Changes

/-!
# What is left alone

* `Keeps l kr others mem mem'`   the trees of `others`, the kernel's own, and the memory that
  `others` map hold what they held
* `Keeps.trans`                  one change after another
* `Keeps.of_held`                only frames change that nobody holds
* `Keeps.of_changes`             only frames of one process change that no other maps
* `KeepsReserved l mem mem'`     frames that are never handed out hold what they held
* `Sound.touched`                frames are written that are no tables
* `Complete l r mem`             a process has the kernel's part and a stack, as all have
-/

namespace PagedKernel

/-- the trees of `others` and what they map are what they were, and so is the kernel's tree -/
structure Keeps (l : Layout) (kr : Frame) (others : Finset Frame) (mem mem' : Memory) : Prop where
  tables : ∀ r ∈ insert kr others, ∀ t, mem.IsTable r t → mem'.data t = mem.data t
  pages : ∀ r ∈ others, ∀ n f p, l.firstPage ≤ n → n < l.endPage →
    mem.pageAt r n = some (f, p) → mem'.data f = mem.data f

namespace Keeps

variable {l : Layout} {kr : Frame} {procs others fewer : Finset Frame} {owed : List Frame}
  {mem mem' mem'' : Memory} {r : Frame}

theorem of_data (h : ∀ f, mem'.data f = mem.data f) : Keeps l kr others mem mem' :=
  ⟨fun _ _ t _ => h t, fun _ _ _ f _ _ _ _ => h f⟩

theorem refl : Keeps l kr others mem mem := of_data fun _ => rfl

theorem pageAt (h : Keeps l kr others mem mem') (hr : r ∈ insert kr others) (n : Nat) :
    mem'.pageAt r n = mem.pageAt r n :=
  Memory.pageAt_congr (h.tables r hr) n

theorem trans (h : Keeps l kr others mem mem') (h' : Keeps l kr others mem' mem'') :
    Keeps l kr others mem mem'' where
  tables r hr t ht := by
    rw [h'.tables r hr t ((Memory.isTable_congr (h.tables r hr)).2 ht)]
    exact h.tables r hr t ht
  pages r hr n f p h₁ h₂ hpage := by
    have hsame := h.pageAt (Finset.mem_insert_of_mem hr) n
    rw [h'.pages r hr n f p h₁ h₂ (hsame.trans hpage)]
    exact h.pages r hr n f p h₁ h₂ hpage

theorem subset (h : Keeps l kr others mem mem') (hsub : fewer ⊆ others) :
    Keeps l kr fewer mem mem' where
  tables r hr := h.tables r (Finset.insert_subset_insert kr hsub hr)
  pages r hr := h.pages r (hsub hr)

/-- nothing changed that is counted -/
theorem of_held (h : Sound l kr procs owed mem) (hsub : others ⊆ procs)
    (hd : ∀ f, mem.count f ≠ 0 → mem'.data f = mem.data f) : Keeps l kr others mem mem' where
  tables r hr t ht := by
    apply hd
    rw [h.forest.counted r (Finset.insert_subset_insert kr hsub hr) t ht]
    exact Nat.one_ne_zero
  pages r hr n f p h₁ h₂ hpage := hd f (h.of_page (hsub hr) h₁ h₂ hpage).1

/-- of what is counted, only tables of one process changed, and frames that it alone maps -/
theorem of_changes (h : Sound l kr procs owed mem) (hsub : others ⊆ procs) (hr : r ∈ procs)
    (hnot : r ∉ others)
    (hd : ∀ f, mem.count f ≠ 0 → ¬ mem.IsTable r f →
      (∀ n p, l.firstPage ≤ n → n < l.endPage → mem.pageAt r n = some (f, p) →
        mem.count f ≠ 1) → mem'.data f = mem.data f) : Keeps l kr others mem mem' where
  tables r' hr' t ht := by
    have hr₁ := Finset.insert_subset_insert kr hsub hr'
    refine hd t ?_ (fun ht' => ?_) fun n p h₁ h₂ hpage => ?_
    · rw [h.forest.counted r' hr₁ t ht]
      exact Nat.one_ne_zero
    · obtain rfl := h.forest.root_eq hr₁ (Sound.root_mem hr) ht ht'
      rcases Finset.mem_insert.1 hr' with rfl | hr'
      · exact h.kernel hr
      · exact hnot hr'
    · exact absurd ht ((h.of_page hr h₁ h₂ hpage).2.2 r' hr₁)
  pages r' hr' n f p h₁ h₂ hpage := by
    obtain ⟨hcount, -, htable⟩ := h.of_page (hsub hr') h₁ h₂ hpage
    refine hd f hcount (htable r (Sound.root_mem hr)) fun n' p' h₁' h₂' hpage' hone => ?_
    obtain ⟨rfl, -⟩ := h.eq_of_count_one (hsub hr') hr h₁ h₂ h₁' h₂' hpage hpage' hone
    exact hnot hr'

theorem of_grown (h : Sound l kr procs owed mem) (hsub : others ⊆ procs) (hr : r ∈ procs)
    (hnot : r ∉ others) (hgrown : Grown (insert kr procs) r mem mem') :
    Keeps l kr others mem mem' :=
  of_changes h hsub hr hnot fun _ hcount htable _ => hgrown.data_of_count htable hcount

/-- all that is counted is what it was, if the trees are that there are -/
theorem data_of_count (h : Sound l kr procs [] mem) (hkeeps : Keeps l kr procs mem mem')
    {f : Frame} (hf : mem.count f ≠ 0) : mem'.data f = mem.data f := by
  by_cases ht : ∃ r ∈ insert kr procs, mem.IsTable r f
  · obtain ⟨r, hr, ht⟩ := ht
    exact hkeeps.tables r hr f ht
  · have haccounts := h.accounts f
    rw [Memory.tableCount_eq_zero fun r hr hyes => ht ⟨r, hr, hyes⟩, List.count_nil] at haccounts
    obtain ⟨⟨r, n⟩, hmem⟩ := Finset.card_pos.1 (show 0 < (mem.holders l procs f).card by omega)
    obtain ⟨hr, hn, hframe⟩ := Memory.mem_holders.1 hmem
    obtain ⟨p, hpage⟩ := Memory.pageAt_of_frameAt hframe
    exact hkeeps.pages r hr n f p hn.1 hn.2 hpage

/-- when a tree is added and all others stay, the count of a frame grows by what the new one refers
to it -/
theorem count_eq (hkeeps : Keeps l kr procs mem mem') (h : Sound l kr procs [] mem)
    (h' : Sound l kr (insert r procs) [] mem') (hr : r ∉ procs) (f : Frame) :
    mem'.count f = mem.count f + mem'.tableCount {r} f + (mem'.holders l {r} f).card := by
  have hne : r ≠ kr := by
    rintro rfl
    exact h'.kernel (Finset.mem_insert_self r procs)
  have hnew : mem'.IsTable r f → ∀ r' ∈ insert kr procs, ¬ mem'.IsTable r' f := by
    rintro ht r' hr' ht'
    have hin : insert kr procs ⊆ insert kr (insert r procs) :=
      Finset.insert_subset_insert kr (Finset.subset_insert r procs)
    obtain rfl := h'.forest.root_eq (Sound.root_mem (Finset.mem_insert_self r procs)) (hin hr') ht
      ht'
    rcases Finset.mem_insert.1 hr' with heq | hmem
    · exact hne heq
    · exact hr hmem
  have htables := Memory.tableCount_congr (f := f)
    fun r' hr' => Memory.isTable_congr (t := f) (hkeeps.tables r' hr')
  have hholders : mem'.holders l procs f = mem.holders l procs f :=
    Memory.holders_congr (fun r' hr' n _ _ => by
      rw [Memory.frameAt, Memory.frameAt, hkeeps.pageAt (Finset.mem_insert_of_mem hr')]) f
  have haccounts := h.accounts f
  have haccounts' := h'.accounts f
  rw [Finset.insert_comm, Memory.tableCount_insert hnew, htables, Memory.card_holders_add hr,
    hholders] at haccounts'
  omega

end Keeps

/-! ## what every process has -/

/-- the process of `r` maps what the kernel maps below its memory, and the last page of its memory,
which is its stack -/
structure Complete (l : Layout) (r : Frame) (mem : Memory) : Prop where
  low : ∀ n < l.firstPage, mem.pageAt r n = l.kernelPage n
  stack : mem.pageAt r (l.endPage - 1) ≠ none

namespace Complete

variable {l : Layout} {kr r : Frame} {others : Finset Frame} {mem mem' : Memory}

theorem congr (h : Complete l r mem) (hpages : ∀ n, mem'.pageAt r n = mem.pageAt r n) :
    Complete l r mem' := by
  refine ⟨fun n hn => (hpages n).trans (h.low n hn), ?_⟩
  rw [hpages]
  exact h.stack

theorem keeps (h : Complete l r mem) (hkeeps : Keeps l kr others mem mem') (hr : r ∈ others) :
    Complete l r mem' :=
  h.congr fun n => hkeeps.pageAt (Finset.mem_insert_of_mem hr) n

end Complete

/-! ## frames that are never handed out -/

/-- frames that are never handed out hold what they held -/
def KeepsReserved (l : Layout) (mem mem' : Memory) : Prop :=
  ∀ f : Frame, l.isAllocatable f.base = .ok false → mem'.data f = mem.data f

namespace KeepsReserved

variable {l : Layout} {kr r f : Frame} {procs : Finset Frame} {owed : List Frame}
  {mem mem' mem'' : Memory}

theorem of_data (h : ∀ f, mem'.data f = mem.data f) : KeepsReserved l mem mem' := fun f _ => h f

theorem refl : KeepsReserved l mem mem := of_data fun _ => rfl

theorem trans (h : KeepsReserved l mem mem') (h' : KeepsReserved l mem' mem'') :
    KeepsReserved l mem mem'' := fun f hf => (h' f hf).trans (h f hf)

theorem of_claimed (h : Claimed mem f mem') (hs : Sound l kr procs owed mem) :
    KeepsReserved l mem mem' := by
  intro g hg
  refine h.data g ?_
  rintro rfl
  have hmanaged := hs.managed g
  rw [hg, h.managed] at hmanaged
  cases hmanaged

theorem of_grown (h : Grown (insert kr procs) r mem mem') (hs : Sound l kr procs owed mem)
    (hr : r ∈ insert kr procs) : KeepsReserved l mem mem' := by
  intro g hg
  refine h.data g fun htable => ?_
  have hmanages : mem.manages g = true := by
    by_cases hold : mem.IsTable r g
    · exact hs.reserved g (by rw [hs.forest.counted r hr g hold]; exact Nat.one_ne_zero)
    · exact (h.fresh g htable hold).2
  have hmanaged := hs.managed g
  rw [hg, hmanages] at hmanaged
  cases hmanaged

end KeepsReserved

/-! ## writing into sound memory -/

namespace Sound

variable {l : Layout} {kr : Frame} {procs others : Finset Frame} {owed : List Frame}
  {mem mem' : Memory} {ok : Frame → Prop}

/-- memory stays sound when frames are written that are no tables -/
theorem touched (h : Sound l kr procs owed mem) (ht : Touched ok mem mem')
    (hok : ∀ f, ok f → ∀ r ∈ insert kr procs, ¬ mem.IsTable r f) :
    Sound l kr procs owed mem' := by
  refine h.update ht.size ht.manages (fun r hr t htable => ?_) (fun g => ?_)
    fun g hg => (h.of_owed hg).2
  · exact ht.data t fun hyes => hok t hyes r hr htable
  · rw [ht.count]

/-- the others keep what they have when frames are written that they do not map -/
theorem keeps_touched (ht : Touched ok mem mem')
    (hsub : others ⊆ procs) (hok : ∀ f, ok f → ∀ r ∈ insert kr procs, ¬ mem.IsTable r f)
    (hmap : ∀ f, ok f → ∀ r ∈ others, ∀ n p, l.firstPage ≤ n → n < l.endPage →
      mem.pageAt r n ≠ some (f, p)) : Keeps l kr others mem mem' where
  tables r hr t htable := by
    refine ht.data t fun hyes => ?_
    exact hok t hyes r (Finset.insert_subset_insert kr hsub hr) htable
  pages r hr n f p h₁ h₂ hpage :=
    ht.data f fun hyes => hmap f hyes r hr n p h₁ h₂ hpage

end Sound

end PagedKernel
