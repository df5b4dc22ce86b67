import PagedKernel.Proofs.Process.Build

/-!
# Giving back the memory of a process

* `PagesFreed`               some pages of a process are given back
* `AddressSpace.ends_free`   every reference that a process holds is given up, nothing is written

The contents of memory stay while frames are given back, so that the tables can be walked to the
end.  A process that is given up owes what it holds, page by page and then table by table.
-/

namespace PagedKernel

variable {l : Layout} {kr r f : Frame} {procs : Finset Frame} {m : Machine} {mem mem' : Memory}
  {n : Nat}

namespace Memory

theorem userFrames_zero : mem.userFrames r n 0 = [] := rfl

theorem userFrames_succ (count : Nat) :
    mem.userFrames r n (count + 1)
      = (mem.frameAt r n).toList ++ mem.userFrames r (n + 1) count := by
  rw [userFrames, userFrames, List.range'_succ, List.filterMap_cons]
  cases mem.frameAt r n <;> rfl

end Memory

/-- one tree alone, while its tables are counted and memory keeps its contents -/
theorem Forest.of_contents {roots : Finset Frame} (h : Forest mem roots) (hr : r ∈ roots)
    (hcontents : mem'.contents = mem.contents) (hcount : ∀ u, mem.IsTable r u → mem'.count u = 1) :
    Forest mem' {r} := by
  refine (h.subset (Finset.singleton_subset_iff.2 hr)).congr (by rw [hcontents]) ?_ ?_
  · exact fun r' _ t _ => Memory.data_congr hcontents t
  · intro r' hr' u hu
    obtain rfl := Finset.mem_singleton.1 hr'
    exact hcount u hu

/-- the process of `r` has given back its pages before `n`, and owes the others and its tables.
Those are counted, and nothing has been written since `mem`. -/
structure PagesFreed (l : Layout) (kr : Frame) (procs : Finset Frame) (r : Frame) (mem : Memory)
    (n : Nat) (mem' : Memory) : Prop where
  sound : Sound l kr procs (mem.userFrames r n (l.endPage - n) ++ mem.treeFrames r) mem'
  contents : mem'.contents = mem.contents
  tables : ∀ u, mem.IsTable r u → mem'.count u = 1

namespace PagesFreed

variable {t : Machine} {w : VirtualAddress}

theorem start (hs : Sound l kr (insert r procs) [] mem) (hr : r ∉ procs) :
    PagesFreed l kr procs r mem l.firstPage mem := by
  have hdisown := hs.disown hr
  rw [List.append_nil] at hdisown
  exact ⟨hdisown, rfl, hs.forest.counted r (Sound.root_mem (Finset.mem_insert_self r procs))⟩

/-- one page more is given back -/
theorem ends_freePage (h : PagesFreed l kr procs r mem n t.toMemory)
    (hs : Sound l kr (insert r procs) [] mem) (h₁ : l.firstPage ≤ n) (h₂ : n < l.endPage)
    (hw : w.page.number.toNat = n) :
    Ends (do
        match ← Machine.inspect fun mem => (AddressSpace.mk r).lookup mem w with
        | some x => Machine.release x.frame
        | none => return : Attempt Machine FrameError Unit) t
      (fun _ t' => PagesFreed l kr procs r mem (n + 1) t'.toMemory) Never := by
  subst hw
  have hself := Finset.mem_insert_self r procs
  have hroot : r ∈ insert kr (insert r procs) := Sound.root_mem hself
  have hforest := hs.forest.of_contents hroot h.contents h.tables
  have hlookup := hforest.lookup_eq (Finset.mem_singleton_self r) w
  have hpages : t.pageAt r w.page.number.toNat = mem.pageAt r w.page.number.toNat :=
    Memory.pageAt_congr (fun u _ => Memory.data_congr h.contents u) w.page.number.toNat
  have hleft : l.endPage - w.page.number.toNat = l.endPage - (w.page.number.toNat + 1) + 1 := by
    omega
  have hst := h.sound
  rw [hpages] at hlookup
  rw [hleft, Memory.userFrames_succ, Memory.frameAt] at hst
  rw [ends_bind, ends_lift, Machine.ends_inspect hlookup]
  cases hpage : mem.pageAt r w.page.number.toNat with
  | none =>
    rw [hpage] at hst
    rw [Option.map_none]
    exact ends_pure.2 ⟨hst, h.contents, h.tables⟩
  | some x =>
    obtain ⟨f, p⟩ := x
    rw [hpage] at hst
    rw [Option.map_some]
    have hnot := (hs.of_page hself h₁ h₂ hpage).2.2 r hroot
    refine hst.ends_release.mono (fun _ t' ht' => ?_) fun _ _ hn => hn
    obtain ⟨hst', hcontents', hcount', -⟩ := ht'
    refine ⟨hst', hcontents'.trans h.contents, fun u hu => ?_⟩
    have hne : u ≠ f := by
      rintro rfl
      exact hnot hu
    rw [hcount' u, if_neg hne, h.tables u hu]

/-- when all pages are given back so are the tables, and the root at last -/
theorem ends_freeTables (h : PagesFreed l kr procs r mem l.endPage t.toMemory)
    (hs : Sound l kr (insert r procs) [] mem) :
    Ends (do
        let tables ← Machine.inspect (AddressSpace.mk r).tables
        tables.forM fun x => Machine.release x.frame
        Machine.release r : Attempt Machine FrameError Unit) t
      (fun _ t' => Sound l kr procs [] t'.toMemory ∧ t'.contents = mem.contents) Never := by
  have hroot : r ∈ insert kr (insert r procs) := Sound.root_mem (Finset.mem_insert_self r procs)
  have htables := (hs.forest.of_contents hroot h.contents h.tables).tables_eq
    (Finset.mem_singleton_self r)
  have hst := h.sound
  rw [@Memory.preorder_congr mem _ _ _ _ _ (Memory.data_congr h.contents)] at htables
  rw [Nat.sub_self, Memory.userFrames_zero, List.nil_append, Memory.treeFrames] at hst
  generalize mem.preorder Level.pml4.lower .pml4 0 r = tables at htables hst
  rw [ends_bind, ends_lift, Machine.ends_inspect htables, ends_bind]
  refine (Ends.forM (fun (rest : List TableFrame) (t : Machine) =>
    Sound l kr procs (rest.map TableFrame.frame ++ [r]) t.toMemory ∧ t.contents = mem.contents)
    (fun x rest t ht => ?_) tables ⟨hst, h.contents⟩).mono (fun _ t₁ ht₁ => ?_) fun _ _ hn => hn
  · exact ht.1.ends_release.mono (fun _ t' ht' => ⟨ht'.1, ht'.2.1.trans ht.2⟩) fun _ _ hn => hn
  · exact ht₁.1.ends_release.mono (fun _ t₂ ht₂ => ⟨ht₂.1, ht₂.2.1.trans ht₁.2⟩)
      fun _ _ hn => hn

end PagesFreed

namespace AddressSpace

/-- a process gives back its memory; nothing is written -/
theorem ends_free (hs : Sound l kr (insert r procs) [] m.toMemory) (hr : r ∉ procs) :
    Ends ((AddressSpace.mk r).free l) m
      (fun _ m' => Sound l kr procs [] m'.toMemory ∧ m'.contents = m.contents) Never := by
  have hl := hs.ordered
  have hstart : l.userStart.page.number.toNat = l.firstPage := by
    rw [Address.toNat_page]
    rfl
  unfold free
  rw [ends_bind]
  exact (Ends.forPages hstart (hl.virtualSize_eq : l.userEnd.value.toNat = _)
    (Nat.le_of_lt hl.firstPage_lt)
    (fun n (t : Machine) => PagesFreed l kr procs r m.toMemory n t.toMemory) (.start hs hr)
    fun n w t h₁ h₂ hw _ ht => ht.ends_freePage hs h₁ h₂ hw).mono
    (fun _ t ht => ht.ends_freeTables hs) fun _ _ hn => hn

end AddressSpace

end PagedKernel
