import PagedKernel.Proofs.Paging.Forest

/-!
# Trees that grow

What happens to the trees when an entry of one table is written: a new table is linked, or a leaf
is set.

* `Grown roots root mem mem'`   the tree of `root` got new tables, and was all that changed
* `Grown.trans`                 one change after another
* `Linked.grown`                a free frame of zeroes is linked at an entry that was not present
* `Written.grown`               the leaf of a page is set

No page changes when a table is linked, and only its own when a leaf is set.
-/

namespace PagedKernel

theorem FrameData.word_zero (i : Fin 512) : FrameData.zero.word i = 0 := by
  have hbyte (k : Fin 8) : FrameData.zero.wordByte i k = 0 := by
    simp [FrameData.wordByte, FrameData.zero, FrameData.filled, ↓FrameData.get_bytes]
  simp only [FrameData.word, hbyte]
  rfl

/-- the tree of `root` got new tables; nothing else of memory changed -/
structure Grown (roots : Finset Frame) (root : Frame) (mem mem' : Memory) : Prop where
  forest : Forest mem' roots
  size : mem'.contents.size = mem.contents.size
  manages : ∀ f, mem'.manages f = mem.manages f
  /-- a table stays in its place -/
  path : ∀ p t, p.length ≤ 3 → mem.tableAt root p = some t → mem'.tableAt root p = some t
  /-- a table that was not one before was a free frame -/
  fresh : ∀ t, mem'.IsTable root t → ¬ mem.IsTable root t →
    mem.count t = 0 ∧ mem.manages t = true
  data : ∀ f, ¬ mem'.IsTable root f → mem'.data f = mem.data f
  count : ∀ f, (mem'.IsTable root f → mem.IsTable root f) → mem'.count f = mem.count f

namespace Grown

variable {mem mem' mem'' : Memory} {roots : Finset Frame} {root r t f : Frame}
  {p q : List TableIndex} {i j : TableIndex} {e : PageEntry}

theorem table (h : Grown roots root mem mem') (t : Frame) (ht : mem.IsTable root t) :
    mem'.IsTable root t := by
  obtain ⟨p, hp, ht⟩ := ht
  exact ⟨p, hp, h.path p t hp ht⟩

theorem refl (h : Forest mem roots) (root : Frame) : Grown roots root mem mem where
  forest := h
  size := rfl
  manages _ := rfl
  path _ _ _ ht := ht
  fresh _ ht hn := absurd ht hn
  data _ _ := rfl
  count _ _ := rfl

theorem trans (h : Grown roots root mem mem') (h' : Grown roots root mem' mem'') :
    Grown roots root mem mem'' where
  forest := h'.forest
  size := h'.size.trans h.size
  manages f := (h'.manages f).trans (h.manages f)
  path p t hp ht := h'.path p t hp (h.path p t hp ht)
  fresh t ht hn := by
    by_cases ht' : mem'.IsTable root t
    · exact h.fresh t ht' hn
    · obtain ⟨hc, hm⟩ := h'.fresh t ht ht'
      rw [h.manages] at hm
      rw [h.count t fun hyes => absurd hyes ht'] at hc
      exact ⟨hc, hm⟩
  data f hf := (h'.data f hf).trans (h.data f fun hyes => hf (h'.table f hyes))
  count f hf := by
    rw [h'.count f fun hyes => h.table f (hf hyes),
      h.count f fun hyes => hf (h'.table f hyes)]

/-- memory that is in use keeps its contents, the tables of the tree apart -/
theorem data_of_count (h : Grown roots root mem mem') (hf : ¬ mem.IsTable root f)
    (hc : mem.count f ≠ 0) : mem'.data f = mem.data f :=
  h.data f fun hyes => hc (h.fresh f hyes hf).1

theorem count_of_count (h : Grown roots root mem mem') (hc : mem.count f ≠ 0) :
    mem'.count f = mem.count f := by
  apply h.count
  intro hyes
  by_contra hn
  exact hc (h.fresh f hyes hn).1

/-- a frame keeps its count, or was free and is a table now -/
theorem count_or (h : Grown roots root mem mem') (hroot : root ∈ roots) (f : Frame) :
    mem'.count f = mem.count f ∨ mem.count f = 0 ∧ mem'.count f = 1 ∧ mem'.IsTable root f := by
  by_cases hnew : mem'.IsTable root f → mem.IsTable root f
  · exact .inl (h.count f hnew)
  · obtain ⟨hyes, hno⟩ := Classical.not_imp.1 hnew
    exact .inr ⟨(h.fresh f hyes hno).1, h.forest.counted root hroot f hyes, hyes⟩

/-- frames that are counted are managed, if they were before -/
theorem manages_of_count (h : Grown roots root mem mem')
    (hmem : ∀ f, mem.count f ≠ 0 → mem.manages f = true) (hc : mem'.count f ≠ 0) :
    mem'.manages f = true := by
  rw [h.manages]
  by_cases hnew : mem'.IsTable root f → mem.IsTable root f
  · rw [h.count f hnew] at hc
    exact hmem f hc
  · rw [Classical.not_imp] at hnew
    exact (h.fresh f hnew.1 hnew.2).2

theorem data_of_isTable (h : Grown roots root mem mem') (hmem : Forest mem roots)
    (hroot : root ∈ roots) (hr : r ∈ roots) (hne : r ≠ root) (ht : mem.IsTable r t) :
    mem'.data t = mem.data t := by
  apply h.data_of_count
  · intro hyes
    exact hne (hmem.root_eq hr hroot ht hyes)
  · rw [hmem.counted r hr t ht]
    exact Nat.one_ne_zero

/-- no other tree maps a page differently -/
theorem pageAt_other (h : Grown roots root mem mem') (hmem : Forest mem roots)
    (hroot : root ∈ roots) (hr : r ∈ roots) (hne : r ≠ root) (n : Nat) :
    mem'.pageAt r n = mem.pageAt r n :=
  Memory.pageAt_congr (fun _ ht => h.data_of_isTable hmem hroot hr hne ht) n

/-- the tables of every tree stay in their places -/
theorem tableAt_eq_some (h : Grown roots root mem mem') (hmem : Forest mem roots)
    (hroot : root ∈ roots) (hr : r ∈ roots) (hp : p.length ≤ 3) (ht : mem.tableAt r p = some t) :
    mem'.tableAt r p = some t := by
  by_cases hne : r = root
  · rw [hne] at ht ⊢
    exact h.path p t hp ht
  · rw [Memory.tableAt_congr (fun _ ht => h.data_of_isTable hmem hroot hr hne ht) hp, ht]

end Grown

/-! ## linking a table -/

section Link

variable {mem mem' : Memory} {roots : Finset Frame} {root r t f : Frame} {p q : List TableIndex}
  {i : TableIndex}

/-- the last table on the path of a page is none of those above it -/
theorem Forest.ne_of_tableAt {n : Nat} {u : Frame} (hmem : Forest mem roots) (hroot : root ∈ roots)
    (ht : mem.tableAt root (pagePath n) = some t) (hr : r ∈ roots) (hq : q.length < 3)
    (hu : mem.tableAt r q = some u) : u ≠ t := by
  rintro rfl
  obtain ⟨-, rfl⟩ := hmem.unique r hr root hroot q _ u (Nat.le_of_lt hq)
    (Nat.le_of_eq (length_pagePath n)) hu ht
  rw [length_pagePath] at hq
  exact Nat.lt_irrefl 3 hq

/-- `f` was free, and is linked as a table of zeroes by entry `i` of `t` -/
structure Linked (mem mem' : Memory) (t : Frame) (i : TableIndex) (f : Frame) : Prop where
  size : mem'.contents.size = mem.contents.size
  manages : ∀ g, mem'.manages g = mem.manages g
  free : mem.count f = 0
  managed : mem.manages f = true
  entry : ∀ j, mem'.entryAt t j = if j = i then .linkTo f else mem.entryAt t j
  empty : ∀ j, mem'.entryAt f j = .empty
  data : ∀ g, g ≠ t → g ≠ f → mem'.data g = mem.data g
  count : ∀ g, mem'.count g = if g = f then 1 else mem.count g

namespace Linked

theorem hasFrame (h : Linked mem mem' t i f) : mem.hasFrame f = true :=
  Memory.hasFrame_of_manages h.managed

theorem toNat_lt (h : Linked mem mem' t i f) (hmem : Forest mem roots) :
    f.number.toNat < 2 ^ 40 :=
  Nat.lt_of_lt_of_le ((Memory.hasFrame_iff).1 h.hasFrame) hmem.size_le

theorem ne_of_isTable (h : Linked mem mem' t i f) (hmem : Forest mem roots) (hr : r ∈ roots)
    {u : Frame} (hu : mem.IsTable r u) : u ≠ f := by
  rintro rfl
  have := hmem.counted r hr u hu
  rw [h.free] at this
  exact absurd this Nat.zero_ne_one

/-- nothing was linked where the new table is linked -/
theorem not_path (ht : mem.tableAt root p = some t) (hi : (mem.entryAt t i).present = false) :
    mem.tableAt root (p ++ [i]) = none := by
  rw [Memory.tableAt_concat, ht, Option.bind_some, Memory.link?_of_absent hi]

theorem path_ne (ht : mem.tableAt root p = some t) (hi : (mem.entryAt t i).present = false)
    {u : Frame} (hu : mem.tableAt root q = some u) : q ≠ p ++ [i] := by
  rintro rfl
  rw [not_path ht hi] at hu
  cases hu

/-- the new table links nothing -/
theorem link?_new (h : Linked mem mem' t i f) (j : TableIndex) : mem'.link? f j = none :=
  Memory.link?_of_empty (h.empty j)

theorem link?_linked (h : Linked mem mem' t i f) (hmem : Forest mem roots) :
    mem'.link? t i = some f := by
  have hentry := h.entry i
  rw [if_pos rfl] at hentry
  have hlink : (mem'.entryAt t i).isLink = true := by
    rw [hentry]
    exact PageEntry.isLink_linkTo (h.toNat_lt hmem)
  rw [Memory.link?_of_isLink hlink, hentry, PageEntry.linkTo,
    PageEntry.frame_mapping (h.toNat_lt hmem)]

/-- the other entries of tables are what they were -/
theorem entryAt_of_ne (h : Linked mem mem' t i f) {u : Frame} {j : TableIndex} (huf : u ≠ f)
    (hne : u = t → j ≠ i) : mem'.entryAt u j = mem.entryAt u j := by
  by_cases hut : u = t
  · rw [hut, h.entry, if_neg (hne hut)]
  · exact Memory.entryAt_congr (h.data u hut huf) j

theorem data_other (h : Linked mem mem' t i f) (hmem : Forest mem roots) (hroot : root ∈ roots)
    (hp : p.length < 3) (ht : mem.tableAt root p = some t) (hr : r ∈ roots) (hne : r ≠ root)
    {u : Frame} (hu : mem.IsTable r u) : mem'.data u = mem.data u := by
  refine h.data u ?_ (h.ne_of_isTable hmem hr hu)
  rintro rfl
  exact hne (hmem.root_eq hr hroot hu (Memory.isTable_of_path (Nat.le_of_lt hp) ht))

section

variable (h : Linked mem mem' t i f) (hmem : Forest mem roots) (hroot : root ∈ roots)
  (hp : p.length < 3) (ht : mem.tableAt root p = some t) (hi : (mem.entryAt t i).present = false)
include h hmem hroot hp ht hi

/-- the new table is reached by one path, and all other paths lead where they led -/
theorem tableAt_eq (hq : q.length ≤ 3) :
    mem'.tableAt root q = if q = p ++ [i] then some f else mem.tableAt root q := by
  induction q using List.reverseRecOn with
  | nil => rw [if_neg (by simp), Memory.tableAt_nil, Memory.tableAt_nil]
  | append_singleton q j ih =>
    rw [List.length_append, List.length_singleton] at hq
    rw [Memory.tableAt_concat, ih (by omega)]
    by_cases hqp : q = p ++ [i]
    · -- below the new table there is nothing, as there was nothing before
      subst hqp
      have hne : p ++ [i] ++ [j] ≠ p ++ [i] := by simp
      rw [if_pos rfl, if_neg hne, Option.bind_some, h.link?_new, Memory.tableAt_concat,
        not_path ht hi, Option.bind_none]
    rw [if_neg hqp, Memory.tableAt_concat]
    by_cases hqj : q ++ [j] = p ++ [i]
    · obtain ⟨rfl, hji⟩ := List.append_inj' hqj rfl
      obtain rfl := List.singleton_inj.1 hji
      rw [if_pos rfl, ht, Option.bind_some, h.link?_linked hmem]
    · rw [if_neg hqj]
      cases hu : mem.tableAt root q with
      | none => rw [Option.bind_none, Option.bind_none]
      | some u =>
        have huf := h.ne_of_isTable hmem hroot (Memory.isTable_of_path (by omega) hu)
        rw [Option.bind_some, Option.bind_some]
        refine Memory.link?_congr (h.entryAt_of_ne huf ?_)
        rintro rfl rfl
        obtain ⟨-, rfl⟩ := hmem.unique root hroot root hroot q p u (by omega) (by omega) hu ht
        exact hqj rfl

theorem isTable_iff (u : Frame) : mem'.IsTable root u ↔ u = f ∨ mem.IsTable root u := by
  constructor
  · rintro ⟨q, hq, hu⟩
    rw [h.tableAt_eq hmem hroot hp ht hi hq] at hu
    split at hu
    · exact .inl (Option.some.inj hu).symm
    · exact .inr ⟨q, hq, hu⟩
  · have hlen : (p ++ [i]).length ≤ 3 := by
      rw [List.length_append, List.length_singleton]
      omega
    rintro (rfl | ⟨q, hq, hu⟩)
    · refine ⟨p ++ [i], hlen, ?_⟩
      rw [h.tableAt_eq hmem hroot hp ht hi hlen, if_pos rfl]
    · refine ⟨q, hq, ?_⟩
      rw [h.tableAt_eq hmem hroot hp ht hi hq, if_neg (path_ne ht hi hu), hu]

theorem forest_root : Forest mem' {root} := by
  have htable := fun q hq => h.tableAt_eq (q := q) hmem hroot hp ht hi hq
  constructor
  · rw [h.size]
    exact hmem.size_le
  · intro r hr u hu
    obtain rfl := Finset.mem_singleton.1 hr
    rw [Memory.hasFrame_iff, h.size, ← Memory.hasFrame_iff]
    rcases (h.isTable_iff hmem hroot hp ht hi u).1 hu with rfl | hu
    · exact h.hasFrame
    · exact hmem.inside r hroot u hu
  · intro r hr u hu
    obtain rfl := Finset.mem_singleton.1 hr
    rcases (h.isTable_iff hmem hroot hp ht hi u).1 hu with rfl | hu
    · rw [h.count, if_pos rfl]
    · rw [h.count, if_neg (h.ne_of_isTable hmem hroot hu)]
      exact hmem.counted r hroot u hu
  · intro r hr q u j hq hu hj
    obtain rfl := Finset.mem_singleton.1 hr
    rw [htable q (Nat.le_of_lt hq)] at hu
    split at hu
    · obtain rfl := Option.some.inj hu
      rw [h.empty, PageEntry.present_empty] at hj
      exact absurd hj Bool.false_ne_true
    · have huf := h.ne_of_isTable hmem hroot (Memory.isTable_of_path (Nat.le_of_lt hq) hu)
      by_cases hnew : u = t ∧ j = i
      · rw [hnew.1, hnew.2, h.entry, if_pos rfl]
        exact ⟨f, h.toNat_lt hmem, rfl⟩
      · rw [h.entryAt_of_ne huf fun hut hji => hnew ⟨hut, hji⟩] at hj ⊢
        exact hmem.links r hroot q u j hq hu hj
  · intro r hr r' hr' q q' u hq hq' hu hu'
    obtain rfl := Finset.mem_singleton.1 hr
    obtain rfl := Finset.mem_singleton.1 hr'
    refine ⟨rfl, ?_⟩
    rw [htable q hq] at hu
    rw [htable q' hq'] at hu'
    split at hu <;> split at hu'
    · next hqi hqi' => rw [hqi, hqi']
    · obtain rfl := Option.some.inj hu
      exact absurd rfl (h.ne_of_isTable hmem hroot (Memory.isTable_of_path hq' hu'))
    · obtain rfl := Option.some.inj hu'
      exact absurd rfl (h.ne_of_isTable hmem hroot (Memory.isTable_of_path hq hu))
    · exact (hmem.unique _ hroot _ hroot q q' u hq hq' hu hu').2

theorem forest : Forest mem' roots := by
  have hold : ∀ r ∈ roots.erase root, ∀ u, mem.IsTable r u → mem'.data u = mem.data u :=
    fun r hr u => h.data_other hmem hroot hp ht (Finset.mem_of_mem_erase hr)
      (Finset.ne_of_mem_erase hr)
  have hrest : Forest mem' (roots.erase root) := by
    refine (hmem.subset (Finset.erase_subset root roots)).congr h.size hold fun r hr u hu => ?_
    have hr := Finset.mem_of_mem_erase hr
    rw [h.count, if_neg (h.ne_of_isTable hmem hr hu)]
    exact hmem.counted r hr u hu
  rw [← Finset.insert_erase hroot]
  refine hrest.insert (h.forest_root hmem hroot hp ht hi) fun r hr u hu hu' => ?_
  rw [Memory.isTable_congr (hold r hr)] at hu'
  have hr' := Finset.mem_of_mem_erase hr
  rcases (h.isTable_iff hmem hroot hp ht hi u).1 hu with rfl | hu
  · exact h.ne_of_isTable hmem hr' hu' rfl
  · exact Finset.ne_of_mem_erase hr (hmem.root_eq hr' hroot hu' hu)

theorem grown : Grown roots root mem mem' where
  forest := h.forest hmem hroot hp ht hi
  size := h.size
  manages := h.manages
  path q u hq hu := by
    rw [h.tableAt_eq hmem hroot hp ht hi hq, if_neg (path_ne ht hi hu), hu]
  fresh u hu hn := by
    rcases (h.isTable_iff hmem hroot hp ht hi u).1 hu with rfl | hu
    · exact ⟨h.free, h.managed⟩
    · exact absurd hu hn
  data g hg := by
    refine h.data g ?_ ?_
    · rintro rfl
      have hold := Memory.isTable_of_path (Nat.le_of_lt hp) ht
      exact hg ((h.isTable_iff hmem hroot hp ht hi g).2 (.inr hold))
    · rintro rfl
      exact hg ((h.isTable_iff hmem hroot hp ht hi g).2 (.inl rfl))
  count g hg := by
    rw [h.count, if_neg]
    rintro rfl
    have hnew := hg ((h.isTable_iff hmem hroot hp ht hi g).2 (.inl rfl))
    exact h.ne_of_isTable hmem hroot hnew rfl

theorem pageAt_eq (n : Nat) : mem'.pageAt root n = mem.pageAt root n := by
  have hlen := length_pagePath n
  have hpath := h.tableAt_eq (q := pagePath n) hmem hroot hp ht hi (Nat.le_of_eq hlen)
  rw [Memory.pageAt, Memory.pageAt]
  by_cases hn : pagePath n = p ++ [i]
  · rw [if_pos hn] at hpath
    have hold : mem.tableAt root (pagePath n) = none := by
      rw [hn]
      exact not_path ht hi
    rw [Memory.leafAt_of_table hpath, Memory.leafAt_of_none hold, h.empty]
  · rw [if_neg hn] at hpath
    cases hu : mem.tableAt root (pagePath n) with
    | none =>
      rw [hu] at hpath
      rw [Memory.leafAt_of_none hpath, Memory.leafAt_of_none hu]
    | some u =>
      rw [hu] at hpath
      have huf := h.ne_of_isTable hmem hroot (Memory.isTable_of_path (Nat.le_of_eq hlen) hu)
      have hut := (hmem.ne_of_tableAt hroot hu hroot hp ht).symm
      rw [Memory.leafAt_of_table hpath, Memory.leafAt_of_table hu,
        Memory.entryAt_congr (h.data u hut huf)]

end

end Linked

end Link

/-! ## setting a leaf -/

section Leaf

variable {mem mem' : Memory} {roots : Finset Frame} {root r t : Frame} {q : List TableIndex}
  {i : TableIndex} {e : PageEntry} {n : Nat}

/-- entry `i` of `t` is written, and nothing else -/
structure Written (mem mem' : Memory) (t : Frame) (i : TableIndex) (e : PageEntry) : Prop where
  size : mem'.contents.size = mem.contents.size
  manages : ∀ g, mem'.manages g = mem.manages g
  entry : ∀ j, mem'.entryAt t j = if j = i then e else mem.entryAt t j
  data : ∀ g, g ≠ t → mem'.data g = mem.data g
  count : ∀ g, mem'.count g = mem.count g

namespace Written

/-- the leaves are below all links -/
theorem tableAt_eq (h : Written mem mem' t i e) (hmem : Forest mem roots) (hroot : root ∈ roots)
    (ht : mem.tableAt root (pagePath n) = some t) (hr : r ∈ roots) (hq : q.length ≤ 3) :
    mem'.tableAt r q = mem.tableAt r q := by
  induction q using List.reverseRecOn with
  | nil => rw [Memory.tableAt_nil, Memory.tableAt_nil]
  | append_singleton q j ih =>
    rw [List.length_append, List.length_singleton] at hq
    rw [Memory.tableAt_concat, Memory.tableAt_concat, ih (by omega)]
    cases hu : mem.tableAt r q with
    | none => rw [Option.bind_none, Option.bind_none]
    | some u =>
      have hut := hmem.ne_of_tableAt hroot ht hr (by omega) hu
      rw [Option.bind_some, Option.bind_some,
        Memory.link?_congr (Memory.entryAt_congr (h.data u hut) j)]

theorem isTable_iff (h : Written mem mem' t i e) (hmem : Forest mem roots) (hroot : root ∈ roots)
    (ht : mem.tableAt root (pagePath n) = some t) (hr : r ∈ roots) (u : Frame) :
    mem'.IsTable r u ↔ mem.IsTable r u := by
  constructor
  · rintro ⟨q, hq, hu⟩
    rw [h.tableAt_eq hmem hroot ht hr hq] at hu
    exact ⟨q, hq, hu⟩
  · rintro ⟨q, hq, hu⟩
    rw [← h.tableAt_eq hmem hroot ht hr hq] at hu
    exact ⟨q, hq, hu⟩

theorem forest (h : Written mem mem' t i e) (hmem : Forest mem roots) (hroot : root ∈ roots)
    (ht : mem.tableAt root (pagePath n) = some t) : Forest mem' roots where
  size_le := by
    rw [h.size]
    exact hmem.size_le
  inside r hr u hu := by
    rw [h.isTable_iff hmem hroot ht hr] at hu
    rw [Memory.hasFrame_iff, h.size, ← Memory.hasFrame_iff]
    exact hmem.inside r hr u hu
  counted r hr u hu := by
    rw [h.isTable_iff hmem hroot ht hr] at hu
    rw [h.count]
    exact hmem.counted r hr u hu
  links r hr q u j hq hu hj := by
    rw [h.tableAt_eq hmem hroot ht hr (Nat.le_of_lt hq)] at hu
    have hut := hmem.ne_of_tableAt hroot ht hr hq hu
    rw [Memory.entryAt_congr (h.data u hut)] at hj ⊢
    exact hmem.links r hr q u j hq hu hj
  unique r hr r' hr' q q' u hq hq' hu hu' := by
    rw [h.tableAt_eq hmem hroot ht hr hq] at hu
    rw [h.tableAt_eq hmem hroot ht hr' hq'] at hu'
    exact hmem.unique r hr r' hr' q q' u hq hq' hu hu'

theorem grown (h : Written mem mem' t i e) (hmem : Forest mem roots) (hroot : root ∈ roots)
    (ht : mem.tableAt root (pagePath n) = some t) : Grown roots root mem mem' where
  forest := h.forest hmem hroot ht
  size := h.size
  manages := h.manages
  path q u hq hu := (h.tableAt_eq hmem hroot ht hroot hq).trans hu
  fresh u hu hn := absurd ((h.isTable_iff hmem hroot ht hroot u).1 hu) hn
  data g hg := by
    refine h.data g ?_
    rintro rfl
    have hold := Memory.isTable_of_path (Nat.le_of_eq (length_pagePath n)) ht
    exact hg ((h.isTable_iff hmem hroot ht hroot g).2 hold)
  count g _ := h.count g

theorem pageAt_eq (h : Written mem mem' t (Level.pt.indexOf n) e) (hmem : Forest mem roots)
    (hroot : root ∈ roots) (ht : mem.tableAt root (pagePath n) = some t) (k : Nat) :
    mem'.pageAt root k
      = if k % 2 ^ 36 = n % 2 ^ 36 then e.target else mem.pageAt root k := by
  have hlen := Nat.le_of_eq (length_pagePath k)
  have hpath := h.tableAt_eq hmem hroot ht hroot hlen
  by_cases hk : k % 2 ^ 36 = n % 2 ^ 36
  · rw [if_pos hk, ← Memory.pageAt_mod, hk, Memory.pageAt_mod, Memory.pageAt]
    rw [← h.tableAt_eq hmem hroot ht hroot (Nat.le_of_eq (length_pagePath n))] at ht
    rw [Memory.leafAt_of_table ht, h.entry, if_pos rfl]
  · rw [if_neg hk, Memory.pageAt, Memory.pageAt]
    cases hu : mem.tableAt root (pagePath k) with
    | none => rw [Memory.leafAt_of_none hu, Memory.leafAt_of_none (hpath.trans hu)]
    | some u =>
      rw [Memory.leafAt_of_table hu, Memory.leafAt_of_table (hpath.trans hu)]
      by_cases hut : u = t
      · subst hut
        obtain ⟨-, hsame⟩ := hmem.unique root hroot root hroot _ _ u hlen
          (Nat.le_of_eq (length_pagePath n)) hu ht
        rw [h.entry, if_neg]
        intro hlast
        apply hk
        have hpos : 0 < 2 ^ 36 := by decide
        refine page_eq_of_path (Nat.mod_lt _ hpos) (Nat.mod_lt _ hpos) ?_ ?_
        · simp only [pagePath, indexOf_mod] at hsame ⊢
          exact hsame
        · rw [indexOf_mod, indexOf_mod]
          exact hlast
      · rw [Memory.entryAt_congr (h.data u hut)]

end Written

end Leaf

end PagedKernel
