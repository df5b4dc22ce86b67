import Mathlib.Algebra.BigOperators.Group.Finset.Basic
import PagedKernel.Paging.AddressSpace
import PagedKernel.Proofs.Memory.Frames
import PagedKernel.Proofs.Paging.Entry

/-!
# Forests of tables

An address space is a tree: its tables are reached from the root along paths of indices, and the
entries of the tables at the end of a path of three map pages.

* `Memory.tableAt root path`   the table at the end of a path
* `Memory.leafAt root n`       the entry that decides on page `n`
* `Memory.pageAt root n`       what it maps the page to
* `Memory.IsTable root t`      `t` is one of the tables of a tree, the root included
* `Forest mem roots`           the trees of `roots` are well made, and no two places share a table
* `Forest.lookup_eq`           what a walk finds is what the leaf says
* `Forest.of_empty`            a table of zeroes is a tree that maps nothing

Pages are numbered by the address divided by the page size; a walk only looks at the number modulo
`2 ^ 36`.
-/

namespace PagedKernel

/-! ## paths -/

/-- the entry at a level that page `n` selects -/
def Level.indexOf (level : Level) (n : Nat) : TableIndex :=
  ⟨n / 2 ^ (level.shift - 12) % 512, Nat.mod_lt _ (by decide)⟩

/-- the way from the root to the table whose entries map the pages around page `n` -/
def pagePath (n : Nat) : List TableIndex := Level.links.map fun level => level.indexOf n

theorem Level.toNat_span (level : Level) : level.span.toNat = 2 ^ level.shift := by
  cases level <;> rfl

theorem Level.toNat_index (level : Level) (va : VirtualAddress) :
    (level.index va).val = va.value.toNat / 2 ^ level.shift % 512 := by
  show (va.value / level.span % 512).toNat = _
  rw [UInt64.toNat_mod, UInt64.toNat_div, Level.toNat_span]
  rfl

theorem Level.index_eq (level : Level) (va : VirtualAddress) :
    level.index va = level.indexOf va.page.number.toNat := by
  apply Fin.ext
  rw [Level.toNat_index]
  show va.value.toNat / 2 ^ level.shift % 512
    = (va.value / 4096).toNat / 2 ^ (level.shift - 12) % 512
  rw [UInt64.toNat_div, Nat.div_div_eq_div_mul]
  cases level <;> rfl

theorem length_pagePath (n : Nat) : (pagePath n).length = 3 := rfl

/-- the path and the last index of a page tell its number -/
theorem page_eq_of_path {n k : Nat} (hn : n < 2 ^ 36) (hk : k < 2 ^ 36)
    (hpath : pagePath n = pagePath k) (hlast : Level.pt.indexOf n = Level.pt.indexOf k) :
    n = k := by
  simp only [pagePath, Level.links, List.map_cons, List.map_nil, List.cons.injEq, and_true,
    Level.indexOf, Level.shift, Fin.mk.injEq] at hpath hlast
  obtain ⟨h4, h3, h2⟩ := hpath
  omega

theorem indexOf_mod (level : Level) (n : Nat) :
    level.indexOf (n % 2 ^ 36) = level.indexOf n := by
  apply Fin.ext
  cases level <;> simp only [Level.indexOf, Level.shift] <;> omega

namespace Memory

variable {mem mem' : Memory} {root t u : Frame} {p q : List TableIndex} {i j : TableIndex}

/-! ## trees -/

/-- entry `i` of the table in `t` -/
@[irreducible]
def entryAt (mem : Memory) (t : Frame) (i : TableIndex) : PageEntry := ⟨(mem.data t).word i⟩

/-- the table that entry `i` of the table in `t` links to -/
def link? (mem : Memory) (t : Frame) (i : TableIndex) : Option Frame :=
  if (mem.entryAt t i).isLink then some (mem.entryAt t i).frame else none

/-- the table that is reached from `root` along a path -/
def tableAt (mem : Memory) (root : Frame) : List TableIndex → Option Frame
  | [] => some root
  | i :: rest => (mem.link? root i).bind fun u => tableAt mem u rest

/-- whether `t` is a table of the tree of `root` -/
def IsTable (mem : Memory) (root t : Frame) : Prop :=
  ∃ path, path.length ≤ 3 ∧ mem.tableAt root path = some t

/-- the entry that decides on page `n`; an empty one where there is no table for it -/
def leafAt (mem : Memory) (root : Frame) (n : Nat) : PageEntry :=
  ((mem.tableAt root (pagePath n)).map fun t => mem.entryAt t (Level.pt.indexOf n)).getD .empty

/-- the frame that page `n` is mapped to, and what the mapping allows -/
def pageAt (mem : Memory) (root : Frame) (n : Nat) : Option (Frame × Permissions) :=
  (mem.leafAt root n).target

theorem entryAt_eq (i : TableIndex) : mem.entryAt t i = ⟨(mem.data t).word i⟩ := by
  unfold entryAt
  rfl

theorem entryAt_congr (h : mem'.data t = mem.data t) (i : TableIndex) :
    mem'.entryAt t i = mem.entryAt t i := by
  rw [entryAt_eq, entryAt_eq, h]

theorem entry_eq (h : mem.hasFrame t = true) (i : TableIndex) :
    mem.entry t i = .ok (mem.entryAt t i) := by
  rw [hasFrame_iff] at h
  rw [entry, dif_pos h, entryAt_eq, data_eq h]

theorem link?_of_isLink (h : (mem.entryAt t i).isLink = true) :
    mem.link? t i = some (mem.entryAt t i).frame :=
  if_pos h

theorem link?_of_not (h : ¬ (mem.entryAt t i).isLink = true) : mem.link? t i = none :=
  if_neg h

theorem link?_of_absent (h : (mem.entryAt t i).present = false) : mem.link? t i = none := by
  refine link?_of_not ?_
  rw [PageEntry.isLink, h]
  exact Bool.false_ne_true

theorem link?_of_empty (h : mem.entryAt t i = .empty) : mem.link? t i = none := by
  refine link?_of_not ?_
  rw [h]
  decide

theorem link?_congr (h : mem'.entryAt t i = mem.entryAt t i) : mem'.link? t i = mem.link? t i := by
  rw [link?, link?, h]

theorem tableAt_nil : mem.tableAt root [] = some root := rfl

theorem tableAt_cons :
    mem.tableAt root (i :: p) = (mem.link? root i).bind fun u => mem.tableAt u p := rfl

theorem tableAt_cons_of_some {u : Frame} (h : mem.link? root i = some u) (p : List TableIndex) :
    mem.tableAt root (i :: p) = mem.tableAt u p := by
  rw [tableAt_cons, h, Option.bind_some]

theorem tableAt_cons_of_none (h : mem.link? root i = none) (p : List TableIndex) :
    mem.tableAt root (i :: p) = none := by
  rw [tableAt_cons, h, Option.bind_none]

theorem tableAt_append :
    mem.tableAt root (p ++ q) = (mem.tableAt root p).bind fun t => mem.tableAt t q := by
  induction p generalizing root with
  | nil => rw [List.nil_append, tableAt_nil, Option.bind_some]
  | cons i p ih =>
    rw [List.cons_append, tableAt_cons, tableAt_cons, Option.bind_assoc]
    simp only [ih]

theorem tableAt_concat :
    mem.tableAt root (p ++ [i]) = (mem.tableAt root p).bind fun t => mem.link? t i := by
  simp only [tableAt_append, tableAt_cons, tableAt_nil, Option.bind_fun_some]

theorem isTable_root : mem.IsTable root root := ⟨[], Nat.zero_le _, tableAt_nil⟩

theorem isTable_of_path (hp : p.length ≤ 3) (h : mem.tableAt root p = some t) :
    mem.IsTable root t := ⟨p, hp, h⟩

theorem leafAt_of_table {n : Nat} (h : mem.tableAt root (pagePath n) = some t) :
    mem.leafAt root n = mem.entryAt t (Level.pt.indexOf n) := by
  rw [leafAt, h, Option.map_some, Option.getD_some]

theorem leafAt_of_none {n : Nat} (h : mem.tableAt root (pagePath n) = none) :
    mem.leafAt root n = .empty := by
  rw [leafAt, h, Option.map_none, Option.getD_none]

theorem pageAt_mod (n : Nat) : mem.pageAt root (n % 2 ^ 36) = mem.pageAt root n := by
  simp only [pageAt, leafAt, pagePath, indexOf_mod]

theorem pageAt_eq_some {n : Nat} {f : Frame} {perms : Permissions}
    (h : mem.pageAt root n = some (f, perms)) :
    f.number.toNat < 2 ^ 40 ∧ perms.core = perms ∧ perms.present = true :=
  PageEntry.target_eq_some h

/-! ### trees that are left alone -/

/-- a tree whose tables hold what they held is the tree that it was -/
theorem tableAt_congr (h : ∀ t, mem.IsTable root t → mem'.data t = mem.data t)
    (hp : p.length ≤ 3) : mem'.tableAt root p = mem.tableAt root p := by
  induction p using List.reverseRecOn with
  | nil => rw [tableAt_nil, tableAt_nil]
  | append_singleton p i ih =>
    rw [List.length_append, List.length_singleton] at hp
    rw [tableAt_concat, tableAt_concat, ih (by omega)]
    cases ht : mem.tableAt root p with
    | none => rw [Option.bind_none, Option.bind_none]
    | some t =>
      have hd := h t (isTable_of_path (by omega) ht)
      rw [Option.bind_some, Option.bind_some, link?_congr (entryAt_congr hd i)]

theorem isTable_congr (h : ∀ t, mem.IsTable root t → mem'.data t = mem.data t) :
    mem'.IsTable root t ↔ mem.IsTable root t := by
  constructor
  · rintro ⟨p, hp, ht⟩
    rw [tableAt_congr h hp] at ht
    exact ⟨p, hp, ht⟩
  · rintro ⟨p, hp, ht⟩
    rw [← tableAt_congr h hp] at ht
    exact ⟨p, hp, ht⟩

theorem leafAt_congr (h : ∀ t, mem.IsTable root t → mem'.data t = mem.data t) (n : Nat) :
    mem'.leafAt root n = mem.leafAt root n := by
  have hpath := tableAt_congr h (Nat.le_of_eq (length_pagePath n))
  cases ht : mem.tableAt root (pagePath n) with
  | none => rw [leafAt_of_none ht, leafAt_of_none (hpath.trans ht)]
  | some t =>
    have hd := h t (isTable_of_path (Nat.le_of_eq (length_pagePath n)) ht)
    rw [leafAt_of_table ht, leafAt_of_table (hpath.trans ht), entryAt_congr hd]

theorem pageAt_congr (h : ∀ t, mem.IsTable root t → mem'.data t = mem.data t) (n : Nat) :
    mem'.pageAt root n = mem.pageAt root n := by
  rw [pageAt, pageAt, leafAt_congr h]

end Memory

/-! ## steps of a walk -/

namespace AddressSpace

variable {mem : Memory} {t : Frame} {level : Level} {below : List Level} {va : VirtualAddress}
  {granted : Permissions} {e : PageEntry}

theorem walk_of_isLink (he : mem.entry t (level.index va) = .ok e) (hl : e.isLink = true) :
    walk mem va (level :: below) t granted
      = walk mem va below e.frame (granted.inter e.permissions) := by
  rw [walk, he]
  simp only [bind, Except.bind]
  rw [if_pos hl]

theorem walk_of_not (he : mem.entry t (level.index va) = .ok e) (hl : ¬ e.isLink = true) :
    walk mem va (level :: below) t granted = .ok none := by
  rw [walk, he]
  simp only [bind, Except.bind]
  rw [if_neg hl]
  rfl

end AddressSpace

/-! ## forests -/

/-- the trees of `roots` lie in memory, link only to tables, and share none -/
structure Forest (mem : Memory) (roots : Finset Frame) : Prop where
  /-- a frame of memory has a number that fits into an entry -/
  size_le : mem.contents.size ≤ 2 ^ 40
  inside : ∀ r ∈ roots, ∀ t, mem.IsTable r t → mem.hasFrame t = true
  /-- nothing but its one link or its root refers to a table -/
  counted : ∀ r ∈ roots, ∀ t, mem.IsTable r t → mem.count t = 1
  links : ∀ r ∈ roots, ∀ p t i, p.length < 3 → mem.tableAt r p = some t →
    (mem.entryAt t i).present = true →
      ∃ u : Frame, u.number.toNat < 2 ^ 40 ∧ mem.entryAt t i = .linkTo u
  /-- a table has one place -/
  unique : ∀ r ∈ roots, ∀ r' ∈ roots, ∀ p p' t, p.length ≤ 3 → p'.length ≤ 3 →
    mem.tableAt r p = some t → mem.tableAt r' p' = some t → r = r' ∧ p = p'

namespace Forest

variable {mem mem' : Memory} {roots : Finset Frame} {root r t : Frame} {p : List TableIndex}
  {va : VirtualAddress}

theorem subset (h : Forest mem roots) {fewer : Finset Frame} (hsub : fewer ⊆ roots) :
    Forest mem fewer where
  size_le := h.size_le
  inside r hr := h.inside r (hsub hr)
  counted r hr := h.counted r (hsub hr)
  links r hr := h.links r (hsub hr)
  unique r hr r' hr' := h.unique r (hsub hr) r' (hsub hr')

theorem congr (h : Forest mem roots) (hs : mem'.contents.size = mem.contents.size)
    (hd : ∀ r ∈ roots, ∀ t, mem.IsTable r t → mem'.data t = mem.data t)
    (hc : ∀ r ∈ roots, ∀ t, mem.IsTable r t → mem'.count t = 1) : Forest mem' roots where
  size_le := by
    rw [hs]
    exact h.size_le
  inside r hr t ht := by
    rw [Memory.isTable_congr (hd r hr)] at ht
    rw [Memory.hasFrame_iff, hs, ← Memory.hasFrame_iff]
    exact h.inside r hr t ht
  counted r hr t ht := hc r hr t ((Memory.isTable_congr (hd r hr)).1 ht)
  links r hr p t i hp ht hi := by
    rw [Memory.tableAt_congr (hd r hr) (Nat.le_of_lt hp)] at ht
    have hdata := hd r hr t (Memory.isTable_of_path (Nat.le_of_lt hp) ht)
    rw [Memory.entryAt_congr hdata] at hi ⊢
    exact h.links r hr p t i hp ht hi
  unique r hr r' hr' p p' t hp hp' ht ht' := by
    rw [Memory.tableAt_congr (hd r hr) hp] at ht
    rw [Memory.tableAt_congr (hd r' hr') hp'] at ht'
    exact h.unique r hr r' hr' p p' t hp hp' ht ht'

theorem insert (h : Forest mem roots) (hroot : Forest mem {root})
    (apart : ∀ r ∈ roots, ∀ t, mem.IsTable root t → ¬ mem.IsTable r t) :
    Forest mem (insert root roots) where
  size_le := h.size_le
  inside := by
    refine (Finset.forall_mem_insert _ _ _).2 ⟨?_, h.inside⟩
    exact hroot.inside root (Finset.mem_singleton_self root)
  counted := by
    refine (Finset.forall_mem_insert _ _ _).2 ⟨?_, h.counted⟩
    exact hroot.counted root (Finset.mem_singleton_self root)
  links := by
    refine (Finset.forall_mem_insert _ _ _).2 ⟨?_, h.links⟩
    exact hroot.links root (Finset.mem_singleton_self root)
  unique r hr r' hr' p p' t hp hp' ht ht' := by
    have hself := Finset.mem_singleton_self root
    rcases Finset.mem_insert.1 hr with rfl | hold <;>
      rcases Finset.mem_insert.1 hr' with rfl | hold'
    · exact hroot.unique _ hself _ hself p p' t hp hp' ht ht'
    · exact absurd ⟨p', hp', ht'⟩ (apart r' hold' t ⟨p, hp, ht⟩)
    · exact absurd ⟨p, hp, ht⟩ (apart r hold t ⟨p', hp', ht'⟩)
    · exact h.unique r hold r' hold' p p' t hp hp' ht ht'

theorem root_eq (h : Forest mem roots) (hr : root ∈ roots) (hr' : r ∈ roots)
    (ht : mem.IsTable root t) (ht' : mem.IsTable r t) : root = r := by
  obtain ⟨p, hp, htp⟩ := ht
  obtain ⟨p', hp', htp'⟩ := ht'
  exact (h.unique root hr r hr' p p' t hp hp' htp htp').1

theorem isLink_eq (h : Forest mem roots) (hr : root ∈ roots) (hp : p.length < 3)
    (ht : mem.tableAt root p = some t) (i : TableIndex) :
    (mem.entryAt t i).isLink = (mem.entryAt t i).present := by
  cases hpres : (mem.entryAt t i).present with
  | false => rw [PageEntry.isLink, hpres, Bool.false_and]
  | true =>
    obtain ⟨u, hu, he⟩ := h.links root hr p t i hp ht hpres
    rw [he, PageEntry.isLink_linkTo hu]

/-- a link allows everything, so that the leaf decides -/
theorem permissions_link (h : Forest mem roots) (hr : root ∈ roots) (hp : p.length < 3)
    (ht : mem.tableAt root p = some t) {i : TableIndex}
    (hpres : (mem.entryAt t i).present = true) :
    (mem.entryAt t i).permissions = .userReadWrite := by
  obtain ⟨u, hu, he⟩ := h.links root hr p t i hp ht hpres
  rw [he, PageEntry.linkTo, PageEntry.permissions_mapping hu]
  rfl

/-! ## walks -/

theorem walk_from (h : Forest mem roots) (hr : root ∈ roots) (levels : List Level)
    (hp : p.length + levels.length ≤ 3) (ht : mem.tableAt root p = some t) :
    AddressSpace.walk mem va levels t .userReadWrite
      = .ok ((mem.tableAt t (levels.map fun level => level.index va)).map
          fun u => (u, .userReadWrite)) := by
  induction levels generalizing p t with
  | nil => rw [List.map_nil, Memory.tableAt_nil, Option.map_some, AddressSpace.walk]
  | cons level below ih =>
    rw [List.length_cons] at hp
    have hlt : p.length < 3 := by omega
    have hin := h.inside root hr t (Memory.isTable_of_path (Nat.le_of_lt hlt) ht)
    have hentry := Memory.entry_eq hin (level.index va)
    rw [List.map_cons, Memory.tableAt_cons]
    by_cases hl : (mem.entryAt t (level.index va)).isLink = true
    · have hpres : (mem.entryAt t (level.index va)).present = true := by
        rw [← h.isLink_eq hr hlt ht]
        exact hl
      have hstep : mem.tableAt root (p ++ [level.index va])
          = some (mem.entryAt t (level.index va)).frame := by
        rw [Memory.tableAt_concat, ht, Option.bind_some, Memory.link?_of_isLink hl]
      rw [AddressSpace.walk_of_isLink hentry hl, h.permissions_link hr hlt ht hpres,
        Permissions.inter_userReadWrite, Memory.link?_of_isLink hl, Option.bind_some]
      exact ih (by rw [List.length_append, List.length_singleton]; omega) hstep
    · rw [AddressSpace.walk_of_not hentry hl, Memory.link?_of_not hl, Option.bind_none,
        Option.map_none]

theorem walk_eq (h : Forest mem roots) (hr : root ∈ roots) (va : VirtualAddress) :
    AddressSpace.walk mem va Level.links root .userReadWrite
      = .ok ((mem.tableAt root (pagePath va.page.number.toNat)).map
          fun u => (u, .userReadWrite)) := by
  have hpath : pagePath va.page.number.toNat = Level.links.map fun level => level.index va :=
    List.map_congr_left fun level _ => (level.index_eq va).symm
  rw [hpath]
  exact h.walk_from hr Level.links (p := []) (Nat.le_refl 3) Memory.tableAt_nil

/-- a look-up finds what the leaf says -/
theorem lookup_eq (h : Forest mem roots) (hr : root ∈ roots) (va : VirtualAddress) :
    (AddressSpace.mk root).lookup mem va
      = .ok ((mem.pageAt root va.page.number.toNat).map fun (f, perms) => ⟨va, f, perms⟩) := by
  have hwalk := h.walk_eq hr va
  unfold AddressSpace.lookup Memory.pageAt
  cases ht : mem.tableAt root (pagePath va.page.number.toNat) with
  | none =>
    rw [ht, Option.map_none] at hwalk
    simp only [hwalk, Memory.leafAt_of_none ht, PageEntry.target_empty, Option.map_none, bind,
      Except.bind, pure, Except.pure]
  | some t =>
    have hin := h.inside root hr t (Memory.isTable_of_path (Nat.le_of_eq (length_pagePath _)) ht)
    rw [ht, Option.map_some] at hwalk
    simp only [hwalk, Memory.leafAt_of_table ht, PageEntry.target, Memory.entry_eq hin,
      Level.index_eq, bind, Except.bind, pure, Except.pure]
    by_cases hpres : (mem.entryAt t (Level.pt.indexOf va.page.number.toNat)).present = true
    · simp only [if_pos hpres, PageEntry.permissions, Permissions.inter_of, Option.map_some]
    · simp only [if_neg hpres, Option.map_none]

end Forest

/-! ## empty trees -/

section Empty

variable {mem : Memory} {r f : Frame}

theorem Memory.path_of_empty (hempty : ∀ i, mem.entryAt r i = .empty) {q : List TableIndex}
    {t : Frame} (hq : mem.tableAt r q = some t) : q = [] := by
  cases q with
  | nil => rfl
  | cons i q =>
    rw [Memory.tableAt_cons_of_none (Memory.link?_of_empty (hempty i))] at hq
    exact absurd hq.symm (Option.some_ne_none t)

/-- a table without links is a tree by itself -/
theorem Memory.isTable_of_empty (hempty : ∀ i, mem.entryAt r i = .empty) :
    mem.IsTable r f ↔ f = r := by
  constructor
  · rintro ⟨q, -, hq⟩
    obtain rfl := Memory.path_of_empty hempty hq
    exact (Option.some.inj hq).symm
  · rintro rfl
    exact Memory.isTable_root

theorem Forest.of_empty (hempty : ∀ i, mem.entryAt r i = .empty)
    (hsize : mem.contents.size ≤ 2 ^ 40) (hin : mem.hasFrame r = true) (hone : mem.count r = 1) :
    Forest mem {r} := by
  refine ⟨hsize, ?_, ?_, ?_, ?_⟩
  · intro r' hr' t ht
    obtain rfl := Finset.mem_singleton.1 hr'
    obtain rfl := (Memory.isTable_of_empty hempty).1 ht
    exact hin
  · intro r' hr' t ht
    obtain rfl := Finset.mem_singleton.1 hr'
    obtain rfl := (Memory.isTable_of_empty hempty).1 ht
    exact hone
  · intro r' hr' q t i _ hq hpres
    obtain rfl := Finset.mem_singleton.1 hr'
    obtain rfl := Memory.path_of_empty hempty hq
    obtain rfl := Option.some.inj hq
    rw [hempty, PageEntry.present_empty] at hpres
    exact absurd hpres Bool.false_ne_true
  · intro r₁ hr₁ r₂ hr₂ q q' t _ _ hq hq'
    obtain rfl := Finset.mem_singleton.1 hr₁
    obtain rfl := Finset.mem_singleton.1 hr₂
    exact ⟨rfl, (Memory.path_of_empty hempty hq).trans (Memory.path_of_empty hempty hq').symm⟩

theorem Memory.pageAt_of_empty (hempty : ∀ i, mem.entryAt r i = .empty) (n : Nat) :
    mem.pageAt r n = none := by
  rw [Memory.pageAt]
  cases hu : mem.tableAt r (pagePath n) with
  | none => rw [Memory.leafAt_of_none hu, PageEntry.target_empty]
  | some u =>
    have hur := (Memory.isTable_of_empty hempty).1
      (Memory.isTable_of_path (Nat.le_of_eq (length_pagePath n)) hu)
    rw [Memory.leafAt_of_table hu, hur, hempty, PageEntry.target_empty]

end Empty

end PagedKernel
