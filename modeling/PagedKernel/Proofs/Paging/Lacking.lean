import Mathlib.Algebra.BigOperators.Group.Finset.Basic
import Mathlib.Algebra.Order.Floor.Div
import Mathlib.Data.Finset.Card
import Mathlib.Data.Finset.Union
import Mathlib.Data.Nat.Count
import PagedKernel.Proofs.Paging.Map

/-!
# What a tree lacks

The tables that are still to be made until each of some pages has all of its own.  To map one of the
pages makes those that the page lacks, and no others.

* `pathsTo n`             the paths of the tables that lead to page `n`, the root apart
* `card_biUnion_pathsTo`  how many lead to the pages below `n`
* `Memory.lacking`        how many tables a set of pages lacks
* `Memory.card_lacking`   of one page these are the tables that are missing
* `Memory.lacking_add`    a page that is mapped lacks nothing, and other tables are as they were
-/

namespace PagedKernel

/-- the paths of the tables that lead to page `n`, the root apart -/
def pathsTo (n : Nat) : Finset (List TableIndex) :=
  (Finset.range 3).image fun i => (pagePath n).take (i + 1)

theorem mem_pathsTo {n : Nat} {q : List TableIndex} :
    q ∈ pathsTo n ↔ q <+: pagePath n ∧ q ≠ [] := by
  have hlen := length_pagePath n
  rw [pathsTo, Finset.mem_image]
  constructor
  · rintro ⟨i, -, rfl⟩
    refine ⟨List.take_prefix _ _, fun hnil => ?_⟩
    have := congrArg List.length hnil
    rw [List.length_take, List.length_nil] at this
    omega
  · rintro ⟨hq, hne⟩
    have hle := hq.length_le
    have hpos := List.length_pos_of_ne_nil hne
    refine ⟨q.length - 1, Finset.mem_range.2 (by omega), ?_⟩
    rw [Nat.sub_add_cancel hpos]
    exact (List.prefix_iff_eq_take.1 hq).symm

theorem length_of_mem_pathsTo {n : Nat} {q : List TableIndex} (h : q ∈ pathsTo n) :
    q.length ≤ 3 :=
  Nat.le_trans (mem_pathsTo.1 h).1.length_le (Nat.le_of_eq (length_pagePath n))

/-! ## the tables of the first pages -/

/-- two pages have the tables down to some level in common if they lie in one block of that level -/
theorem take_pagePath_eq_iff {n k i : Nat} (hn : n < 2 ^ 36) (hk : k < 2 ^ 36) (hi : i < 3) :
    (pagePath n).take (i + 1) = (pagePath k).take (i + 1)
      ↔ n / 512 ^ (3 - i) = k / 512 ^ (3 - i) := by
  simp only [pagePath, Level.links, List.map_cons, List.map_nil, Level.indexOf, Level.shift]
  obtain rfl | rfl | rfl : i = 0 ∨ i = 1 ∨ i = 2 := by omega
  all_goals
    simp only [List.take_succ_cons, List.take_zero, List.cons.injEq, and_true, Fin.mk.injEq]
    omega

/-- so many tables of one level lead to the pages below `n`: one for each block that they reach -/
theorem card_image_take {n i : Nat} (hn : n ≤ 2 ^ 36) (hi : i < 3) :
    ((Finset.range n).image fun k => (pagePath k).take (i + 1)).card = n ⌈/⌉ 512 ^ (3 - i) := by
  generalize hd : 512 ^ (3 - i) = d
  have hpos : 0 < d := hd ▸ Nat.pow_pos (by decide)
  have hlt : ∀ {j}, j < n ⌈/⌉ d ↔ d * j < n := fun {j} => by
    rw [← not_le, ← not_le, ceilDiv_le_iff_le_mul hpos]
  have heq : ∀ {k k' : Nat}, k < n → k' < n →
      ((pagePath k).take (i + 1) = (pagePath k').take (i + 1) ↔ k / d = k' / d) := fun hk hk' =>
    hd ▸ take_pagePath_eq_iff (Nat.lt_of_lt_of_le hk hn) (Nat.lt_of_lt_of_le hk' hn) hi
  -- each block is told by its first page
  have hblocks : ((Finset.range n).image fun k => (pagePath k).take (i + 1))
      = (Finset.range (n ⌈/⌉ d)).image fun j => (pagePath (d * j)).take (i + 1) := by
    ext q
    rw [Finset.mem_image, Finset.mem_image]
    constructor
    · rintro ⟨k, hk, rfl⟩
      have hk := Finset.mem_range.1 hk
      have hfirst : d * (k / d) < n := Nat.lt_of_le_of_lt (Nat.mul_div_le k d) hk
      refine ⟨k / d, Finset.mem_range.2 (hlt.2 hfirst), (heq hfirst hk).2 ?_⟩
      rw [Nat.mul_div_cancel_left _ hpos]
    · rintro ⟨j, hj, rfl⟩
      exact ⟨d * j, Finset.mem_range.2 (hlt.1 (Finset.mem_range.1 hj)), rfl⟩
  rw [hblocks, Finset.card_image_of_injOn, Finset.card_range]
  intro j hj j' hj' hsame
  have hj := hlt.1 (Finset.mem_range.1 hj)
  have hj' := hlt.1 (Finset.mem_range.1 hj')
  rw [heq hj hj', Nat.mul_div_cancel_left _ hpos, Nat.mul_div_cancel_left _ hpos] at hsame
  exact hsame

/-- how many tables lead to the pages below `n`, by their levels -/
theorem card_biUnion_pathsTo {n : Nat} (hn : n ≤ 2 ^ 36) :
    ((Finset.range n).biUnion pathsTo).card = n ⌈/⌉ 2 ^ 27 + n ⌈/⌉ 2 ^ 18 + n ⌈/⌉ 2 ^ 9 := by
  have hlevels : (Finset.range n).biUnion pathsTo = (Finset.range 3).biUnion fun i =>
      (Finset.range n).image fun k => (pagePath k).take (i + 1) := by
    ext q
    simp only [pathsTo, Finset.mem_biUnion, Finset.mem_image]
    constructor
    · rintro ⟨k, hk, i, hi, hq⟩
      exact ⟨i, hi, k, hk, hq⟩
    · rintro ⟨i, hi, k, hk, hq⟩
      exact ⟨k, hk, i, hi, hq⟩
  rw [hlevels, Finset.card_biUnion]
  · rw [Finset.sum_congr rfl fun i hi => card_image_take hn (Finset.mem_range.1 hi),
      Finset.sum_range_succ, Finset.sum_range_succ, Finset.sum_range_one]
    rfl
  · -- paths of different lengths differ
    intro i hi j hj hne
    have hi := Finset.mem_range.1 hi
    have hj := Finset.mem_range.1 hj
    refine Finset.disjoint_left.2 fun q hq hq' => ?_
    obtain ⟨k, -, rfl⟩ := Finset.mem_image.1 hq
    obtain ⟨k', -, heq⟩ := Finset.mem_image.1 hq'
    have hlength := congrArg List.length heq
    rw [List.length_take, List.length_take, length_pagePath, length_pagePath] at hlength
    omega

namespace Memory

variable {mem mem' : Memory} {r t : Frame} {n : Nat} {pages : Finset Nat}

/-- how many tables the pages lack, those that several have in common counted once -/
def lacking (mem : Memory) (r : Frame) (pages : Finset Nat) : Nat :=
  ((pages.biUnion pathsTo).filter fun q => mem.tableAt r q = none).card

/-- a page that is mapped has all its tables -/
theorem tableAt_of_pageAt (h : mem.pageAt r n ≠ none) {q : List TableIndex}
    (hq : q <+: pagePath n) : mem.tableAt r q ≠ none := by
  intro hnone
  obtain ⟨rest, hrest⟩ := hq
  rw [pageAt, leafAt_of_none, PageEntry.target_empty] at h
  · exact h rfl
  · rw [← hrest, tableAt_append, hnone, Option.bind_none]

/-- the places on a path where there is no table -/
theorem count_missing (t : Frame) (p : List TableIndex) :
    Nat.count (fun i => mem.tableAt t (p.take (i + 1)) = none) p.length = mem.missing t p := by
  induction p generalizing t with
  | nil => rw [List.length_nil, Nat.count_zero, missing_nil]
  | cons i p ih =>
    rw [List.length_cons]
    cases hu : mem.link? t i with
    | none =>
      rw [missing_of_none hu]
      refine Nat.count_of_forall fun k _ => ?_
      rw [List.take_succ_cons, tableAt_cons_of_none hu]
    | some u =>
      have hfirst : ¬ mem.tableAt t ((i :: p).take (0 + 1)) = none := by
        rw [List.take_succ_cons, tableAt_cons_of_some hu, List.take_zero, tableAt_nil]
        exact Option.some_ne_none u
      have hrest : ∀ k, mem.tableAt t ((i :: p).take (k + 1 + 1)) = none ↔
          mem.tableAt u (p.take (k + 1)) = none := by
        intro k
        rw [List.take_succ_cons, tableAt_cons_of_some hu]
      rw [Nat.count_succ', if_neg hfirst, missing_of_some hu, ← ih u]
      simp only [hrest, Nat.add_zero]

/-- of one page these are the tables that are missing -/
theorem card_lacking (mem : Memory) (r : Frame) (n : Nat) :
    ((pathsTo n).filter fun q => mem.tableAt r q = none).card = mem.missing r (pagePath n) := by
  have hlen := length_pagePath n
  rw [← count_missing, Nat.count_eq_card_filter_range, pathsTo, Finset.filter_image, hlen]
  refine Finset.card_image_of_injOn fun i hi j hj heq => ?_
  have hi := Finset.mem_range.1 (Finset.mem_filter.1 hi).1
  have hj := Finset.mem_range.1 (Finset.mem_filter.1 hj).1
  have := congrArg List.length heq
  rw [List.length_take, List.length_take] at this
  omega

theorem missing_le_lacking (mem : Memory) (r : Frame) (hn : n ∈ pages) :
    mem.missing r (pagePath n) ≤ mem.lacking r pages := by
  rw [← card_lacking]
  exact Finset.card_le_card
    (Finset.filter_subset_filter _ (Finset.subset_biUnion_of_mem pathsTo hn))

/-- when a page is mapped, and tables were made for no other, the pages lack less by what the page
was missing -/
theorem lacking_add (hn : n ∈ pages) (hpage : mem'.pageAt r n ≠ none)
    (htables : ∀ q, q.length ≤ 3 → ¬ q <+: pagePath n → mem'.tableAt r q = mem.tableAt r q)
    (hgrown : ∀ q, q.length ≤ 3 → mem.tableAt r q ≠ none → mem'.tableAt r q ≠ none) :
    mem'.lacking r pages + mem.missing r (pagePath n) = mem.lacking r pages := by
  rw [← card_lacking, lacking, lacking, ← Finset.card_union_of_disjoint]
  · congr 1
    ext q
    rw [Finset.mem_union, Finset.mem_filter, Finset.mem_filter, Finset.mem_filter]
    constructor
    · rintro (⟨hq, hnone⟩ | ⟨hq, hnone⟩)
      · obtain ⟨k, -, hk⟩ := Finset.mem_biUnion.1 hq
        refine ⟨hq, ?_⟩
        by_contra hsome
        exact hgrown q (length_of_mem_pathsTo hk) hsome hnone
      · exact ⟨Finset.mem_biUnion.2 ⟨n, hn, hq⟩, hnone⟩
    · rintro ⟨hq, hnone⟩
      by_cases hpath : q <+: pagePath n
      · refine .inr ⟨mem_pathsTo.2 ⟨hpath, ?_⟩, hnone⟩
        rintro rfl
        cases tableAt_nil.symm.trans hnone
      · obtain ⟨k, -, hk⟩ := Finset.mem_biUnion.1 hq
        exact .inl ⟨hq, (htables q (length_of_mem_pathsTo hk) hpath).trans hnone⟩
  · rw [Finset.disjoint_left]
    intro q hq hq'
    exact tableAt_of_pageAt hpage (mem_pathsTo.1 (Finset.mem_filter.1 hq').1).1
      (Finset.mem_filter.1 hq).2

theorem lacking_congr (h : ∀ q, q.length ≤ 3 → mem'.tableAt r q = mem.tableAt r q) :
    mem'.lacking r pages = mem.lacking r pages := by
  unfold lacking
  congr 1
  refine Finset.filter_congr fun q hq => ?_
  obtain ⟨k, -, hk⟩ := Finset.mem_biUnion.1 hq
  rw [h q (length_of_mem_pathsTo hk)]

/-- an empty tree lacks all tables -/
theorem lacking_of_empty (h : ∀ i, mem.link? r i = none) :
    mem.lacking r pages = (pages.biUnion pathsTo).card := by
  unfold lacking
  congr 1
  refine Finset.filter_true_of_mem fun q hq => ?_
  obtain ⟨k, -, hk⟩ := Finset.mem_biUnion.1 hq
  match q, (mem_pathsTo.1 hk).2 with
  | i :: q, _ => exact tableAt_cons_of_none (h _) q

/-- where all tables are there, nothing is lacking -/
theorem lacking_eq_zero (h : ∀ n ∈ pages, mem.missing r (pagePath n) = 0) :
    mem.lacking r pages = 0 := by
  rw [lacking, Finset.card_eq_zero, Finset.filter_eq_empty_iff]
  intro q hq hnone
  obtain ⟨k, hk, hpath⟩ := Finset.mem_biUnion.1 hq
  have hzero := card_lacking mem r k
  rw [h k hk, Finset.card_eq_zero, Finset.filter_eq_empty_iff] at hzero
  exact hzero hpath hnone

end Memory

end PagedKernel
