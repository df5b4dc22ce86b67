import Mathlib.Algebra.Order.BigOperators.Group.List
import Mathlib.Algebra.Order.Ring.Nat
import PagedKernel.Proofs.Paging.Built
import PagedKernel.Proofs.Paging.Preorder

/-!
# What a walk enumerates

The walk of the tables of a space, with its stack of tables that are not finished, against the
enumeration as it is told: entry by entry, a table before the tables below it.

* `Memory.enumerate`               the enumeration, with addresses as plain numbers
* `Memory.map_place_preorder`      no address of the recursion wraps around
* `Memory.length_preorder_le`      so many tables there are at most
* `AddressSpace.walk_enumerates`   a walk gives the enumeration and ends, whatever memory holds
-/

namespace PagedKernel

/-- what is told of a table: the first address that it covers, its level and its frame -/
def TableFrame.place (t : TableFrame) : Nat × Level × Frame := (t.va.value.toNat, t.level, t.frame)

theorem Level.next?_of_lower {level next : Level} {lower : List Level}
    (h : level.lower = next :: lower) : level.next? = some next ∧ next.lower = lower := by
  cases level <;> cases h <;> exact ⟨rfl, rfl⟩

/-- as many tables as there can be below one with `n` levels below its own -/
def tablesBelow : Nat → Nat
  | 0 => 0
  | n + 1 => 512 * (1 + tablesBelow n)

namespace Memory

variable {mem : Memory} {root t : Frame} {i : TableIndex} {lower : List Level}
  {level next : Level} {va : UInt64}

/-- the tables below the table in `t`, which covers the addresses from `va` on: for every entry, in
ascending order, that is present and maps no large page the table that it points to, with its level
and the first address that it covers, and then the tables below that one.  `lower` are the levels
below; the entries of a table of the last level are not looked at. -/
def enumerate (mem : Memory) : List Level → Level → Nat → Frame → List (Nat × Level × Frame)
  | [], _, _, _ => []
  | next :: lower, level, va, t =>
    (List.finRange 512).flatMap fun i =>
      let entry := mem.entryAt t i
      let start := va + i.val * 2 ^ level.shift
      if entry.present && !entry.largePage then
        (start, next, entry.frame) :: enumerate mem lower next start entry.frame
      else []

/-- the recursion on words finds what is enumerated: no address wraps around -/
theorem map_place_preorder (hlower : level.lower = lower)
    (hrange : va.toNat + 512 * 2 ^ level.shift ≤ 2 ^ 48) :
    (mem.preorder lower level va t).map TableFrame.place
      = mem.enumerate lower level va.toNat t := by
  induction lower generalizing level va t with
  | nil => rw [preorder, enumerate, List.map_nil]
  | cons next lower ih =>
    obtain ⟨hnext, hlower'⟩ := Level.next?_of_lower hlower
    rw [preorder, enumerate, List.map_flatMap]
    congr 1
    funext i
    have hstart := (Level.add_span hrange i.isLt).2
    by_cases hlink : (mem.entryAt t i).isLink = true
    · have hbelow := Level.range_below hnext hrange i.isLt
      rw [← hstart] at hbelow
      rw [found_of_some (link?_of_isLink hlink), List.map_cons, ih hlower' hbelow, hstart]
      rw [PageEntry.isLink] at hlink
      simp only [hlink, if_true, TableFrame.place, hstart]
    · rw [found_of_none (link?_of_not hlink), List.map_nil]
      rw [PageEntry.isLink] at hlink
      simp only [hlink, Bool.false_eq_true, if_false]

theorem length_preorder_le :
    (mem.preorder lower level va t).length ≤ tablesBelow lower.length := by
  induction lower generalizing level va t with
  | nil => exact Nat.zero_le _
  | cons next lower ih =>
    have hfound (i : TableIndex) :
        (mem.found (mem.preorder lower next) level next va t i).length
          ≤ 1 + tablesBelow lower.length := by
      cases hlink : mem.link? t i with
      | none =>
        rw [found_of_none hlink]
        exact Nat.zero_le _
      | some u =>
        rw [found_of_some hlink, List.length_cons, Nat.add_comm]
        exact Nat.add_le_add_left ih 1
    rw [preorder, List.length_flatMap, List.length_cons, tablesBelow]
    have hsum := List.sum_le_card_nsmul ((List.finRange 512).map fun i =>
      (mem.found (mem.preorder lower next) level next va t i).length)
      (1 + tablesBelow lower.length) (List.forall_mem_map.2 fun i _ => hfound i)
    rw [List.length_map, List.length_finRange, Nat.nsmul_eq_mul] at hsum
    exact hsum

/-- every table is of a level below -/
theorem level_of_mem_preorder {x : TableFrame} (hx : x ∈ mem.preorder lower level va t) :
    x.level ∈ lower := by
  induction lower generalizing level va t with
  | nil => cases hx
  | cons next lower ih =>
    rw [preorder, List.mem_flatMap] at hx
    obtain ⟨i, -, hx⟩ := hx
    cases hlink : mem.link? t i with
    | none =>
      rw [found_of_none hlink] at hx
      cases hx
    | some u =>
      rw [found_of_some hlink, List.mem_cons] at hx
      rcases hx with rfl | hx
      · exact List.mem_cons_self
      · exact List.mem_cons_of_mem _ (ih hx)

end Memory

namespace AddressSpace

/-- a walk of a space, asked for one table after another, gives the enumeration of the tables below
its root in order, and ends after at most `512 + 512 ^ 2 + 512 ^ 3` of them.  It only takes that the
tables that are looked at lie in memory: what they hold may be anything, and they may be linked in
circles or twice.  Each table is at the end of one, two or three links from the root, so neither the
root in its own place nor a frame that a page is mapped to is given.  In a space that was built the
tables below the root are given once each. -/
theorem walk_enumerates (space : AddressSpace) (mem : Memory)
    (h : mem.Reaches [.pdpt, .pd, .pt] space.root) :
    ∃ ts, (TableWalk.start space).Yields mem ts ∧ space.tables mem = .ok ts ∧
      ts.map TableFrame.place = mem.enumerate [.pdpt, .pd, .pt] .pml4 0 space.root ∧
      ts.length ≤ 512 + 512 ^ 2 + 512 ^ 3 ∧
      (∀ t ∈ ts, t.level ≠ .pml4 ∧ ∃ path, path ≠ [] ∧ path.length ≤ 3 ∧
        mem.tableAt space.root path = some t.frame) ∧
      ∀ m : Machine, m.toMemory = mem → space.Built m →
        (ts.map TableFrame.frame).Nodup ∧
        ∀ u, u ∈ ts.map TableFrame.frame ↔ mem.IsTable space.root u ∧ u ≠ space.root := by
  refine ⟨_, TableWalk.yields_preorder h, AddressSpace.tables_eq h,
    Memory.map_place_preorder rfl (by decide), Memory.length_preorder_le, fun t ht => ⟨?_, ?_⟩, ?_⟩
  · intro hroot
    have hmem := Memory.level_of_mem_preorder ht
    rw [hroot] at hmem
    exact absurd hmem (by decide)
  · exact Memory.mem_preorder.1 (List.mem_map_of_mem ht)
  · rintro m rfl hbuilt
    have hroot := hbuilt.tree.root_mem
    exact ⟨hbuilt.forest.nodup_preorder hroot, hbuilt.forest.mem_preorder_iff hroot⟩

theorem walk_enumerates_pages : ∃ (m : Machine) (space : AddressSpace), space.Built m ∧
    (m.pageAt space.root 0x400).isSome = true ∧ m.Reaches [.pdpt, .pd, .pt] space.root ∧
    ∃ ts, (TableWalk.start space).Yields m.toMemory ts ∧
      ts.map TableFrame.place = m.enumerate [.pdpt, .pd, .pt] .pml4 0 space.root ∧
      (ts.map TableFrame.frame).Nodup ∧
      ∀ u, u ∈ ts.map TableFrame.frame ↔ m.IsTable space.root u ∧ u ≠ space.root := by
  obtain ⟨m, space, f, g, hbuilt, -, -, -, -, -, hpages⟩ := exists_pages
  have hreaches : m.Reaches [.pdpt, .pd, .pt] space.root :=
    hbuilt.forest.reaches_from hbuilt.tree.root_mem _ (p := []) (Nat.le_refl 3) Memory.tableAt_nil
  obtain ⟨ts, hyields, -, hplaces, -, -, honce⟩ := walk_enumerates space m.toMemory hreaches
  obtain ⟨hnodup, hiff⟩ := honce m rfl hbuilt
  have hpage : m.pageAt space.root 0x400 = some (f, .userReadWrite) := hpages 0x400 (by decide)
  exact ⟨m, space, hbuilt, by rw [hpage]; rfl, hreaches, ts, hyields, hplaces, hnodup, hiff⟩

end AddressSpace

end PagedKernel
