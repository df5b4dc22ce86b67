import PagedKernel.Paging.TableWalk
import PagedKernel.Proofs.Ends
import PagedKernel.Proofs.Paging.Forest

/-!
# The tables below a root

What `AddressSpace.tables` finds, as a recursion over the levels, and as a list without repetition.

* `Memory.preorder`            the tables below a table, each before the tables below it
* `Memory.Reaches`             everything that is looked at lies in memory
* `TableWalk.Yields`           what a walk gives, asked for one table after another
* `TableWalk.yields_preorder`  the walk with a stack finds the same, and always ends
* `Memory.mem_preorder`        a frame is found if some path leads to it
* `Forest.nodup_preorder`      in a forest no frame is found twice
-/

namespace PagedKernel

/-- the levels below a level, from the top -/
def Level.lower : Level → List Level
  | pml4 => [pdpt, pd, pt]
  | pdpt => [pd, pt]
  | pd => [pt]
  | pt => []

theorem Level.lower_eq_nil {level : Level} (h : level.next? = none) : level.lower = [] := by
  cases level
  case pt => rfl
  all_goals cases h

theorem Level.lower_eq_cons {level below : Level} (h : level.next? = some below) :
    level.lower = below :: below.lower := by
  cases level <;> cases h <;> rfl

/-- one entry of a level covers all entries of the next -/
theorem Level.shift_of_next? {level below : Level} (h : level.next? = some below) :
    2 ^ level.shift = 512 * 2 ^ below.shift := by
  cases level <;> cases h <;> rfl

/-- no address below a table wraps around -/
theorem Level.add_span {level : Level} {va : UInt64} {i : Nat}
    (hrange : va.toNat + 512 * 2 ^ level.shift ≤ 2 ^ 48) (hi : i < 512) :
    Word.add va (UInt64.ofNat i * level.span) = .ok (va + UInt64.ofNat i * level.span) ∧
      (va + UInt64.ofNat i * level.span).toNat = va.toNat + i * 2 ^ level.shift := by
  have hmul : i * 2 ^ level.shift ≤ 511 * 2 ^ level.shift := Nat.mul_le_mul_right _ (by omega)
  have hprod : (UInt64.ofNat i * level.span).toNat = i * 2 ^ level.shift := by
    have hsmall : i % 2 ^ 64 = i := Nat.mod_eq_of_lt (by omega)
    rw [UInt64.toNat_mul, Level.toNat_span, UInt64.toNat_ofNat', hsmall]
    exact Nat.mod_eq_of_lt (by omega)
  constructor
  · apply Word.add_of_lt
    rw [hprod]
    omega
  · rw [UInt64.toNat_add, hprod]
    exact Nat.mod_eq_of_lt (by omega)

/-- the addresses under one entry are those of a table of the next level -/
theorem Level.range_below {level below : Level} (h : level.next? = some below) {va i : Nat}
    (hrange : va + 512 * 2 ^ level.shift ≤ 2 ^ 48) (hi : i < 512) :
    va + i * 2 ^ level.shift + 512 * 2 ^ below.shift ≤ 2 ^ 48 := by
  have hmul : i * 2 ^ level.shift + 2 ^ level.shift ≤ 512 * 2 ^ level.shift := by
    rw [← Nat.succ_mul]
    exact Nat.mul_le_mul_right _ hi
  rw [← Level.shift_of_next? h]
  omega

namespace Memory

variable {mem : Memory} {t u : Frame} {i : TableIndex} {lower : List Level} {level : Level}

/-- what is found at entry `i` of a table that covers the addresses from `va` on: the table that is
linked there, and then what `sub` finds below it -/
def found (mem : Memory) (sub : UInt64 → Frame → List TableFrame) (level next : Level)
    (va : UInt64) (t : Frame) (i : TableIndex) : List TableFrame :=
  (mem.link? t i).elim [] fun u =>
    ⟨⟨va + UInt64.ofNat i.val * level.span⟩, next, u⟩
      :: sub (va + UInt64.ofNat i.val * level.span) u

/-- the tables below the table in `t`, which covers the addresses from `va` on; `lower` are the
levels below its level -/
def preorder (mem : Memory) : List Level → Level → UInt64 → Frame → List TableFrame
  | [], _, _, _ => []
  | next :: lower, level, va, t =>
    (List.finRange 512).flatMap (mem.found (preorder mem lower next) level next va t)

theorem found_of_some {sub : UInt64 → Frame → List TableFrame} {next : Level} {va : UInt64}
    (h : mem.link? t i = some u) :
    mem.found sub level next va t i
      = ⟨⟨va + UInt64.ofNat i.val * level.span⟩, next, u⟩
        :: sub (va + UInt64.ofNat i.val * level.span) u := by
  rw [found, h, Option.elim_some]

theorem found_of_none {sub : UInt64 → Frame → List TableFrame} {next : Level} {va : UInt64}
    (h : mem.link? t i = none) : mem.found sub level next va t i = [] := by
  rw [found, h, Option.elim_none]

/-- everything that a walk of `t` looks at lies in memory; `lower` are the levels below -/
def Reaches (mem : Memory) : List Level → Frame → Prop
  | [], _ => True
  | _ :: lower, t => mem.hasFrame t = true ∧ ∀ i u, mem.link? t i = some u → Reaches mem lower u

end Memory

/-! ## the walk with a stack -/

/-- what is still to be found below a table that has been looked at in part -/
def PendingTable.rest (mem : Memory) (p : PendingTable) : List TableFrame :=
  match p.level.lower with
  | [] => []
  | next :: lower =>
    ((List.finRange 512).drop p.next).flatMap
      (mem.found (mem.preorder lower next) p.level next p.va p.frame)

/-- a table whose entries can all be looked at, and which covers addresses of 48 bits -/
structure PendingTable.Fits (mem : Memory) (p : PendingTable) : Prop where
  reaches : mem.Reaches p.level.lower p.frame
  range : p.va.toNat + 512 * 2 ^ p.level.shift ≤ 2 ^ 48

namespace PendingTable

variable {mem : Memory} {p : PendingTable} {below : Level}

theorem rest_of_none (h : p.level.next? = none) : p.rest mem = [] := by
  rw [rest, Level.lower_eq_nil h]

theorem rest_of_some (h : p.level.next? = some below) :
    p.rest mem = ((List.finRange 512).drop p.next).flatMap
      (mem.found (mem.preorder below.lower below) p.level below p.va p.frame) := by
  rw [rest, Level.lower_eq_cons h]

theorem rest_of_le (h : 512 ≤ p.next) : p.rest mem = [] := by
  cases hb : p.level.next? with
  | none => exact rest_of_none hb
  | some below =>
    have : (List.finRange 512).length ≤ p.next := by
      rw [List.length_finRange]
      exact h
    rw [rest_of_some hb, List.drop_eq_nil_of_le this, List.flatMap_nil]

theorem rest_of_lt (hb : p.level.next? = some below) (h : p.next < 512) :
    p.rest mem = mem.found (mem.preorder below.lower below) p.level below p.va p.frame ⟨p.next, h⟩
      ++ { p with next := p.next + 1 }.rest mem := by
  have hlen : p.next < (List.finRange 512).length := by
    rw [List.length_finRange]
    exact h
  have hrest : { p with next := p.next + 1 }.rest mem = _ := rest_of_some hb
  rw [rest_of_some hb, hrest, List.drop_eq_getElem_cons hlen, List.flatMap_cons,
    List.getElem_finRange]
  rfl

theorem rest_fresh (mem : Memory) (frame : Frame) (level : Level) (va : UInt64) :
    (PendingTable.mk frame level va 0).rest mem = mem.preorder level.lower level va frame := by
  cases hb : level.next? with
  | none => rw [rest_of_none hb, Level.lower_eq_nil hb, Memory.preorder]
  | some below => rw [rest_of_some hb, Level.lower_eq_cons hb, Memory.preorder, List.drop_zero]

theorem Fits.add_eq (h : p.Fits mem) (hlt : p.next < 512) :
    Word.add p.va (UInt64.ofNat p.next * p.level.span)
      = .ok (p.va + UInt64.ofNat p.next * p.level.span) ∧
    (p.va + UInt64.ofNat p.next * p.level.span).toNat
      = p.va.toNat + p.next * 2 ^ p.level.shift :=
  Level.add_span h.range hlt

theorem Fits.step (h : p.Fits mem) : { p with next := p.next + 1 }.Fits mem :=
  ⟨h.reaches, h.range⟩

theorem Fits.child (h : p.Fits mem) (hb : p.level.next? = some below) (hlt : p.next < 512)
    {u : Frame} (hu : mem.link? p.frame ⟨p.next, hlt⟩ = some u) :
    (PendingTable.mk u below (p.va + UInt64.ofNat p.next * p.level.span) 0).Fits mem := by
  have hreaches := h.reaches
  have hrange := h.range
  rw [Level.lower_eq_cons hb] at hreaches
  refine ⟨hreaches.2 _ u hu, ?_⟩
  show (p.va + UInt64.ofNat p.next * p.level.span).toNat + 512 * 2 ^ below.shift ≤ 2 ^ 48
  rw [(h.add_eq hlt).2]
  exact Level.range_below hb hrange hlt

end PendingTable

namespace TableWalk

variable {mem : Memory} {w w' : TableWalk}

/-- what a walk is still to find -/
def rest (mem : Memory) (w : TableWalk) : List TableFrame :=
  w.pending.flatMap fun p => p.rest mem

theorem rest_cons (p : PendingTable) (ps : List PendingTable) :
    (TableWalk.mk (p :: ps)).rest mem = p.rest mem ++ (TableWalk.mk ps).rest mem :=
  List.flatMap_cons

/-- the next table is the first of those to be found -/
theorem next?_spec (w : TableWalk) (h : ∀ p ∈ w.pending, p.Fits mem) :
    w.next? mem = .ok none ∧ w.rest mem = [] ∨
      ∃ t w', w.next? mem = .ok (some (t, w')) ∧ w.rest mem = t :: w'.rest mem ∧
        ∀ p ∈ w'.pending, p.Fits mem := by
  fun_induction next? mem w with
  | case1 => exact .inl ⟨rfl, rfl⟩
  | case2 top ps hnone ih =>
    rw [rest_cons, PendingTable.rest_of_none hnone, List.nil_append]
    exact ih fun p hp => h p (List.mem_cons_of_mem _ hp)
  | case3 top ps below hbelow hlt ih =>
    obtain ⟨hfit, hps⟩ := List.forall_mem_cons.1 h
    have hreaches := hfit.reaches
    rw [Level.lower_eq_cons hbelow] at hreaches
    have hentry := Memory.entry_eq hreaches.1 ⟨top.next, hlt⟩
    rw [rest_cons, PendingTable.rest_of_lt hbelow hlt, hentry, ok_bind]
    have hchild := fun u => hfit.child (u := u) hbelow hlt
    by_cases hl : (mem.entryAt top.frame ⟨top.next, hlt⟩).isLink = true
    · have hlink := Memory.link?_of_isLink hl
      have hnew := hchild _ hlink
      rw [Memory.found_of_some hlink]
      rw [if_pos hl, (hfit.add_eq hlt).1, ok_bind]
      right
      split
      · next hpt =>
        refine ⟨_, _, rfl, ?_, List.forall_mem_cons.2 ⟨hfit.step, hps⟩⟩
        rw [rest_cons, hpt, Level.lower, Memory.preorder]
        rfl
      · refine ⟨_, _, rfl, ?_, List.forall_mem_cons.2 ⟨hnew, List.forall_mem_cons.2
          ⟨hfit.step, hps⟩⟩⟩
        rw [rest_cons, rest_cons, PendingTable.rest_fresh]
        simp only [List.cons_append, List.append_assoc]
    · rw [Memory.found_of_none (Memory.link?_of_not hl), List.nil_append, ← rest_cons]
      have hnext := ih (List.forall_mem_cons.2 ⟨hfit.step, hps⟩)
      rw [if_neg hl]
      exact hnext
  | case4 top ps below hbelow hlt ih =>
    rw [rest_cons, PendingTable.rest_of_le (by omega), List.nil_append]
    exact ih fun p hp => h p (List.mem_cons_of_mem _ hp)

theorem toList_of_none (h : w.next? mem = .ok none) : w.toList mem = .ok [] := by
  rw [toList]
  split
  · next hw =>
    rw [h] at hw
    cases hw
  · rfl
  · next hw =>
    rw [h] at hw
    cases hw

theorem toList_of_some {t : TableFrame} (h : w.next? mem = .ok (some (t, w'))) :
    w.toList mem = (do return t :: (← w'.toList mem)) := by
  rw [toList]
  split
  · next hw =>
    rw [h] at hw
    cases hw
  · next hw =>
    rw [h] at hw
    cases hw
  · next hw =>
    rw [h] at hw
    cases hw
    rfl

/-- a walk that is asked for the next table until there is none gives `ts`, and ends -/
inductive Yields (mem : Memory) : TableWalk → List TableFrame → Prop
  | done {w : TableWalk} (h : w.next? mem = .ok none) : Yields mem w []
  | item {w w' : TableWalk} {t : TableFrame} {ts : List TableFrame}
    (h : w.next? mem = .ok (some (t, w'))) (rest : Yields mem w' ts) : Yields mem w (t :: ts)

theorem Yields.toList_eq {ts : List TableFrame} (h : w.Yields mem ts) :
    w.toList mem = .ok ts := by
  induction h with
  | done h => exact toList_of_none h
  | item h _ ih => rw [toList_of_some h, ih, ok_bind, ok_pure]

/-- every table that is found leaves less to do, so a walk ends -/
theorem yields_rest (w : TableWalk) (h : ∀ p ∈ w.pending, p.Fits mem) :
    w.Yields mem (w.rest mem) := by
  induction hn : w.weight using Nat.strongRecOn generalizing w with
  | ind n ih =>
    rcases next?_spec w h with ⟨hnone, hrest⟩ | ⟨t, w', hsome, hrest, hfits⟩
    · rw [hrest]
      exact .done hnone
    · have hless := weight_next? hsome
      rw [hn] at hless
      rw [hrest]
      exact .item hsome (ih _ hless w' hfits rfl)

end TableWalk

theorem TableWalk.rest_start (mem : Memory) (space : AddressSpace) :
    (TableWalk.start space).rest mem = mem.preorder Level.pml4.lower .pml4 0 space.root := by
  have hfresh := PendingTable.rest_fresh mem space.root .pml4 0
  rw [start, rest_cons, hfresh, rest, List.flatMap_nil, List.append_nil]

/-- a walk of a space finds what the recursion finds -/
theorem TableWalk.yields_preorder {mem : Memory} {space : AddressSpace}
    (h : mem.Reaches Level.pml4.lower space.root) :
    (TableWalk.start space).Yields mem (mem.preorder Level.pml4.lower .pml4 0 space.root) := by
  have hfits : ∀ p ∈ (TableWalk.start space).pending, p.Fits mem := by
    intro p hp
    obtain rfl := List.mem_singleton.1 hp
    have hrange : (0 : UInt64).toNat + 512 * 2 ^ Level.pml4.shift ≤ 2 ^ 48 := by decide
    exact ⟨h, hrange⟩
  rw [← rest_start]
  exact yields_rest _ hfits

/-- the tables of a space are those that the recursion finds -/
theorem AddressSpace.tables_eq {mem : Memory} {space : AddressSpace}
    (h : mem.Reaches Level.pml4.lower space.root) :
    space.tables mem = .ok (mem.preorder Level.pml4.lower .pml4 0 space.root) :=
  (TableWalk.yields_preorder h).toList_eq

/-! ## frames and paths -/

namespace Memory

variable {mem : Memory} {t u : Frame} {i : TableIndex} {lower : List Level} {level : Level}
  {va : UInt64}

theorem preorder_congr {mem' : Memory} (h : ∀ f, mem'.data f = mem.data f) :
    mem'.preorder lower level va t = mem.preorder lower level va t := by
  induction lower generalizing level va t with
  | nil => rw [preorder, preorder]
  | cons next lower ih =>
    rw [preorder, preorder]
    congr 1
    funext i
    unfold found
    rw [link?_congr (entryAt_congr (h t) i)]
    congr 1
    funext u
    rw [ih]

/-- what is found at an entry lies at the ends of the paths that start with it, if it is so below -/
theorem mem_found {next : Level}
    (hbelow : ∀ va v, u ∈ (mem.preorder lower next va v).map TableFrame.frame ↔
      ∃ p, p ≠ [] ∧ p.length ≤ lower.length ∧ mem.tableAt v p = some u) :
    u ∈ (mem.found (mem.preorder lower next) level next va t i).map TableFrame.frame ↔
      ∃ p, p.length ≤ lower.length ∧ mem.tableAt t (i :: p) = some u := by
  cases hlink : mem.link? t i with
  | none =>
    rw [found_of_none hlink, List.map_nil]
    refine iff_of_false List.not_mem_nil ?_
    rintro ⟨p, -, hp⟩
    rw [tableAt_cons_of_none hlink] at hp
    cases hp
  | some v =>
    have hstep := tableAt_cons_of_some hlink
    rw [found_of_some hlink, List.map_cons, List.mem_cons, hbelow]
    constructor
    · rintro (rfl | ⟨p, -, hp, hpu⟩)
      · exact ⟨[], Nat.zero_le _, (hstep []).trans tableAt_nil⟩
      · exact ⟨p, hp, (hstep p).trans hpu⟩
    · rintro ⟨p, hp, hpu⟩
      rw [hstep] at hpu
      by_cases hnil : p = []
      · subst hnil
        rw [tableAt_nil] at hpu
        exact .inl (Option.some.inj hpu).symm
      · exact .inr ⟨p, hnil, hp, hpu⟩

theorem mem_preorder :
    u ∈ (mem.preorder lower level va t).map TableFrame.frame ↔
      ∃ p, p ≠ [] ∧ p.length ≤ lower.length ∧ mem.tableAt t p = some u := by
  induction lower generalizing level va t with
  | nil =>
    constructor
    · intro h
      rw [preorder, List.map_nil] at h
      exact absurd h List.not_mem_nil
    · rintro ⟨p, hne, hp, -⟩
      exact absurd (List.eq_nil_of_length_eq_zero (Nat.le_zero.1 hp)) hne
  | cons next lower ih =>
    rw [preorder, List.map_flatMap, List.mem_flatMap]
    constructor
    · rintro ⟨i, -, hu⟩
      obtain ⟨p, hp, hpu⟩ := (mem_found fun _ _ => ih).1 hu
      exact ⟨i :: p, List.cons_ne_nil _ _, Nat.succ_le_succ hp, hpu⟩
    · rintro ⟨p, hne, hp, hpu⟩
      cases p with
      | nil => exact absurd rfl hne
      | cons i p =>
        exact ⟨i, List.mem_finRange i,
          (mem_found fun _ _ => ih).2 ⟨p, Nat.le_of_succ_le_succ hp, hpu⟩⟩

/-- where every path leads to a frame of its own, no frame is found twice -/
theorem nodup_preorder
    (h : ∀ p p' u, p.length ≤ lower.length → p'.length ≤ lower.length →
      mem.tableAt t p = some u → mem.tableAt t p' = some u → p = p') :
    ((mem.preorder lower level va t).map TableFrame.frame).Nodup := by
  induction lower generalizing level va t with
  | nil =>
    rw [preorder, List.map_nil]
    exact List.nodup_nil
  | cons next lower ih =>
    rw [preorder, List.map_flatMap, List.nodup_flatMap]
    constructor
    · intro i _
      cases hlink : mem.link? t i with
      | none =>
        rw [found_of_none hlink, List.map_nil]
        exact List.nodup_nil
      | some v =>
        have hstep := tableAt_cons_of_some hlink
        rw [found_of_some hlink, List.map_cons, List.nodup_cons]
        constructor
        · intro hv
          obtain ⟨p, hne, hp, hpv⟩ := mem_preorder.1 hv
          have := h [i] (i :: p) v (Nat.succ_le_succ (Nat.zero_le _)) (Nat.succ_le_succ hp)
            ((hstep []).trans tableAt_nil) ((hstep p).trans hpv)
          exact hne (List.cons.inj this).2.symm
        · refine ih fun p p' u hp hp' hu hu' => ?_
          have := h (i :: p) (i :: p') u (Nat.succ_le_succ hp) (Nat.succ_le_succ hp')
            ((hstep p).trans hu) ((hstep p').trans hu')
          exact (List.cons.inj this).2
    · refine (List.nodup_finRange 512).pairwise_of_forall_ne fun i _ j _ hne => ?_
      rw [Function.onFun, List.disjoint_left]
      intro u hu hu'
      obtain ⟨p, hp, hpu⟩ := (mem_found fun _ _ => mem_preorder).1 hu
      obtain ⟨p', hp', hpu'⟩ := (mem_found fun _ _ => mem_preorder).1 hu'
      have := h (i :: p) (j :: p') u (Nat.succ_le_succ hp) (Nat.succ_le_succ hp') hpu hpu'
      exact hne (List.cons.inj this).1

end Memory

namespace Forest

variable {mem : Memory} {roots : Finset Frame} {root : Frame}

theorem reaches_from (h : Forest mem roots) (hroot : root ∈ roots) (lower : List Level)
    {p : List TableIndex} {t : Frame} (hp : p.length + lower.length ≤ 3)
    (ht : mem.tableAt root p = some t) : mem.Reaches lower t := by
  induction lower generalizing p t with
  | nil => exact trivial
  | cons next lower ih =>
    rw [List.length_cons] at hp
    refine ⟨h.inside root hroot t (Memory.isTable_of_path (by omega) ht), fun i u hu => ?_⟩
    refine ih (p := p ++ [i]) ?_ ?_
    · rw [List.length_append, List.length_singleton]
      omega
    · rw [Memory.tableAt_concat, ht, Option.bind_some, hu]

theorem tables_eq (h : Forest mem roots) (hroot : root ∈ roots) :
    (AddressSpace.mk root).tables mem = .ok (mem.preorder Level.pml4.lower .pml4 0 root) :=
  AddressSpace.tables_eq (h.reaches_from hroot _ (p := []) (Nat.le_refl 3) Memory.tableAt_nil)

theorem nodup_preorder (h : Forest mem roots) (hroot : root ∈ roots) :
    ((mem.preorder Level.pml4.lower .pml4 0 root).map TableFrame.frame).Nodup :=
  Memory.nodup_preorder fun p p' u hp hp' hu hu' =>
    (h.unique root hroot root hroot p p' u hp hp' hu hu').2

/-- the root and the frames that are found are the tables of the tree -/
theorem mem_preorder_iff (h : Forest mem roots) (hroot : root ∈ roots) (u : Frame) :
    u ∈ (mem.preorder Level.pml4.lower .pml4 0 root).map TableFrame.frame ↔
      mem.IsTable root u ∧ u ≠ root := by
  rw [Memory.mem_preorder]
  constructor
  · rintro ⟨p, hne, hp, hu⟩
    refine ⟨⟨p, hp, hu⟩, ?_⟩
    rintro rfl
    exact hne (h.unique u hroot u hroot p [] u hp (Nat.zero_le 3) hu Memory.tableAt_nil).2
  · rintro ⟨⟨p, hp, hu⟩, hne⟩
    refine ⟨p, ?_, hp, hu⟩
    rintro rfl
    exact hne (Option.some.inj hu).symm

end Forest

end PagedKernel
