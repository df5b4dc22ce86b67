import Mathlib.Data.Finset.Option
import PagedKernel.Process.Scan
import PagedKernel.Proofs.Ends

/-!
# The process table

* `ProcessTable.get?_update`      one slot changes
* `ProcessTable.roots`            the roots of the address spaces of all processes
* `ProcessTable.roots_of_set`     a process that gets an address space
* `scanFind_cases`                the search finds an answer, or there is none
* `FirstAfter`                    the first slot of some kind after another, going round the table
* `nextRunnable_first`            that is how the next process is chosen
* `ProcessTable.firstFree?_some`  the slot that the next fork takes
-/

namespace PagedKernel

/-- what a slot holds, the registers apart -/
def Process.life (p : Process) : Process := { p with registers := {} }

/-- the slot of a process that is gone -/
def Process.vacated (p : Process) : Process :=
  { p with space := none, state := .free, registers := {} }

theorem Process.isRunnable_iff {p : Process} : p.isRunnable = true ↔ p.state = .runnable :=
  beq_iff_eq

theorem Process.isVacant_iff {p : Process} :
    p.isVacant = true ↔ p.state = .free ∧ p.space = none := by
  rw [isVacant, Bool.and_eq_true, beq_iff_eq, Option.isNone_iff_eq_none]

namespace ProcessTable

variable {n : Nat} {t t' : ProcessTable n} {pid q : Nat} {p : Process} {r : Frame}
  {pids : Finset Pid}

/-! ## slots -/

theorem get?_update (change : Process → Process) :
    (t.update pid change).get? q = if pid = q then (t.get? q).map change else t.get? q := by
  have hget : ∀ u : ProcessTable n, u.get? q = u.slots.toArray[q]? := fun u =>
    Vector.getElem?_toArray.symm
  rw [hget, hget, update, Array.getElem?_modify]

theorem get?_update_self (change : Process → Process) (h : t.get? pid = some p) :
    (t.update pid change).get? pid = some (change p) := by
  rw [get?_update, if_pos rfl, h, Option.map_some]

theorem get?_update_of_ne (change : Process → Process) (h : q ≠ pid) :
    (t.update pid change).get? q = t.get? q := by
  rw [get?_update, if_neg (Ne.symm h)]

theorem ext_get? (h : ∀ q, t'.get? q = t.get? q) : t' = t := by
  obtain ⟨slots⟩ := t
  obtain ⟨slots'⟩ := t'
  congr 1
  refine Vector.ext fun q hq => ?_
  have hslot : slots'[q]? = slots[q]? := h q
  rw [Vector.getElem?_eq_getElem hq, Vector.getElem?_eq_getElem hq] at hslot
  exact Option.some.inj hslot

theorem update_update (change later : Process → Process) :
    (t.update pid change).update pid later = t.update pid fun p => later (change p) := by
  refine ext_get? fun q => ?_
  rw [get?_update, get?_update, get?_update]
  split
  · rw [Option.map_map]
    rfl
  · rfl

theorem update_comm (change later : Process → Process) (h : q ≠ pid) :
    (t.update pid change).update q later = (t.update q later).update pid change := by
  refine ext_get? fun j => ?_
  rw [get?_update, get?_update, get?_update, get?_update]
  split
  · next hq =>
    subst hq
    rw [if_neg h.symm, if_neg h.symm]
  · rfl

theorem update_congr {change change' : Process → Process}
    (h : ∀ p, t.get? pid = some p → change' p = change p) :
    t.update pid change' = t.update pid change := by
  refine ext_get? fun q => ?_
  rw [get?_update, get?_update]
  split
  · next hq =>
    subst hq
    cases hp : t.get? pid with
    | none => rfl
    | some p => rw [Option.map_some, Option.map_some, h p hp]
  · rfl

theorem lt_of_get? (h : t.get? pid = some p) : pid < n := by
  by_contra hge
  rw [get?, Vector.getElem?_eq_none (Nat.le_of_not_lt hge)] at h
  cases h

theorem exists_get? (h : pid < n) : ∃ p, t.get? pid = some p :=
  ⟨t.slots[pid], Vector.getElem?_eq_getElem h⟩

/-- what a table holds after one slot has changed is what that slot got, or was there before -/
theorem slot_cases {p' : Process} (hslot : t'.get? pid = some p)
    (hothers : ∀ q, q ≠ pid → t'.get? q = t.get? q) (hp' : t'.get? q = some p') :
    q = pid ∧ p' = p ∨ q ≠ pid ∧ t.get? q = some p' := by
  by_cases hq : q = pid
  · subst hq
    exact .inl ⟨rfl, Option.some.inj (hp'.symm.trans hslot)⟩
  · exact .inr ⟨hq, (hothers q hq).symm.trans hp'⟩

theorem get_of_get? (h : t.get? pid = some p) : t.get pid = .ok p := by
  rw [get, h]

theorem space?_of_get? (h : t.get? pid = some p) : t.space? pid = p.space := by
  rw [space?, h, Option.bind_some]

theorem get?_of_space? {s : AddressSpace} (h : t.space? pid = some s) :
    ∃ p, t.get? pid = some p ∧ p.space = some s :=
  Option.bind_eq_some_iff.1 h

theorem space?_congr (h : t'.get? q = t.get? q) : t'.space? q = t.space? q := by
  rw [space?, space?, h]

theorem space?_of_life (h : (t'.get? q).map Process.life = (t.get? q).map Process.life) :
    t'.space? q = t.space? q := by
  have hlife : ∀ u : ProcessTable n,
      u.space? q = ((u.get? q).map Process.life).bind Process.space := by
    intro u
    rw [space?]
    cases u.get? q <;> rfl
  rw [hlife, hlife, h]

theorem lt_of_space? {s : AddressSpace} (h : t.space? pid = some s) : pid < n := by
  obtain ⟨p, hp, -⟩ := get?_of_space? h
  exact lt_of_get? hp

theorem get?_empty (h : (empty n).get? pid = some p) :
    p.pid = pid ∧ p.state = .free ∧ p.space = none := by
  have hlt := lt_of_get? h
  rw [get?, empty, Vector.getElem?_eq_getElem hlt, Vector.getElem_ofFn] at h
  obtain rfl := Option.some.inj h
  exact ⟨rfl, rfl, rfl⟩

theorem space?_update {change : Process → Process} (h : ∀ p, (change p).space = p.space) :
    (t.update pid change).space? q = t.space? q := by
  rw [space?, space?, get?_update]
  split
  · cases t.get? q with
    | none => rfl
    | some p => rw [Option.map_some, Option.bind_some, Option.bind_some, h]
  · rfl

/-! ## roots -/

/-- the roots of the address spaces of `pids` -/
def rootsOf (t : ProcessTable n) (pids : Finset Pid) : Finset Frame :=
  (pids.image fun pid => (t.space? pid).map AddressSpace.root).eraseNone

/-- the roots of the address spaces of all processes -/
def roots (t : ProcessTable n) : Finset Frame := t.rootsOf (Finset.range n)

/-- no two processes have the same address space -/
def Distinct (t : ProcessTable n) : Prop :=
  ∀ pid q s, t.space? pid = some s → t.space? q = some s → pid = q

theorem mem_rootsOf : r ∈ t.rootsOf pids ↔ ∃ pid ∈ pids, t.space? pid = some ⟨r⟩ := by
  simp only [rootsOf, Finset.mem_eraseNone, Finset.mem_image, Option.map_eq_some_iff]
  constructor
  · rintro ⟨pid, hpid, s, hs, rfl⟩
    exact ⟨pid, hpid, hs⟩
  · rintro ⟨pid, hpid, hs⟩
    exact ⟨pid, hpid, _, hs, rfl⟩

theorem mem_roots : r ∈ t.roots ↔ ∃ pid, t.space? pid = some ⟨r⟩ := by
  rw [roots, mem_rootsOf]
  constructor
  · rintro ⟨pid, -, hs⟩
    exact ⟨pid, hs⟩
  · rintro ⟨pid, hs⟩
    exact ⟨pid, Finset.mem_range.2 (lt_of_space? hs), hs⟩

/-- where no slot has an address space there are no roots -/
theorem roots_eq_empty (h : ∀ pid, t.space? pid = none) : t.roots = ∅ := by
  rw [Finset.eq_empty_iff_forall_notMem]
  intro r hr
  obtain ⟨pid, hpid⟩ := mem_roots.1 hr
  cases (h pid).symm.trans hpid

theorem root_mem {s : AddressSpace} (h : t.space? pid = some s) : s.root ∈ t.roots :=
  mem_roots.2 ⟨pid, h⟩

theorem rootsOf_congr (h : ∀ pid ∈ pids, t'.space? pid = t.space? pid) :
    t'.rootsOf pids = t.rootsOf pids := by
  unfold rootsOf
  congr 1
  exact Finset.image_congr fun pid hpid => by rw [h pid hpid]

theorem roots_congr (h : ∀ pid, t'.space? pid = t.space? pid) : t'.roots = t.roots :=
  rootsOf_congr fun pid _ => h pid

theorem card_roots_le : t.roots.card ≤ n := by
  have himage := Finset.card_image_le (s := Finset.range n)
    (f := fun pid => (t.space? pid).map AddressSpace.root)
  rw [Finset.card_range] at himage
  exact Nat.le_trans (Finset.card_eraseNone_le _) himage

/-- the other processes than `pid` have other address spaces -/
theorem rootsOf_subset_erase {s : AddressSpace} (h : t.Distinct) (hs : t.space? pid = some s)
    (hpid : pid ∉ pids) : t.rootsOf pids ⊆ t.roots.erase s.root := by
  intro r hr
  obtain ⟨q, hq, hspace⟩ := mem_rootsOf.1 hr
  refine Finset.mem_erase.2 ⟨?_, mem_roots.2 ⟨q, hspace⟩⟩
  rintro rfl
  exact hpid (h q pid _ hspace hs ▸ hq)

theorem rootsOf_subset : t.rootsOf pids ⊆ t.roots := by
  intro r hr
  obtain ⟨q, -, hspace⟩ := mem_rootsOf.1 hr
  exact mem_roots.2 ⟨q, hspace⟩

theorem roots_of_set (hnone : t.space? pid = none) (hset : t'.space? pid = some ⟨r⟩)
    (hothers : ∀ q, q ≠ pid → t'.space? q = t.space? q) : t'.roots = insert r t.roots := by
  ext f
  rw [Finset.mem_insert, mem_roots, mem_roots]
  constructor
  · rintro ⟨q, hq⟩
    by_cases hpid : q = pid
    · subst hpid
      rw [hset] at hq
      exact .inl (congrArg AddressSpace.root (Option.some.inj hq)).symm
    · rw [hothers q hpid] at hq
      exact .inr ⟨q, hq⟩
  · rintro (rfl | ⟨q, hq⟩)
    · exact ⟨pid, hset⟩
    · refine ⟨q, ?_⟩
      rw [hothers q, hq]
      rintro rfl
      rw [hnone] at hq
      cases hq

/-- the new address space is nobody else's -/
theorem Distinct.of_set (h : t.Distinct) (hset : t'.space? pid = some ⟨r⟩)
    (hothers : ∀ q, q ≠ pid → t'.space? q = t.space? q) (hr : r ∉ t.roots) : t'.Distinct := by
  have hnew : ∀ q s, q ≠ pid → t'.space? q = some s → s ≠ ⟨r⟩ := by
    rintro q s hq hs rfl
    rw [hothers q hq] at hs
    exact hr (mem_roots.2 ⟨q, hs⟩)
  intro q q' s hq hq'
  by_cases hpid : q = pid <;> by_cases hpid' : q' = pid
  · rw [hpid, hpid']
  · subst hpid
    rw [hset] at hq
    exact absurd (Option.some.inj hq).symm (hnew q' s hpid' hq')
  · subst hpid'
    rw [hset] at hq'
    exact absurd (Option.some.inj hq').symm (hnew q s hpid hq)
  · rw [hothers q hpid] at hq
    rw [hothers q' hpid'] at hq'
    exact h q q' s hq hq'

/-- a process loses its address space, and the others keep theirs -/
theorem Distinct.of_remove (h : t.Distinct) (hnone : t'.space? pid = none)
    (hothers : ∀ q, q ≠ pid → t'.space? q = t.space? q) : t'.Distinct := by
  have hold : ∀ q s, t'.space? q = some s → t.space? q = some s := by
    intro q s hs
    by_cases hpid : q = pid
    · rw [hpid, hnone] at hs
      cases hs
    · rw [← hothers q hpid, hs]
  exact fun q q' s hq hq' => h q q' s (hold q s hq) (hold q' s hq')

/-! ## vacant slots -/

theorem mem_toList (h : p ∈ t.toList) : ∃ pid, t.get? pid = some p := by
  obtain ⟨i, hi, rfl⟩ := List.mem_iff_getElem.1 h
  have hlt : i < n := by
    rw [toList, Vector.length_toList] at hi
    exact hi
  refine ⟨i, ?_⟩
  rw [get?, Vector.getElem?_eq_getElem hlt]
  rfl

/-- the slot that the next fork takes is vacant, and not the kernel's; no other slot of a lower
number is vacant -/
theorem firstFree?_cases (hnumbered : ∀ pid p, t.get? pid = some p → p.pid = pid)
    (h : t.firstFree? = some pid) :
    (∃ p, t.get? pid = some p ∧ p.isVacant = true ∧ pid ≠ 0) ∧
      ∀ q p, q ≠ 0 → q < pid → t.get? q = some p → p.isVacant = false := by
  unfold firstFree? at h
  obtain ⟨p, hp, rfl⟩ := Option.map_eq_some_iff.1 h
  obtain ⟨hvacant, i, hi, hget, hbefore⟩ := List.find?_eq_some_iff_getElem.1 hp
  have hlen : t.toList.length = n := Vector.length_toList
  rw [List.length_drop, hlen] at hi
  have hslot : ∀ j (hj : j < i + 1),
      t.get? (1 + j) = some (t.toList.drop 1)[j] := by
    intro j hj
    have hlt : 1 + j < n := by omega
    rw [get?, Vector.getElem?_eq_getElem hlt, List.getElem_drop]
    rfl
  have hpid : p.pid = 1 + i :=
    hnumbered _ _ ((hslot i (Nat.lt_succ_self i)).trans (congrArg some hget))
  rw [hpid]
  refine ⟨⟨p, (hslot i (Nat.lt_succ_self i)).trans (congrArg some hget), hvacant, by omega⟩,
    fun q p' hq hlt hp' => ?_⟩
  obtain ⟨j, rfl⟩ : ∃ j, q = 1 + j := ⟨q - 1, by omega⟩
  have hfull := hbefore j (by omega)
  rw [Option.some.inj ((hslot j (by omega)).symm.trans hp'), Bool.not_eq_true'] at hfull
  exact hfull

theorem firstFree?_some (hnumbered : ∀ pid p, t.get? pid = some p → p.pid = pid)
    (h : t.firstFree? = some pid) : ∃ p, t.get? pid = some p ∧ p.isVacant = true ∧ pid ≠ 0 :=
  (firstFree?_cases hnumbered h).1

/-- a fork takes some slot as long as one but the kernel's is vacant -/
theorem firstFree?_ne_none (hp : t.get? pid = some p) (hvacant : p.isVacant = true)
    (hzero : pid ≠ 0) : t.firstFree? ≠ none := by
  intro hnone
  have hall := List.find?_eq_none.1 (Option.map_eq_none_iff.1 hnone)
  have hmem : p ∈ t.toList.drop 1 := by
    refine List.mem_iff_getElem?.2 ⟨pid - 1, ?_⟩
    rw [List.getElem?_drop, Nat.add_sub_cancel' (Nat.pos_of_ne_zero hzero), ← hp, toList, get?,
      Vector.getElem?_toList]
  exact hall p hmem hvacant

/-- the slot that the next fork takes is told by what `f` keeps of the slots -/
theorem firstFree?_congr {f : Process → Process} (hvacant : ∀ p, (f p).isVacant = p.isVacant)
    (hpid : ∀ p, (f p).pid = p.pid) (h : ∀ q : Nat, (t'.get? q).map f = (t.get? q).map f) :
    t'.firstFree? = t.firstFree? := by
  have hlist : t'.toList.map f = t.toList.map f := by
    refine List.ext_getElem? fun q => ?_
    have hget : ∀ t : ProcessTable n, t.toList[q]? = t.get? q := fun t => by
      simp [toList, get?]
    rw [List.getElem?_map, List.getElem?_map, hget, hget, h q]
  have hfind : ∀ ps : List Process, (ps.find? Process.isVacant).map Process.pid
      = ((ps.map f).find? Process.isVacant).map Process.pid := by
    intro ps
    have hcomp : Process.isVacant ∘ f = Process.isVacant := funext hvacant
    have hpids : Process.pid ∘ f = Process.pid := funext hpid
    rw [List.find?_map, hcomp, Option.map_map, hpids]
  unfold firstFree?
  rw [hfind, hfind (t.toList.drop 1), List.map_drop, List.map_drop, hlist]

end ProcessTable

/-! ## searching -/

section
variable {α : Type} {slots after : Nat} {answer : Pid → Option α}

theorem scanAt_eq (hafter : after < slots) (hslots : slots ≤ 2 ^ 63) {step : Nat}
    (hstep : step ≤ slots) : scanAt slots after step = .ok ((after + step) % slots) := by
  have hlt : after + step < 0x10000000000000000 := by omega
  rw [scanAt, if_pos hlt]

/-- the search among some of the slots finds the answer of the first with one, or there is none -/
theorem scanFindFrom_cases (answer : Pid → Option α) (hafter : after < slots)
    (hslots : slots ≤ 2 ^ 63) (steps : List Nat) (hsteps : ∀ step ∈ steps, step ≤ slots) :
    (∃ (before : List Nat) (step : Nat) (later : List Nat) (a : α),
      steps = before ++ step :: later ∧
      answer ((after + step) % slots) = some a ∧
      (∀ s ∈ before, answer ((after + s) % slots) = none) ∧
      scanFindFrom slots after answer steps = .ok (some a)) ∨
    ((∀ step ∈ steps, answer ((after + step) % slots) = none) ∧
      scanFindFrom slots after answer steps = .ok none) := by
  induction steps with
  | nil => exact .inr ⟨fun step hstep => absurd hstep List.not_mem_nil, rfl⟩
  | cons step later ih =>
    have hscan := scanAt_eq hafter hslots (hsteps step List.mem_cons_self)
    rw [scanFindFrom, hscan, ok_bind]
    cases hanswer : answer ((after + step) % slots) with
    | some a =>
      exact .inl ⟨[], step, later, a, rfl, hanswer, fun s hs => absurd hs List.not_mem_nil, rfl⟩
    | none =>
      have hfirst : ∀ steps : List Nat, (∀ s ∈ steps, answer ((after + s) % slots) = none) →
          ∀ s ∈ step :: steps, answer ((after + s) % slots) = none := by
        intro steps hnone s hs
        rcases List.mem_cons.1 hs with rfl | hs
        · exact hanswer
        · exact hnone s hs
      rcases ih fun s hs => hsteps s (List.mem_cons_of_mem step hs) with
        ⟨before, s, later', a, hsplit, ha, hbefore, heq⟩ | ⟨hnone, heq⟩
      · exact .inl ⟨step :: before, s, later', a, congrArg (step :: ·) hsplit, ha,
          hfirst before hbefore, heq⟩
      · exact .inr ⟨hfirst later hnone, heq⟩

theorem exists_step (hafter : after < slots) {pid : Nat} (hpid : pid < slots) :
    ∃ step ∈ (List.range slots).map (· + 1), (after + step) % slots = pid := by
  simp only [List.mem_map, List.mem_range]
  by_cases hlt : after < pid
  · refine ⟨_, ⟨pid - after - 1, by omega, rfl⟩, ?_⟩
    have hsum : after + (pid - after - 1 + 1) = pid := by omega
    rw [hsum, Nat.mod_eq_of_lt hpid]
  · refine ⟨_, ⟨slots + pid - after - 1, by omega, rfl⟩, ?_⟩
    have hsum : after + (slots + pid - after - 1 + 1) = pid + slots := by omega
    rw [hsum, Nat.add_mod_right, Nat.mod_eq_of_lt hpid]

/-- slot `q` is the first after slot `p`, going round a table of `n` slots, of which `P` holds; the
last that is looked at is `p` itself -/
def FirstAfter (n : Nat) (P : Pid → Prop) (p q : Pid) : Prop :=
  ∃ step, 0 < step ∧ step ≤ n ∧ q = (p + step) % n ∧ P q ∧ ∀ i, 0 < i → i < step → ¬ P ((p + i) % n)

theorem FirstAfter.holds {n : Nat} {P : Pid → Prop} {p q : Pid} (h : FirstAfter n P p q) :
    P q := by
  obtain ⟨step, -, -, -, hq, -⟩ := h
  exact hq

theorem FirstAfter.unique {n : Nat} {P : Pid → Prop} {p q q' : Pid} (h : FirstAfter n P p q)
    (h' : FirstAfter n P p q') : q = q' := by
  obtain ⟨i, hi, -, rfl, hq, hbefore⟩ := h
  obtain ⟨j, hj, -, rfl, hq', hbefore'⟩ := h'
  rcases Nat.lt_trichotomy i j with hlt | rfl | hlt
  · exact absurd hq (hbefore' i hi hlt)
  · rfl
  · exact absurd hq' (hbefore j hj hlt)

/-- the search finds the answer of the first slot that has one, or there is none -/
theorem scanFind_first (answer : Pid → Option α) (hafter : after < slots)
    (hslots : slots ≤ 2 ^ 63) :
    (∃ (step : Nat) (a : α), 0 < step ∧ step ≤ slots ∧ answer ((after + step) % slots) = some a ∧
      (∀ s : Nat, 0 < s → s < step → answer ((after + s) % slots) = none) ∧
      scanFind slots after answer = .ok (some a)) ∨
    ((∀ pid < slots, answer pid = none) ∧ scanFind slots after answer = .ok none) := by
  have hsteps : ∀ step ∈ (List.range slots).map (· + 1), step ≤ slots := by
    simp only [List.mem_map, List.mem_range]
    rintro step ⟨i, hi, rfl⟩
    exact hi
  rcases scanFindFrom_cases answer hafter hslots _ hsteps with
    ⟨before, step, later, a, hsplit, ha, hbefore, heq⟩ | ⟨hnone, heq⟩
  · -- the steps are counted from 1, so those before a step are all that are lower
    have hget : ∀ i (hi : i < ((List.range slots).map (· + 1)).length),
        ((List.range slots).map (· + 1))[i] = i + 1 := by
      intro i hi
      rw [List.getElem_map, List.getElem_range]
    have hlength : before.length < ((List.range slots).map (· + 1)).length := by
      rw [hsplit, List.length_append, List.length_cons]
      omega
    have hstep : step = before.length + 1 := by
      rw [← hget before.length hlength]
      simp only [hsplit, List.getElem_append_right (Nat.le_refl _), Nat.sub_self,
        List.getElem_cons_zero]
    rw [List.length_map, List.length_range] at hlength
    refine .inl ⟨step, a, by omega, by omega, ha, fun s hpos hlt => hbefore s ?_, heq⟩
    have hi : s - 1 < before.length := by omega
    have hmem := List.getElem_mem hi
    have hs : before[s - 1] = s := by
      have hwhole := hget (s - 1) (by rw [List.length_map, List.length_range]; omega)
      simp only [hsplit, List.getElem_append_left hi] at hwhole
      omega
    rwa [hs] at hmem
  · refine .inr ⟨fun pid hpid => ?_, heq⟩
    obtain ⟨step, hstep, rfl⟩ := exists_step hafter hpid
    exact hnone step hstep

theorem scanFind_cases (answer : Pid → Option α) (hafter : after < slots)
    (hslots : slots ≤ 2 ^ 63) :
    (∃ pid a, pid < slots ∧ answer pid = some a ∧ scanFind slots after answer = .ok (some a)) ∨
    ((∀ pid < slots, answer pid = none) ∧ scanFind slots after answer = .ok none) := by
  rcases scanFind_first answer hafter hslots with ⟨step, a, -, -, ha, -, heq⟩ | hnone
  · exact .inl ⟨_, a, Nat.mod_lt _ (by omega), ha, heq⟩
  · exact .inr hnone

end

/-- whether a slot holds a process that can run -/
def ProcessTable.Runs {n : Nat} (t : ProcessTable n) (pid : Pid) : Prop :=
  ∃ p, t.get? pid = some p ∧ p.isRunnable = true

instance {n : Nat} (t : ProcessTable n) (pid : Pid) : Decidable (t.Runs pid) :=
  decidable_of_iff ((t.get? pid).any Process.isRunnable = true) (Option.any_eq_true _ _)

theorem ProcessTable.Runs.lt {n : Nat} {t : ProcessTable n} {pid : Nat} (h : t.Runs pid) :
    pid < n := by
  obtain ⟨p, hp, -⟩ := h
  exact lt_of_get? hp

theorem ProcessTable.runs_iff_isRunnable {n : Nat} {t : ProcessTable n} {pid : Nat} {p : Process}
    (hp : t.get? pid = some p) : t.Runs pid ↔ p.isRunnable = true := by
  refine ⟨?_, fun hrun => ⟨p, hp, hrun⟩⟩
  rintro ⟨p', hp', hrun⟩
  obtain rfl := Option.some.inj (hp.symm.trans hp')
  exact hrun

theorem ProcessTable.runs_iff_state {n : Nat} {t : ProcessTable n} {pid : Nat} {p : Process}
    (hp : t.get? pid = some p) : t.Runs pid ↔ p.state = .runnable :=
  (runs_iff_isRunnable hp).trans Process.isRunnable_iff

theorem ProcessTable.runs_congr {n : Nat} {t t' : ProcessTable n} {q : Nat}
    (h : t'.get? q = t.get? q) : t'.Runs q ↔ t.Runs q := by
  rw [Runs, Runs, h]

theorem ProcessTable.runs_update {n : Nat} {t : ProcessTable n} {pid q : Nat}
    {change : Process → Process} (h : ∀ p, (change p).state = p.state) :
    (t.update pid change).Runs q ↔ t.Runs q := by
  unfold Runs Process.isRunnable
  rw [get?_update]
  split
  · constructor
    · rintro ⟨p', hp', hrun⟩
      obtain ⟨p, hp, rfl⟩ := Option.map_eq_some_iff.1 hp'
      rw [h] at hrun
      exact ⟨p, hp, hrun⟩
    · rintro ⟨p, hp, hrun⟩
      refine ⟨change p, by rw [hp, Option.map_some], ?_⟩
      rw [h]
      exact hrun
  · rfl

theorem ProcessTable.not_runs_vacated {n : Nat} {t : ProcessTable n} {pid : Nat} {p : Process}
    (h : t.get? pid = some p.vacated) : ¬ t.Runs pid := by
  rw [runs_iff_state h]
  nofun

/-- the next process is the first after the current one that can run, going round the table; or none
can -/
theorem nextRunnable_first {n : Nat} (t : ProcessTable n) {after : Nat} (hafter : after < n)
    (hn : n ≤ 2 ^ 63) :
    (∃ next, FirstAfter n t.Runs after next ∧ nextRunnable t after = .ok (some next)) ∨
    ((∀ pid, ¬ t.Runs pid) ∧ nextRunnable t after = .ok none) := by
  have hnext : nextRunnable t after
      = scanFind n after fun pid => if t.Runs pid then some pid else none := by
    unfold nextRunnable
    congr 1
    funext pid
    cases hp : t.get? pid with
    | none =>
      refine (if_neg ?_).symm
      rintro ⟨p, hp', -⟩
      cases hp.symm.trans hp'
    | some p => exact if_congr (ProcessTable.runs_iff_isRunnable hp).symm rfl rfl
  rw [hnext]
  rcases scanFind_first (fun pid => if t.Runs pid then some pid else none) hafter hn with
    ⟨step, a, hpos, hle, ha, hbefore, heq⟩ | ⟨hnone, heq⟩
  · obtain ⟨hruns, ha⟩ := Option.ite_none_right_eq_some.1 ha
    obtain rfl := Option.some.inj ha
    refine .inl ⟨_, ⟨step, hpos, hle, rfl, hruns, fun s hs hlt hruns' => ?_⟩, heq⟩
    have hnot := hbefore s hs hlt
    rw [if_pos hruns'] at hnot
    cases hnot
  · refine .inr ⟨fun pid hruns => ?_, heq⟩
    have hnot := hnone pid hruns.lt
    rw [if_pos hruns] at hnot
    cases hnot

end PagedKernel
