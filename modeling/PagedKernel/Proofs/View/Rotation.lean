import Mathlib.Data.Finset.Card
import Mathlib.Data.Nat.ModEq
import PagedKernel.Proofs.Kernel.View

/-!
# The memory view goes round

The viewer shows one process until its time is over or it is gone, and then the next that has an
address space, whatever happens to the table between two calls.  So while the same slots have one,
each of them is shown in turn.

* `Showing`, `Viewer.showAll`     calls of the viewer with their answers, the latest first
* `lastShown`, `lastSwitch`       the slot that was shown last, and when another was looked for last
* `Shown`                         what one call answers, by the calls before it
* `scanned`                       the slots of a set in the order in which they are looked at
* `Viewer.rotates`                all calls, on tables of any size
-/

namespace PagedKernel

/-- a call of the viewer, with its answer -/
structure Showing (n : Nat) where
  table : ProcessTable n
  ticks : UInt64
  answer : Option (Pid × AddressSpace)

/-- answer calls one after another, each with a table and a time: what was shown, the latest first,
and the viewer that is left -/
def Viewer.showAll {n : Nat} (hz : UInt32) (calls : List (ProcessTable n × UInt64)) :
    Except Panic (List (Showing n) × Viewer) :=
  calls.foldlM (fun (past, viewer) (table, ticks) => do
    let (answer, viewer) ← viewer.select table ticks hz
    return (⟨table, ticks, answer⟩ :: past, viewer)) ([], {})

variable {n : Nat} {hz : UInt32} {past window : List (Showing n)} {x : Showing n}

/-- the process of a slot can be shown: it has an address space -/
def ProcessTable.CanShow (t : ProcessTable n) (pid : Pid) : Prop :=
  (t.space? pid).isSome = true

/-- the slot that was shown last; slot 0 if none was -/
def lastShown : List (Showing n) → Pid
  | [] => 0
  | x :: past =>
    match x.answer with
    | some (pid, _) => pid
    | none => lastShown past

/-- another slot is looked for, unless slot `s` has an address space and its time since `since` is
not over -/
def Showing.switches (x : Showing n) (hz : UInt32) (s : Pid) (since : UInt64) : Bool :=
  !((x.table.space? s).isSome && x.ticks.toNat - since.toNat < max 1 (hz.toNat / 2))

/-- the time at which another slot was looked for last; time 0 if never -/
def lastSwitch (hz : UInt32) : List (Showing n) → UInt64
  | [] => 0
  | x :: past =>
    if x.switches hz (lastShown past) (lastSwitch hz past) then x.ticks else lastSwitch hz past

/-- whether a call after those of `past` looks for another slot -/
def isSwitch (hz : UInt32) (past : List (Showing n)) (x : Showing n) : Bool :=
  x.switches hz (lastShown past) (lastSwitch hz past)

/-- the slots that the calls of a window showed that looked for another, the latest first -/
def turns (hz : UInt32) (past : List (Showing n)) : List (Showing n) → List Pid
  | [] => []
  | x :: window =>
    if isSwitch hz (window ++ past) x then (x.answer.map Prod.fst).toList ++ turns hz past window
    else turns hz past window

/-- what a call answers after those of `past` -/
structure Shown (hz : UInt32) (past : List (Showing n)) (x : Showing n) : Prop where
  /-- something is shown if there is anything to show -/
  isSome : x.answer.isSome = true ↔ ∃ pid, x.table.CanShow pid
  /-- what is shown is in the table now -/
  current : ∀ pid s, x.answer = some (pid, s) → x.table.space? pid = some s
  stays : isSwitch hz past x = false → x.answer.map Prod.fst = some (lastShown past)
  switches : isSwitch hz past x = true → ∀ pid, x.answer.map Prod.fst = some pid ↔
    FirstAfter n x.table.CanShow (lastShown past) pid

/-- a row of calls, the latest first, and what comes of them -/
structure Rotation (hz : UInt32) (history : List (Showing n)) : Prop where
  shown : ∀ later x past, history = later ++ x :: past → Shown hz past x
  /-- while the same slots have an address space, as many turns as there are such slots show each of
  them once -/
  once : ∀ later window past, history = later ++ window ++ past → ∀ slots : Finset Pid,
    slots.Nonempty →
    (∀ x ∈ window, ∀ pid, x.table.CanShow pid ↔ pid ∈ slots) →
    ∀ w, w <:+: turns hz past window → w.length = slots.card →
      w.Nodup ∧ ∀ pid, pid ∈ w ↔ pid ∈ slots

/-! ## one call -/

theorem ProcessTable.canShow_of_space? {t : ProcessTable n} {pid : Pid} {s : AddressSpace}
    (h : t.space? pid = some s) : t.CanShow pid :=
  Option.isSome_iff_exists.2 ⟨s, h⟩

theorem ProcessTable.CanShow.lt {t : ProcessTable n} {pid : Pid} (h : t.CanShow pid) : pid < n := by
  obtain ⟨s, hs⟩ := Option.isSome_iff_exists.1 h
  exact lt_of_space? hs

theorem ProcessTable.not_canShow {t : ProcessTable n} {pid : Pid} (h : t.space? pid = none) :
    ¬ t.CanShow pid := by
  rw [CanShow, h]
  exact Bool.false_ne_true

namespace Viewer

variable {v : Viewer}

/-- another slot is looked for when the time of the one that is shown is over, or it is gone -/
theorem switches_eq (v : Viewer) (x : Showing n) (hz : UInt32) :
    x.switches hz v.shown v.switchedAt
      = (v.isDue x.ticks hz || (x.table.space? v.shown).isNone) := by
  have htime : decide (x.ticks.toNat - v.switchedAt.toNat < max 1 (hz.toNat / 2))
      = !v.isDue x.ticks hz := by
    rw [isDue, period, Nat.max_comm, ← decide_not]
    simp only [Nat.not_le]
  rw [Showing.switches, htime, Bool.not_and, Bool.not_not, Bool.or_comm, Option.not_isSome]

theorem select_of_not {table : ProcessTable n} {ticks : UInt64} (answer : Option (Pid × AddressSpace))
    (h : (⟨table, ticks, answer⟩ : Showing n).switches hz v.shown v.switchedAt = false) :
    ∃ s, table.space? v.shown = some s ∧
      v.select table ticks hz = .ok (some (v.shown, s), v) := by
  rw [switches_eq, Bool.or_eq_false_iff, Option.isNone_eq_false_iff] at h
  obtain ⟨hdue, hspace⟩ := h
  obtain ⟨s, hs⟩ := Option.isSome_iff_exists.1 hspace
  refine ⟨s, hs, ?_⟩
  rw [select, if_neg (ne_true_of_eq_false hdue), displayable, hs]
  rfl

theorem select_of_switches {table : ProcessTable n} {ticks : UInt64}
    (answer : Option (Pid × AddressSpace)) (hn : n ≤ 2 ^ 63) (hshown : v.shown < n)
    (h : (⟨table, ticks, answer⟩ : Showing n).switches hz v.shown v.switchedAt = true) :
    (∃ pid s, table.space? pid = some s ∧
      FirstAfter n table.CanShow v.shown pid ∧
      v.select table ticks hz = .ok (some (pid, s), ⟨pid, ticks⟩)) ∨
    ((∀ pid, table.space? pid = none) ∧
      v.select table ticks hz = .ok (none, { v with switchedAt := ticks })) := by
  have hnow : (if v.isDue ticks hz = true then none else displayable table v.shown) = none := by
    rw [switches_eq, Bool.or_eq_true, Option.isNone_iff_eq_none] at h
    split
    · rfl
    · next hdue => rw [displayable, h.resolve_left hdue, Option.map_none]
  unfold select
  rw [hnow]
  dsimp only
  rcases scanFind_first (displayable table) hshown hn with
    ⟨step, found, hpos, hle, hfound, hbefore, heq⟩ | ⟨hnone, heq⟩
  · obtain ⟨s, hs, rfl⟩ := Option.map_eq_some_iff.1 hfound
    have hfirst : FirstAfter n table.CanShow v.shown ((v.shown + step) % n) :=
      ⟨step, hpos, hle, rfl, ProcessTable.canShow_of_space? hs, fun i hi hlt =>
        ProcessTable.not_canShow (Option.map_eq_none_iff.1 (hbefore i hi hlt))⟩
    refine .inl ⟨_, s, hs, hfirst, ?_⟩
    rw [heq, ok_bind]
    rfl
  · refine .inr ⟨fun pid => ?_, ?_⟩
    · cases hs : table.space? pid with
      | none => rfl
      | some s =>
        have hnot := hnone pid (ProcessTable.lt_of_space? hs)
        rw [displayable, hs] at hnot
        cases hnot
    · rw [heq, ok_bind, ok_pure]

/-- a viewer that is where the calls before have left it answers as is said -/
theorem select_shown (hn : n ≤ 2 ^ 63) (hshown : v.shown < n) (hlast : v.shown = lastShown past)
    (hsince : v.switchedAt = lastSwitch hz past) (table : ProcessTable n) (ticks : UInt64) :
    ∃ answer v', v.select table ticks hz = .ok (answer, v') ∧
      Shown hz past ⟨table, ticks, answer⟩ ∧ v'.shown < n ∧
      v'.shown = lastShown (⟨table, ticks, answer⟩ :: past) ∧
      v'.switchedAt = lastSwitch hz (⟨table, ticks, answer⟩ :: past) := by
  have hswitch : ∀ answer, isSwitch hz past ⟨table, ticks, answer⟩
      = (⟨table, ticks, none⟩ : Showing n).switches hz v.shown v.switchedAt := fun answer => by
    rw [hlast, hsince]
    rfl
  cases hcase : (⟨table, ticks, none⟩ : Showing n).switches hz v.shown v.switchedAt with
  | false =>
    rw [hcase] at hswitch
    obtain ⟨s, hs, hselect⟩ := select_of_not none hcase
    refine ⟨_, _, hselect, ⟨?_, ?_, fun _ => by rw [← hlast]; rfl, fun h => ?_⟩, hshown, rfl, ?_⟩
    · exact iff_of_true rfl ⟨v.shown, ProcessTable.canShow_of_space? hs⟩
    · rintro pid s' ⟨⟩
      exact hs
    · cases (hswitch _).symm.trans h
    · rw [hsince, lastSwitch]
      exact (if_neg (ne_true_of_eq_false (hswitch _))).symm
  | true =>
    rw [hcase] at hswitch
    have hsince' : ∀ answer, lastSwitch hz (⟨table, ticks, answer⟩ :: past) = ticks :=
      fun answer => if_pos (hswitch answer)
    rcases select_of_switches none hn hshown hcase with
      ⟨pid, s, hs, hfirst, hselect⟩ | ⟨hnone, hselect⟩
    · refine ⟨_, _, hselect, ⟨?_, ?_, fun h => ?_, fun _ q => ?_⟩, ?_, rfl, (hsince' _).symm⟩
      · exact iff_of_true rfl ⟨pid, ProcessTable.canShow_of_space? hs⟩
      · rintro pid' s' ⟨⟩
        exact hs
      · cases (hswitch _).symm.trans h
      · rw [hlast] at hfirst
        constructor
        · rintro ⟨⟩
          exact hfirst
        · exact fun hq => congrArg some (hfirst.unique hq)
      · exact ProcessTable.lt_of_space? hs
    · refine ⟨_, _, hselect, ⟨?_, nofun, fun h => ?_, fun _ q => ?_⟩, hshown, hlast,
        (hsince' _).symm⟩
      · refine iff_of_false Bool.false_ne_true ?_
        exact fun ⟨pid, hpid⟩ => ProcessTable.not_canShow (hnone pid) hpid
      · cases (hswitch _).symm.trans h
      · refine iff_of_false nofun ?_
        exact fun ⟨_, _, _, _, hq, _⟩ => ProcessTable.not_canShow (hnone q) hq

end Viewer

/-! ## one round -/

section Rounds

variable {slots : Finset Pid} {p q : Pid}

/-- the slots of a set among the next `count` after slot `p`, in the order in which they are looked
at -/
def scanned (n : Nat) (slots : Finset Pid) (p : Pid) (count : Nat) : List Pid :=
  ((List.range count).map fun i => (p + (i + 1)) % n).filter (· ∈ slots)

/-- up to the first slot of the set there are no others, and from there on the order goes on -/
theorem scanned_of_firstAfter (h : FirstAfter n (· ∈ slots) p q) (count : Nat) :
    scanned n slots p count = [] ∨
      ∃ rest, rest < count ∧ scanned n slots p count = q :: scanned n slots q rest := by
  obtain ⟨step, hpos, -, rfl, hq, hbefore⟩ := h
  obtain ⟨first, rfl⟩ := Nat.exists_eq_succ_of_ne_zero (Nat.ne_of_gt hpos)
  have hnone : ∀ m ≤ first, ((List.range m).map fun i => (p + (i + 1)) % n).filter (· ∈ slots)
      = [] := by
    intro m hm
    rw [List.filter_eq_nil_iff]
    intro pid hpid
    obtain ⟨i, hi, rfl⟩ := List.mem_map.1 hpid
    have hi := List.mem_range.1 hi
    rw [decide_eq_true_iff]
    exact hbefore (i + 1) (Nat.succ_pos i) (by omega)
  rcases Nat.lt_or_ge first count with hlt | hge
  · obtain ⟨rest, rfl⟩ := Nat.exists_eq_add_of_le (Nat.succ_le_of_lt hlt)
    refine .inr ⟨rest, by omega, ?_⟩
    unfold scanned
    rw [List.range_add, List.range_succ, List.map_append, List.map_append, List.filter_append,
      List.filter_append, hnone first (Nat.le_refl _), List.nil_append, List.map_singleton,
      List.filter_singleton, decide_eq_true hq, List.map_map, cond_true, List.singleton_append]
    congr 2
    refine List.map_congr_left fun i _ => ?_
    rw [Function.comp_apply, Nat.mod_add_mod]
    exact congrArg (· % n) (by omega)
  · exact .inl (hnone count hge)

/-- turns follow the order in which slots are looked at -/
theorem eq_take_scanned {w : List Pid} (count : Nat)
    (h : (p :: w).IsChain (FirstAfter n (· ∈ slots)))
    (hlength : w.length ≤ (scanned n slots p count).length) :
    w = (scanned n slots p count).take w.length := by
  induction w generalizing p count with
  | nil => rw [List.length_nil, List.take_zero]
  | cons q w ih =>
    obtain ⟨hfirst, hchain⟩ := List.isChain_cons_cons.1 h
    rcases scanned_of_firstAfter hfirst count with hnil | ⟨rest, -, heq⟩
    · rw [hnil, List.length_nil] at hlength
      exact absurd hlength (Nat.not_succ_le_zero _)
    · rw [heq, List.length_cons, List.length_cons] at hlength
      rw [heq, List.length_cons, List.take_succ_cons, ← ih rest hchain (Nat.le_of_succ_le_succ hlength)]

/-- going round once, each slot of the set is looked at once -/
theorem perm_scanned (hp : p < n) (hslots : ∀ pid ∈ slots, pid < n) :
    (scanned n slots p n).Nodup ∧ (∀ pid, pid ∈ scanned n slots p n ↔ pid ∈ slots) ∧
      (scanned n slots p n).length = slots.card := by
  have hnodup : (scanned n slots p n).Nodup := by
    refine (List.Nodup.map_on (fun i hi j hj heq => ?_) List.nodup_range).filter _
    have hmod : i + 1 ≡ j + 1 [MOD n] := Nat.ModEq.add_left_cancel' p heq
    exact (Nat.ModEq.add_right_cancel' 1 hmod).eq_of_lt_of_lt (List.mem_range.1 hi)
      (List.mem_range.1 hj)
  have hmem : ∀ pid, pid ∈ scanned n slots p n ↔ pid ∈ slots := by
    intro pid
    rw [scanned, List.mem_filter, decide_eq_true_iff, List.mem_map]
    refine and_iff_right_of_imp fun hpid => ?_
    obtain ⟨step, hstep, heq⟩ := exists_step hp (hslots pid hpid)
    obtain ⟨i, hi, rfl⟩ := List.mem_map.1 hstep
    exact ⟨i, hi, heq⟩
  refine ⟨hnodup, hmem, ?_⟩
  rw [← List.toFinset_card_of_nodup hnodup]
  congr 1
  ext pid
  rw [List.mem_toFinset, hmem]

/-- as many turns as there are slots show each of them once -/
theorem once_of_isChain {w : List Pid} (hp : p < n) (hslots : ∀ pid ∈ slots, pid < n)
    (h : (p :: w).IsChain (FirstAfter n (· ∈ slots))) (hlength : w.length = slots.card) :
    w.Nodup ∧ ∀ pid, pid ∈ w ↔ pid ∈ slots := by
  obtain ⟨hnodup, hmem, hcard⟩ := perm_scanned hp hslots
  have hall := eq_take_scanned n h (by rw [hlength, hcard])
  rw [hlength, ← hcard, List.take_length] at hall
  rw [hall]
  exact ⟨hnodup, hmem⟩

end Rounds

/-! ## the turns of a window -/

theorem lastShown_lt (hn : 0 < n)
    (h : ∀ x ∈ past, ∀ pid s, x.answer = some (pid, s) → x.table.space? pid = some s) :
    lastShown past < n := by
  induction past with
  | nil => exact hn
  | cons x past ih =>
    obtain ⟨hx, hpast⟩ := List.forall_mem_cons.1 h
    rw [lastShown]
    split
    · next pid s hanswer => exact ProcessTable.lt_of_space? (hx pid s hanswer)
    · exact ih hpast

/-- while the same slots have an address space, each turn comes to the first of them after the turn
before -/
theorem turns_isChain {slots : Finset Pid} (hne : slots.Nonempty)
    (hslots : ∀ x ∈ window, ∀ pid, x.table.CanShow pid ↔ pid ∈ slots)
    (hshown : ∀ later x rest, window = later ++ x :: rest → Shown hz (rest ++ past) x) :
    (turns hz past window ++ [lastShown past]).IsChain
        (fun late early => FirstAfter n (· ∈ slots) early late) ∧
      (turns hz past window ++ [lastShown past]).head? = some (lastShown (window ++ past)) ∧
      ∀ pid ∈ turns hz past window, pid ∈ slots := by
  induction window with
  | nil => exact ⟨.singleton _, rfl, fun pid hpid => absurd hpid List.not_mem_nil⟩
  | cons x window ih =>
    obtain ⟨hx, hwindow⟩ := List.forall_mem_cons.1 hslots
    obtain ⟨hchain, hhead, hmem⟩ := ih hwindow fun later y rest heq =>
      hshown (x :: later) y rest (by rw [heq, List.cons_append])
    have hanswers := hshown [] x window rfl
    have hshows : x.table.CanShow = (· ∈ slots) := funext fun pid => propext (hx pid)
    obtain ⟨pid₀, hpid₀⟩ := hne
    obtain ⟨⟨pid, s⟩, hanswer⟩ :=
      Option.isSome_iff_exists.1 (hanswers.isSome.2 ⟨pid₀, (hx pid₀).2 hpid₀⟩)
    have hlast : lastShown (x :: window ++ past) = pid := by
      rw [List.cons_append, lastShown, hanswer]
    rw [hlast, turns]
    cases hswitch : isSwitch hz (window ++ past) x with
    | true =>
      have hfirst := (hanswers.switches hswitch pid).1 (by rw [hanswer]; rfl)
      rw [hshows] at hfirst
      rw [if_pos rfl, hanswer]
      show (pid :: (turns hz past window ++ [lastShown past])).IsChain _ ∧ _
      refine ⟨List.isChain_cons.2 ⟨fun early hearly => ?_, hchain⟩, rfl,
        List.forall_mem_cons.2 ⟨?_, hmem⟩⟩
      · rw [hhead] at hearly
        rw [← Option.some.inj hearly]
        exact hfirst
      · obtain ⟨_, _, _, _, hpid, _⟩ := hfirst
        exact hpid
    | false =>
      have hstays := hanswers.stays hswitch
      rw [hanswer] at hstays
      obtain rfl := Option.some.inj hstays
      rw [if_neg Bool.false_ne_true]
      exact ⟨hchain, hhead, hmem⟩

/-- what lies in a list with one element more at its end is followed by an element -/
theorem exists_concat_infix {α : Type} {w l : List α} (last : α) (h : w <:+: l) :
    ∃ p, w ++ [p] <:+: l ++ [last] := by
  obtain ⟨front, back, rfl⟩ := h
  obtain ⟨p, rest, hp⟩ : ∃ p rest, back ++ [last] = p :: rest := by
    cases back with
    | nil => exact ⟨last, [], rfl⟩
    | cons p back => exact ⟨p, back ++ [last], rfl⟩
  refine ⟨p, front, rest, ?_⟩
  rw [List.append_assoc _ back, hp, List.append_assoc, List.append_assoc, List.append_assoc]
  rfl

/-- of the turns of a window, as many as there are slots show each of them once -/
theorem once_of_shown {slots : Finset Pid} {w : List Pid} (hn : 0 < n) (hne : slots.Nonempty)
    (hslots : ∀ x ∈ window, ∀ pid, x.table.CanShow pid ↔ pid ∈ slots)
    (hshown : ∀ later x rest, window ++ past = later ++ x :: rest → Shown hz rest x)
    (hw : w <:+: turns hz past window) (hlength : w.length = slots.card) :
    w.Nodup ∧ ∀ pid, pid ∈ w ↔ pid ∈ slots := by
  have hwindow : ∀ later x rest, window = later ++ x :: rest → Shown hz (rest ++ past) x :=
    fun later x rest heq =>
      hshown later x (rest ++ past) (by rw [heq, List.append_assoc, List.cons_append])
  obtain ⟨hchain, -, hturns⟩ := turns_isChain hne hslots hwindow
  have hslots_lt : ∀ pid ∈ slots, pid < n := by
    cases window with
    | nil =>
      rw [turns, List.infix_nil] at hw
      rw [hw, List.length_nil] at hlength
      exact absurd (Finset.card_pos.2 hne) (Nat.not_lt.2 (Nat.le_of_eq hlength.symm))
    | cons x window => exact fun pid hpid => ((hslots x List.mem_cons_self pid).2 hpid).lt
  -- what was shown before the first of these turns lies in the table
  have hlt : ∀ pid ∈ turns hz past window ++ [lastShown past], pid < n := by
    intro pid hpid
    rcases List.mem_append.1 hpid with hpid | hpid
    · exact hslots_lt pid (hturns pid hpid)
    · rw [List.mem_singleton.1 hpid]
      refine lastShown_lt hn fun x hx => ?_
      obtain ⟨later, rest, heq⟩ := List.append_of_mem hx
      exact (hshown (window ++ later) x rest (by rw [heq, List.append_assoc])).current
  obtain ⟨p, hinfix⟩ := exists_concat_infix (lastShown past) hw
  have hround : (p :: w.reverse).IsChain (FirstAfter n (· ∈ slots)) := by
    have hpart := List.IsChain.infix hchain hinfix
    have hreverse := List.isChain_reverse.2 hpart
    rw [List.reverse_append] at hreverse
    exact hreverse
  have hmem : p ∈ turns hz past window ++ [lastShown past] :=
    hinfix.subset (List.mem_append_right _ (List.mem_singleton_self p))
  obtain ⟨hnodup, honce⟩ := once_of_isChain (hlt p hmem) hslots_lt hround
    (by rw [List.length_reverse, hlength])
  rw [List.nodup_reverse] at hnodup
  exact ⟨hnodup, fun pid => List.mem_reverse.symm.trans (honce pid)⟩

/-! ## all calls -/

/-- a viewer that has answered the calls of a history -/
structure Viewer.Follows (hz : UInt32) (history : List (Showing n)) (v : Viewer) : Prop where
  lt : v.shown < n
  last : v.shown = lastShown history
  since : v.switchedAt = lastSwitch hz history
  shown : ∀ later x past, history = later ++ x :: past → Shown hz past x

namespace Viewer.Follows

variable {v : Viewer}

theorem start (hn : 0 < n) : Follows hz ([] : List (Showing n)) {} where
  lt := hn
  last := rfl
  since := rfl
  shown later x past h := absurd (congrArg List.length h) (by simp)

theorem select (h : Follows hz past v) (hn : n ≤ 2 ^ 63) (table : ProcessTable n)
    (ticks : UInt64) :
    ∃ answer v', v.select table ticks hz = .ok (answer, v') ∧
      Follows hz (⟨table, ticks, answer⟩ :: past) v' := by
  obtain ⟨answer, v', heq, hshown, hlt, hlast, hsince⟩ :=
    select_shown hn h.lt h.last h.since table ticks
  refine ⟨answer, v', heq, hlt, hlast, hsince, fun later x rest hsplit => ?_⟩
  cases later with
  | nil =>
    obtain ⟨rfl, rfl⟩ := List.cons.inj hsplit
    exact hshown
  | cons y later => exact h.shown later x rest (List.cons.inj hsplit).2

theorem showAll (hz : UInt32) (hn : 0 < n) (hn' : n ≤ 2 ^ 63)
    (calls : List (ProcessTable n × UInt64)) :
    ∃ history v, Viewer.showAll hz calls = .ok (history, v) ∧ Follows hz history v ∧
      history.map (fun x => (x.table, x.ticks)) = calls.reverse := by
  have hall : ∀ (calls : List (ProcessTable n × UInt64)) (past : List (Showing n)) (v : Viewer),
      Follows hz past v → ∃ history v',
        calls.foldlM (fun (past, v) (table, ticks) => do
          let (answer, v) ← Viewer.select v table ticks hz
          return (⟨table, ticks, answer⟩ :: past, v)) (past, v)
            = (.ok (history, v') : Except Panic (List (Showing n) × Viewer)) ∧
        Follows hz history v' ∧ history.map (fun x => (x.table, x.ticks))
          = calls.reverse ++ past.map fun x => (x.table, x.ticks) := by
    intro calls
    induction calls with
    | nil => exact fun past v h => ⟨past, v, rfl, h, rfl⟩
    | cons call calls ih =>
      intro past v h
      obtain ⟨answer, v₁, heq, h₁⟩ := h.select hn' call.1 call.2
      obtain ⟨history, v', hfold, h', hcalls⟩ := ih _ _ h₁
      refine ⟨history, v', ?_, h', ?_⟩
      · rw [List.foldlM_cons]
        dsimp only
        rw [heq, ok_bind, ok_pure, ok_bind]
        exact hfold
      · rw [hcalls, List.reverse_cons, List.append_assoc]
        rfl
  obtain ⟨history, v, hfold, h, hcalls⟩ := hall calls [] {} (start hn)
  exact ⟨history, v, hfold, h, hcalls.trans (List.append_nil _)⟩

end Viewer.Follows

/-- Whatever tables and times it is called with, the viewer answers: it shows what it showed until
the time of that is over or it is gone, and then the next that has an address space.  The slots of a
table are counted by words, and so are the sums of two of them. -/
theorem Viewer.rotates (hn : 0 < n) (hn' : n ≤ 2 ^ 63) (hz : UInt32)
    (calls : List (ProcessTable n × UInt64)) :
    ∃ history v, showAll hz calls = .ok (history, v) ∧
      history.map (fun x => (x.table, x.ticks)) = calls.reverse ∧ Rotation hz history := by
  obtain ⟨history, v, heq, h, hcalls⟩ := Follows.showAll hz hn hn' calls
  refine ⟨history, v, heq, hcalls, h.shown, ?_⟩
  rintro later window past rfl slots hne hslots w hw hlength
  refine once_of_shown hn hne hslots (fun before x rest hsplit => ?_) hw hlength
  exact h.shown (later ++ before) x rest (by rw [List.append_assoc, hsplit, List.append_assoc])

/-- of two processes the first is shown for two ticks, then the second, and the first again -/
theorem Viewer.rotates_two :
    let table : ProcessTable 3 := ((ProcessTable.empty 3).update 1 fun p =>
      { p with space := some ⟨.ofNumber 5⟩ }).update 2 fun p => { p with space := some ⟨.ofNumber 6⟩ }
    ∃ history v, showAll 4 [(table, 0), (table, 1), (table, 2), (table, 4)] = .ok (history, v) ∧
      history.map (fun x => x.answer.map Prod.fst) = [some 1, some 2, some 1, some 1] ∧
      Rotation 4 history := by
  intro table
  obtain ⟨history, v, heq, -, hrotation⟩ := rotates (n := 3) (by decide) (by decide) 4
    [(table, 0), (table, 1), (table, 2), (table, 4)]
  have hshown : (showAll 4 [(table, 0), (table, 1), (table, 2), (table, 4)]).toOption.map
      (fun r => r.1.map fun x => x.answer.map Prod.fst) = some [some 1, some 2, some 1, some 1] := by
    with_unfolding_all rfl
  rw [heq] at hshown
  exact ⟨history, v, heq, Option.some.inj hshown, hrotation⟩

end PagedKernel
