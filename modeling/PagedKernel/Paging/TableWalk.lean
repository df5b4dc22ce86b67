import PagedKernel.Paging.AddressSpace

/-!
# Walking the tables of an address space

The tables below the root, each before the tables it links to, found with a stack of tables whose
entries have not all been looked at.

* `TableFrame`          a table: its frame, its level and the first address it covers
* `TableWalk.next?`     the next table
* `AddressSpace.tables` all of them

A table on the stack has at most 512 entries left, and each entry adds at most one table of the
level below, so `TableWalk.weight` bounds the steps that are left, whatever memory holds.
-/

namespace PagedKernel

/-- a table below the root -/
structure TableFrame where
  /-- the first address that the table covers -/
  va : VirtualAddress
  level : Level
  frame : Frame
  deriving DecidableEq, Inhabited

/-- a table of which the entries from `next` on have not been looked at -/
structure PendingTable where
  frame : Frame
  level : Level
  /-- the first address that the table covers -/
  va : UInt64
  next : Nat
  deriving DecidableEq, Inhabited

/-- a walk: the tables that are not finished, the innermost first -/
structure TableWalk where
  pending : List PendingTable
  deriving DecidableEq, Inhabited

/-- a bound on the steps that a table with `n` levels below it needs -/
def tableWeight : Nat → Nat
  | 0 => 1
  | n + 1 => 1 + 512 * (1 + tableWeight n)

/-- the number of levels below a level -/
def Level.height : Level → Nat
  | .pt => 0
  | .pd => 1
  | .pdpt => 2
  | .pml4 => 3

theorem Level.height_of_next?_some {level below : Level} (h : level.next? = some below) :
    level.height = below.height + 1 := by
  cases level <;> cases h <;> rfl

theorem Level.height_of_next?_none {level : Level} (h : level.next? = none) :
    level.height = 0 := by
  cases level
  case pt => rfl
  all_goals cases h

/-- a bound on the steps that the rest of a table needs -/
def PendingTable.weight (t : PendingTable) : Nat :=
  1 + (512 - t.next) * ((t.level.next?.map fun below => 1 + tableWeight below.height).getD 0)

namespace TableWalk

/-- the walk that has not seen anything of `space` -/
def start (space : AddressSpace) : TableWalk :=
  ⟨[⟨space.root, .pml4, 0, 0⟩]⟩

/-- a bound on the steps that are left -/
def weight (w : TableWalk) : Nat :=
  (w.pending.map PendingTable.weight).foldr (· + ·) 0

/-- the next table, and the walk after it -/
def next? (mem : Memory) (w : TableWalk) : Except Panic (Option (TableFrame × TableWalk)) :=
  match w with
  | ⟨[]⟩ => .ok none
  | ⟨top :: rest⟩ =>
    match _hbelow : top.level.next? with
    | none => next? mem ⟨rest⟩
    | some below =>
      if h : top.next < 512 then do
        let entry ← mem.entry top.frame ⟨top.next, h⟩
        let top' := { top with next := top.next + 1 }
        if entry.isLink then
          let va ← Word.add top.va (UInt64.ofNat top.next * top.level.span)
          let found : TableFrame := ⟨⟨va⟩, below, entry.frame⟩
          if below = .pt then return some (found, ⟨top' :: rest⟩)
          else return some (found, ⟨⟨found.frame, below, va, 0⟩ :: top' :: rest⟩)
        else next? mem ⟨top' :: rest⟩
      else next? mem ⟨rest⟩
termination_by w.weight
decreasing_by
  all_goals simp only [weight, List.map_cons, List.foldr_cons, PendingTable.weight]
  · omega
  · simp only [_hbelow, Option.map_some, Option.getD_some]
    have : 512 - top.next = 512 - (top.next + 1) + 1 := by omega
    rw [this, Nat.add_mul]
    omega
  · omega

theorem weight_cons (t : PendingTable) (rest : List PendingTable) :
    (TableWalk.mk (t :: rest)).weight = t.weight + (TableWalk.mk rest).weight := by
  simp [weight]

/-- a table of which nothing has been looked at weighs what its level weighs -/
theorem weight_fresh (frame : Frame) (level : Level) (va : UInt64) :
    (PendingTable.mk frame level va 0).weight = tableWeight level.height := by
  cases h : level.next? with
  | none => rw [Level.height_of_next?_none h]; simp [PendingTable.weight, h, tableWeight]
  | some below =>
    rw [Level.height_of_next?_some h, tableWeight]
    simp [PendingTable.weight, h]

/-- every table that is found leaves less to do -/
theorem weight_next? {mem : Memory} {w w' : TableWalk} {t : TableFrame}
    (h : w.next? mem = .ok (some (t, w'))) : w'.weight < w.weight := by
  fun_induction next? mem w with
  | case1 => simp at h
  | case2 top rest hnone ih =>
    have := ih h
    rw [weight_cons]
    omega
  | case3 top rest below hbelow hlt ih =>
    have hstep : top.weight = PendingTable.weight { top with next := top.next + 1 }
        + (1 + tableWeight below.height) := by
      have e : 512 - top.next = 512 - (top.next + 1) + 1 := by omega
      simp only [PendingTable.weight, hbelow, Option.map_some, Option.getD_some, e, Nat.add_mul]
      omega
    rw [weight_cons]
    cases he : mem.entry top.frame ⟨top.next, hlt⟩ with
    | error p => simp [he, bind, Except.bind] at h
    | ok entry =>
      simp only [he, bind, Except.bind] at h
      by_cases hl : entry.isLink
      · simp only [hl, if_true] at h
        cases ha : Word.add top.va (UInt64.ofNat top.next * top.level.span) with
        | error p => simp [ha] at h
        | ok va =>
          simp only [ha] at h
          split at h
          · simp only [pure, Except.pure, Except.ok.injEq, Option.some.injEq,
              Prod.mk.injEq] at h
            rw [← h.2, weight_cons]
            omega
          · simp only [pure, Except.pure, Except.ok.injEq, Option.some.injEq,
              Prod.mk.injEq] at h
            rw [← h.2, weight_cons, weight_cons, weight_fresh]
            omega
      · simp only [hl] at h
        have := ih h
        rw [weight_cons] at this
        omega
  | case4 top rest below hbelow hlt ih =>
    have := ih h
    rw [weight_cons]
    omega

/-- the tables that a walk still finds, in order -/
def toList (mem : Memory) (w : TableWalk) : Except Panic (List TableFrame) :=
  match _h : w.next? mem with
  | .error p => .error p
  | .ok none => .ok []
  | .ok (some (t, w')) => do
    return t :: (← toList mem w')
termination_by w.weight
decreasing_by exact weight_next? _h

end TableWalk

/-- the tables below the root, each before the tables it links to -/
def AddressSpace.tables (space : AddressSpace) (mem : Memory) : Except Panic (List TableFrame) :=
  (TableWalk.start space).toList mem

end PagedKernel
