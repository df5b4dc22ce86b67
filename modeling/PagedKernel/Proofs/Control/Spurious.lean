import PagedKernel.Proofs.Control.Contexts
import PagedKernel.Proofs.Placement.Starved
import PagedKernel.Proofs.Simulation.Entries

/-!
# Traps that come while nobody runs

The current process may be gone, or there was none yet.  A trap that comes then is still taken for
one of the current slot, and touches no other; a page fault breaks it, whatever is in it.

* `Kernel.keeps_schedule`, …       handing over control leaves the process table alone
* `Kernel.ends_exception_slots`    what a trap makes of the slots, on every machine
* `Kernel.Strikes`                 what a trap does to the slots that nobody was running for
* `Kernel.strikes`                 that is what every trap does
-/

namespace PagedKernel

variable {k k' : Kernel} {r : Registers} {pid q : Nat} {p : Process}
  {t : ProcessTable slotCount}

/-! ## slots that are taken -/

theorem find?_modify {α : Type} {test : α → Bool} {f : α → α} (hf : ∀ a, test (f a) = false)
    (xs : List α) (i : Nat) (h : ∀ a, xs[i]? = some a → xs.find? test ≠ some a) :
    (xs.modify i f).find? test = xs.find? test := by
  induction xs generalizing i with
  | nil => rw [List.modify_nil]
  | cons a xs ih =>
    cases i with
    | zero =>
      have ha : test a = false := Bool.eq_false_iff.2 fun ha => h a rfl (List.find?_cons_of_pos ha)
      rw [List.modify_zero_cons, List.find?_cons, List.find?_cons, hf, ha]
    | succ i =>
      rw [List.modify_succ_cons, List.find?_cons, List.find?_cons]
      cases ha : test a with
      | true => rfl
      | false =>
        refine ih i fun b hb => ?_
        have hfirst := h b hb
        rwa [List.find?_cons, ha] at hfirst

namespace ProcessTable

theorem life_update {change : Process → Process} (h : ∀ p, (change p).life = p.life) :
    ((t.update pid change).get? q).map Process.life = (t.get? q).map Process.life := by
  rw [get?_update]
  split
  · rw [Option.map_map]
    exact congrArg (fun f => (t.get? q).map f) (funext h)
  · rfl

theorem firstFree?_of_life {t' : ProcessTable slotCount}
    (h : ∀ q : Nat, (t'.get? q).map Process.life = (t.get? q).map Process.life) :
    t'.firstFree? = t.firstFree? :=
  firstFree?_congr (f := Process.life) (fun _ => rfl) (fun _ => rfl) h

/-- when a slot is taken the next fork takes the same slot as before, unless it was that one -/
theorem firstFree?_update {change : Process → Process}
    (hchange : ∀ p, (change p).isVacant = false)
    (h : ∀ p, t.get? pid = some p → t.firstFree? ≠ some p.pid) :
    (t.update pid change).firstFree? = t.firstFree? := by
  have hlist : (t.update pid change).toList = t.toList.modify pid change :=
    Array.toList_modify
  unfold firstFree? at h ⊢
  rw [hlist]
  cases pid with
  | zero => rw [List.drop_modify_of_lt _ _ _ _ Nat.zero_lt_one]
  | succ i =>
    rw [List.drop_modify_of_ge _ _ _ _ (Nat.le_add_left 1 i), Nat.add_sub_cancel]
    rw [find?_modify hchange _ i fun p hp hfirst => ?_]
    refine h p ?_ (by rw [hfirst]; rfl)
    rw [List.getElem?_drop, Nat.add_comm] at hp
    rw [get?, ← hp]
    exact Vector.getElem?_toList.symm

end ProcessTable

namespace Kernel

/-! ## computations that keep the process table -/

/-- a calm computation keeps the process table -/
theorem keeps_of_calm {ε α : Type} {x : Attempt Kernel ε α} (h : Calm x) :
    Honest (fun k => k.processes = t) (Lost fun _ => False) x := by
  intro k
  have hsame : ∀ k' : Kernel, k'.control = k.control → k'.processes = k.processes := fun _ hk' =>
    congrArg Control.processes hk'
  refine (h k).mono (fun _ k' hk' => ?_) fun e k' hk' hor => (hsame k' hk').trans ?_
  · exact iff_of_eq (congrArg (· = t) (hsame k' hk'))
  · refine hor.resolve_right ?_
    cases e <;> exact id

theorem keeps_run (pid : Pid) :
    Honest (fun k => k.processes = t) (Lost fun _ => False) (run pid) :=
  .bind .get fun _ => .bind (.orFail _ id) fun s => .bind (.modify fun _ => Iff.rfl) fun _ =>
    .bind (keeps_of_calm (.checkKernelPages pid s)) fun _ => .bind (.lift (honest_process _))
      fun _ => .bind (.lift (.modify fun _ => Iff.rfl)) fun _ => .pure _

theorem keeps_schedule : Honest (fun k => k.processes = t) (Lost fun _ => False) schedule := by
  refine .bind .get fun k => .bind (.liftExcept _) fun next? => ?_
  cases next? with
  | some pid => exact keeps_run pid
  | none => exact keeps_of_calm (.waitFor _ _)

theorem keeps_resume : Honest (fun k => k.processes = t) (Lost fun _ => False) resume :=
  .bind .get fun _ => .bind (.lift (honest_process _)) fun _ => .ite (keeps_run _) keeps_schedule

theorem keeps_timerTick : Honest (fun k => k.processes = t) (Lost fun _ => False) timerTick :=
  .bind .get fun _ => .bind (.liftExcept _) fun _ => .bind (.modify fun _ => Iff.rfl) fun _ =>
    .bind (.lift (.modify fun _ => Iff.rfl)) fun _ => keeps_schedule

/-! ## what a trap makes of the slots -/

/-- the process tables that a trap with the registers `r` may leave: the slots are as they were, but
for the registers of the current one, or the current one is broken as well -/
inductive Leaves (k : Kernel) (r : Registers) : ProcessTable slotCount → Prop where
  | same : Leaves k r k.processes
  | saved : Leaves k r (k.saved r).processes
  | broken (hfault : (Operation.exception r).Faults) (hpoll : k.host.abortAfter ≠ some 0) :
      Leaves k r (k.broken r)

/-- a page fault of a process breaks the current slot, unless the host stops the kernel first -/
structure Left (k : Kernel) (r : Registers) (k' : Kernel) : Prop where
  leaves : Leaves k r k'.processes
  broken : (Operation.exception r).Faults → k.host.abortAfter ≠ some 0 →
    k'.processes = k.broken r

/-- what a panic leaves of it -/
def LeftOn (k : Kernel) (r : Registers) : Stop Halt → Kernel → Prop
  | .error _, k' => Left k r k'
  | .panic _, k' => Leaves k r k'.processes

theorem LeftOn.errs {e : Stop Halt} (h : LeftOn k r e k') : Errs (fun _ => Left k r) e k' := by
  cases e with
  | error e => exact h
  | panic e => trivial

theorem LeftOn.leaves {e : Stop Halt} (h : LeftOn k r e k') : Leaves k r k'.processes := by
  cases e with
  | error e => exact Left.leaves h
  | panic e => exact h

theorem ends_changeProcess_slots (pid : Pid) (change : Process → Process) :
    Ends (changeProcess pid change) k
      (fun _ k' => k' = { k with processes := k.processes.update pid change })
      fun _ k' => k' = k := by
  unfold changeProcess process ProcessTable.get
  rw [ends_bind, ends_bind, ends_get]
  cases k.processes.get? pid <;> rfl

theorem ends_save_slots (r : Registers) :
    Ends (save r) k (fun pid k' => pid = k.current ∧ k' = k.saved r) fun _ k' => k' = k := by
  unfold save
  rw [ends_bind, ends_get, ends_bind]
  exact (ends_changeProcess_slots _ _).mono (fun _ k' hk' => ends_pure.2 ⟨rfl, hk'⟩)
    fun _ _ he => he

theorem ends_showMemory_slots :
    Ends showMemory k
      (fun _ k' => k'.processes = k.processes ∧ k'.host.abortAfter = k.host.abortAfter)
      fun _ k' => k'.processes = k.processes := by
  have hkeeps : Honest (fun k' : Kernel =>
      k'.processes = k.processes ∧ k'.host.abortAfter = k.host.abortAfter) NoneLost showMemory :=
    .bind .get fun _ => .bind (.ofExcept _) fun _ => .modify fun _ => Iff.rfl
  exact (hkeeps k).mono (fun _ _ h => h.2 ⟨rfl, rfl⟩) fun _ _ h => (h (.inl ⟨rfl, rfl⟩)).1

/-- what keeps the process table does not change what a trap has made of it -/
theorem Left.ends {α : Type} {k₁ : Kernel} {x : Attempt Kernel Halt α} (h : Left k r k₁)
    (hx : ∀ t, Honest (fun k => k.processes = t) (Lost fun _ => False) x) :
    Ends x k₁ (fun _ => Left k r) (LeftOn k r) := by
  have hleft : ∀ k' : Kernel, k'.processes = k₁.processes → Left k r k' := fun k' hk' =>
    ⟨hk' ▸ h.leaves, hk' ▸ h.broken⟩
  refine (hx k₁.processes k₁).mono (fun _ k' hk' => hleft k' (hk'.2 rfl)) fun e k' hk' => ?_
  cases e with
  | error e => exact hleft k' (hk' (.inl rfl))
  | panic e => exact (hleft k' (hk' (.inl rfl))).leaves

/-- the work of a trap, once the registers are saved and the host lets the kernel go on -/
theorem ends_handle_slots {k₁ : Kernel} (h : k₁.processes = (k.saved r).processes)
    (hpoll : k.host.abortAfter ≠ some 0) (va : VirtualAddress) :
    Ends (handle k.current r (Trap.decode r va)) k₁ (fun _ => Left k r) (LeftOn k r) := by
  have hsaved : Leaves k r k₁.processes := h ▸ .saved
  have hother : ¬ (Operation.exception r).Faults → Left k r k₁ := fun hnot =>
    ⟨hsaved, fun hfault => absurd hfault hnot⟩
  unfold Trap.decode
  split
  · next htimer =>
    refine (hother fun hfault => ?_).ends fun _ => keeps_timerTick
    exact absurd (htimer.symm.trans hfault.1) (by decide)
  · split
    · next hvector =>
      show Ends (pageFault k.current r.rip va ⟨r.errcode⟩ >>= fun _ => resume) k₁ _ _
      unfold pageFault
      by_cases huser : (FaultCode.mk r.errcode).user = true
      · have hfault : (Operation.exception r).Faults := ⟨hvector, huser⟩
        rw [if_pos huser, bind_assoc, ends_bind, ends_lift]
        refine ends_report fun m hm => ?_
        rw [ends_bind, ends_lift]
        refine (ends_changeProcess_slots _ _).mono (fun _ k₂ h₂ => ?_) fun _ k₂ h₂ => ?_
        · have hbroken : k₂.processes = k.broken r := by
            rw [h₂, h]
            exact ProcessTable.update_update _ _
          refine Left.ends ⟨?_, fun _ _ => hbroken⟩ fun _ => keeps_resume
          rw [hbroken]
          exact .broken hfault hpoll
        · rw [h₂]
          exact hsaved
      · have hnot : ¬ (Operation.exception r).Faults := fun hfault => huser hfault.2
        rw [if_neg huser]
        exact (hother hnot).ends fun _ => .bind (.bind (keeps_of_calm (.lift (.report _ _ _)))
          fun _ => .fail id) fun _ => keeps_resume
    · next hvector =>
      refine (hother fun hfault => hvector hfault.1).ends fun _ => ?_
      exact .bind (keeps_of_calm (.lift (.report _ _ _))) fun _ => .fail id

/-- what a trap makes of the slots, on every machine and in every state -/
theorem ends_exception_slots (k : Kernel) (r : Registers) :
    Ends (exception r) k (fun _ => Left k r) (LeftOn k r) := by
  have hwork : ∀ k₁ : Kernel, k₁.processes = (k.saved r).processes →
      k₁.host.abortAfter = k.host.abortAfter → ∀ va,
      Ends (checkAbort >>= fun _ => handle k.current r (Trap.decode r va)) k₁ (fun _ => Left k r)
        (LeftOn k r) := by
    intro k₁ h₁ hpolls va
    rw [ends_bind]
    refine ends_checkAbort (fun hpoll => ?_) fun hstop m hm => ?_
    · have hpolled : Kernel.processes { k₁ with host := k₁.host.pollAbort.2 }
          = (k.saved r).processes := h₁
      exact ends_handle_slots hpolled (hpolls ▸ hpoll) va
    · exact ⟨h₁ ▸ .saved, fun _ hpoll => absurd (hpolls.symm.trans hstop) hpoll⟩
  unfold exception
  rw [ends_bind, ends_lift]
  refine (ends_save_slots r).mono (fun pid k₁ h₁ => ?_) fun _ k₁ h₁ => ?_
  · obtain ⟨rfl, rfl⟩ := h₁
    rw [ends_bind, ends_lift]
    refine ends_decodeTrap fun host hhost => ends_ite.2 ⟨fun _ => ?_, fun _ => ?_⟩
    · rw [ends_bind, ends_lift]
      refine ends_showMemory_slots.mono (fun _ k₂ h₂ => ?_) fun _ k₂ h₂ => ?_
      · exact hwork k₂ h₂.1 (h₂.2.trans hhost) _
      · show Leaves k r k₂.processes
        rw [h₂]
        exact .saved
    · exact hwork { k.saved r with host := host } rfl hhost _
  · rw [h₁]
    exact .same

/-- a slot without an address space is freed, whatever is in it -/
theorem exists_teardown (hzero : pid ≠ 0) (hp : k.processes.get? pid = some p)
    (hspace : p.space = none) : ∃ k', teardown pid k = .ok () k' ∧ k'.processes =
      k.processes.update pid fun p => { p with state := .free, registers := {} } := by
  have hends : Ends (teardown pid) k (fun _ k' => k'.processes =
      k.processes.update pid fun p => { p with state := .free, registers := {} }) Never := by
    unfold teardown freeProcess
    rw [if_neg (not_or.2 ⟨hzero, Nat.not_le.2 (ProcessTable.lt_of_get? hp)⟩), ends_bind,
      ends_mapError, ends_bind, ends_lift, ends_process hp, hspace]
    rw [ends_lift, ends_setProcess, ends_bind, ends_get, ends_lift]
    exact ends_report fun m hm => rfl
  obtain ⟨_, k', heq, hk'⟩ := hends.exists_ok
  exact ⟨k', heq, hk'⟩

/-- what a trap with the registers `r` does to the slots when the current process cannot run -/
structure Strikes (k : Kernel) (r : Registers) (k' : Kernel) : Prop where
  /-- all slots but the current one are as they were -/
  others : ∀ q, q ≠ k.current → k'.processes.get? q = k.processes.get? q
  /-- no address space is lost, or comes to a slot -/
  spaces : ∀ q, k'.processes.space? q = k.processes.space? q
  /-- those that can run are the same -/
  runs : ∀ q, k'.processes.Runs q ↔ k.processes.Runs q
  /-- the current slot keeps its state or is broken -/
  state : ∀ p, k.processes.get? k.current = some p →
    ∃ p', k'.processes.get? k.current = some p' ∧ (p'.state = p.state ∨ p'.state = .broken)
  /-- unless the trap is a page fault of a process and the host lets the kernel go on, all slots are
  as they were but for registers, and so is the slot that the next fork takes -/
  quiet : ¬ (Operation.exception r).Faults ∨ k.host.abortAfter = some 0 →
    (∀ q, (k'.processes.get? q).map Process.life = (k.processes.get? q).map Process.life) ∧
      k'.processes.firstFree? = k.processes.firstFree?
  /-- else the current slot is broken, even if it was free -/
  struck : (Operation.exception r).Faults → k.host.abortAfter ≠ some 0 →
    (Operation.exception r).Completes k → ∀ p, k.processes.get? k.current = some p →
      k'.processes.get? k.current = some { p with registers := r, state := .broken }
  /-- the next fork takes the same slot as before, unless it was the current one -/
  first : (∀ p, k.processes.get? k.current = some p → k.processes.firstFree? ≠ some p.pid) →
    k'.processes.firstFree? = k.processes.firstFree?
  /-- a current slot that was free can be freed again, and then all slots are as they were; that of
  the kernel cannot, but nobody could use it -/
  freed : k.current ≠ 0 →
    (∃ p, k.processes.get? k.current = some p ∧ p.isVacant = true) →
    ∃ k'', teardown k.current k' = .ok () k'' ∧
      (∀ q, (k''.processes.get? q).map Process.life = (k.processes.get? q).map Process.life) ∧
      k''.processes.firstFree? = k.processes.firstFree?

theorem Leaves.life (h : Leaves k r t)
    (hquiet : ¬ (Operation.exception r).Faults ∨ k.host.abortAfter = some 0) (q : Nat) :
    (t.get? q).map Process.life = (k.processes.get? q).map Process.life := by
  cases h with
  | same => rfl
  | saved => exact ProcessTable.life_update fun _ => rfl
  | broken hfault hpoll => exact (hquiet.elim (· hfault) hpoll).elim

theorem Leaves.space? (h : Leaves k r t) (q : Nat) : t.space? q = k.processes.space? q := by
  cases h with
  | same => rfl
  | saved => exact ProcessTable.space?_update fun _ => rfl
  | broken => exact ProcessTable.space?_update fun _ => rfl

theorem Leaves.get?_of_ne (h : Leaves k r t) (hq : q ≠ k.current) :
    t.get? q = k.processes.get? q := by
  cases h with
  | same => rfl
  | saved => exact ProcessTable.get?_update_of_ne _ hq
  | broken => exact ProcessTable.get?_update_of_ne _ hq

theorem Leaves.exists_slot (h : Leaves k r t) (hp : k.processes.get? k.current = some p) :
    ∃ state registers, t.get? k.current = some { p with state, registers } ∧
      (state = p.state ∨ state = .broken) := by
  cases h with
  | same => exact ⟨p.state, p.registers, hp, .inl rfl⟩
  | saved => exact ⟨p.state, r, ProcessTable.get?_update_self _ hp, .inl rfl⟩
  | broken => exact ⟨.broken, r, ProcessTable.get?_update_self _ hp, .inr rfl⟩

theorem Leaves.firstFree? (h : Leaves k r t)
    (hfirst : ∀ p, k.processes.get? k.current = some p → k.processes.firstFree? ≠ some p.pid) :
    t.firstFree? = k.processes.firstFree? := by
  cases h with
  | same => rfl
  | saved => exact ProcessTable.firstFree?_of_life fun _ => ProcessTable.life_update fun _ => rfl
  | broken => exact ProcessTable.firstFree?_update (fun _ => rfl) hfirst

theorem Leaves.runs_iff (h : Leaves k r t) (hidle : ¬ k.processes.Runs k.current) (q : Nat) :
    t.Runs q ↔ k.processes.Runs q := by
  by_cases hq : q = k.current
  · subst hq
    refine iff_of_false ?_ hidle
    rintro ⟨p', hp', hrun⟩
    obtain ⟨p, hp⟩ := ProcessTable.exists_get? (t := k.processes) (ProcessTable.lt_of_get? hp')
    obtain ⟨state, registers, hslot, hstate⟩ := h.exists_slot hp
    obtain rfl := Option.some.inj (hp'.symm.trans hslot)
    rcases hstate with rfl | rfl
    · exact hidle ⟨p, hp, hrun⟩
    · cases hrun
  · exact ProcessTable.runs_congr (h.get?_of_ne hq)

/-- whatever the trap has made of a current slot that was free, it can be freed again -/
theorem Leaves.exists_freed (h : Leaves k r k'.processes) (hzero : k.current ≠ 0)
    (hp : k.processes.get? k.current = some p) (hvacant : p.isVacant = true) :
    ∃ k'', teardown k.current k' = .ok () k'' ∧
      ∀ q, (k''.processes.get? q).map Process.life = (k.processes.get? q).map Process.life := by
  obtain ⟨hfree, hnone⟩ := Process.isVacant_iff.1 hvacant
  obtain ⟨state, registers, hslot, -⟩ := h.exists_slot hp
  obtain ⟨k'', hdown, hk''⟩ := exists_teardown hzero hslot hnone
  refine ⟨k'', hdown, fun q => ?_⟩
  rw [hk'']
  by_cases hq : q = k.current
  · rw [hq, ProcessTable.get?_update_self _ hslot, hp, Option.map_some, Option.map_some,
      Process.life, Process.life, hfree]
  · rw [ProcessTable.get?_update_of_ne _ hq, h.get?_of_ne hq]

/-- a trap that comes while the current process cannot run -/
theorem strikes (hidle : ¬ k.processes.Runs k.current) (r : Registers) :
    Strikes k r ((Operation.exception r).perform k) := by
  have hends := ends_exception_slots k r
  have hleaves : Leaves k r ((Operation.exception r).perform k).processes :=
    Ends.leave (P := fun k' => Leaves k r k'.processes)
      (hends.mono (fun _ _ h => h.leaves) fun _ _ he => he.leaves)
  refine ⟨fun q hq => hleaves.get?_of_ne hq, hleaves.space?, hleaves.runs_iff hidle,
    fun p hp => ?_, fun hquiet => ⟨hleaves.life hquiet, ?_⟩, fun hfault hpoll hgo p hp => ?_,
    hleaves.firstFree?, ?_⟩
  · obtain ⟨state, registers, hslot, hstate⟩ := hleaves.exists_slot hp
    exact ⟨_, hslot, hstate⟩
  · exact ProcessTable.firstFree?_of_life (hleaves.life hquiet)
  · have hleft : Left k r ((Operation.exception r).perform k) :=
      Ends.outcome (f := .dispatched) (P := fun _ => Left k r)
        (hends.mono (fun _ _ h => h) fun _ _ he => he.errs) hgo
    rw [hleft.broken hfault hpoll]
    exact ProcessTable.get?_update_self _ hp
  · rintro hzero ⟨p, hp, hvacant⟩
    obtain ⟨k'', hdown, hlife⟩ := hleaves.exists_freed hzero hp hvacant
    exact ⟨k'', hdown, hlife, ProcessTable.firstFree?_of_life hlife⟩

end Kernel

/-- the registers of a page fault of a process -/
def Registers.strayFault : Registers where
  intno := 14
  errcode := 4

/-- a process is taken down while it is the current one, on a host that does not stop the kernel -/
theorem Session.exists_emptied : ∃ (k₀ k : Kernel) (past : List (Kernel × Operation)) (p : Process),
    Kernel.start {} { idleLimit := some ⟨4, by decide⟩ } = .started k₀ ∧ Session k₀ past k ∧
    past.map Prod.snd = [.teardown 1, .run 1, .setup 1 .bare] ∧ k.Unhindered ∧ k.current = 1 ∧
    k.processes.get? 1 = some p ∧ p.isVacant = true := by
  obtain ⟨k₀, k, past, s, h₀, h, hpast, -, hcurrent, ⟨p, hp, hvacant⟩, -⟩ :=
    PagedKernel.exists_emptied
  have h' := h.host { calls := k.host.calls } rfl
  obtain ⟨hvalid, hconfig⟩ := h'.valid h₀ Layout.ordered_default
  refine ⟨k₀, _, past, p, h₀, h', hpast, ⟨hvalid, ?_, ?_, rfl⟩, hcurrent, hp, hvacant⟩
  · exact Kernel.layout_of_config hconfig ▸ Layout.sparesNull_default
  · rw [hconfig]
    nofun

theorem Kernel.strikes_emptied : ∃ (k₀ k : Kernel) (past : List (Kernel × Operation)),
    Kernel.start {} { idleLimit := some ⟨4, by decide⟩ } = .started k₀ ∧ Session k₀ past k ∧
    past.map Prod.snd = [.teardown 1, .run 1, .setup 1 .bare] ∧ k.current = 1 ∧
    ¬ k.processes.Runs k.current ∧
    Strikes k .strayFault ((Operation.exception .strayFault).perform k) := by
  obtain ⟨k₀, k, past, p, h₀, h, hpast, -, hcurrent, hp, hvacant⟩ := Session.exists_emptied
  have hidle : ¬ k.processes.Runs k.current := by
    rw [hcurrent, ProcessTable.runs_iff_state hp, (Process.isVacant_iff.1 hvacant).1]
    nofun
  exact ⟨k₀, k, past, h₀, h, hpast, hcurrent, hidle, strikes hidle _⟩

/-- on a host that does not stop it, the kernel breaks its current slot -/
theorem Kernel.Unhindered.exists_struck (h : k.Unhindered)
    (hp : k.processes.get? k.current = some p) :
    ((Operation.exception .strayFault).perform k).processes.get? k.current
      = some { p with registers := .strayFault, state := .broken } := by
  obtain ⟨d, k', heq, -, hslots⟩ :=
    (ends_userFault (r := .strayFault) h rfl (by decide)).exists_ok
  rw [show (Operation.exception .strayFault).perform k = k' from leave_of_ok heq, hslots]
  exact ProcessTable.get?_update_self _ hp

/-- A page fault that comes when the current process was taken down breaks its slot, which was free
and no fork takes any more; one that comes before the first process has run breaks the slot of the
kernel. -/
theorem Kernel.strikes_otherwise : ∃ (k₀ k : Kernel) (past : List (Kernel × Operation))
    (p p₀ p' p₀' : Process),
    Kernel.start {} { idleLimit := some ⟨4, by decide⟩ } = .started k₀ ∧ Session k₀ past k ∧
    past.map Prod.snd = [.teardown 1, .run 1, .setup 1 .bare] ∧
    (k.processes.get? 1 = some p ∧ p.state = .free ∧ p.space = none ∧
      k.processes.firstFree? = some 1) ∧
    (((Operation.exception .strayFault).perform k).processes.get? 1 = some p' ∧
      p'.state = .broken ∧ p'.space = none ∧
      ((Operation.exception .strayFault).perform k).processes.firstFree? ≠ some 1) ∧
    (k₀.processes.get? 0 = some p₀ ∧ p₀.state = .free) ∧
    ((Operation.exception .strayFault).perform k₀).processes.get? 0 = some p₀' ∧
      p₀'.state = .broken := by
  obtain ⟨k₀, k, past, p, h₀, h, hpast, hk, hcurrent, hp, hvacant⟩ := Session.exists_emptied
  obtain ⟨hfree, hnone⟩ := Process.isVacant_iff.1 hvacant
  have hstruck := hk.exists_struck (hcurrent.symm ▸ hp)
  rw [hcurrent] at hstruck
  have hnumbered := (Operation.confined hk.valid (.exception .strayFault)).valid.numbered
  -- slot 1 was the one of the lowest number
  have hfirst : k.processes.firstFree? = some 1 := by
    cases hslot : k.processes.firstFree? with
    | none => exact absurd hslot (ProcessTable.firstFree?_ne_none hp hvacant Nat.one_ne_zero)
    | some q =>
      obtain ⟨⟨-, -, -, hzero⟩, hbelow⟩ := ProcessTable.firstFree?_cases hk.valid.numbered hslot
      rcases Nat.lt_or_ge 1 q with hlt | hge
      · cases hvacant.symm.trans (hbelow 1 p Nat.one_ne_zero hlt hp)
      · exact congrArg some (Nat.le_antisymm hge (Nat.one_le_iff_ne_zero.2 hzero))
  have hgone : ((Operation.exception .strayFault).perform k).processes.firstFree? ≠ some 1 := by
    intro hslot
    obtain ⟨p', hp', hvacant', -⟩ := ProcessTable.firstFree?_some hnumbered hslot
    obtain rfl := Option.some.inj (hstruck.symm.trans hp')
    cases hvacant'
  -- before the first process has run the current slot is the kernel's
  obtain ⟨hvalid₀, hconfig₀, -⟩ := Kernel.started_valid Layout.ordered_default h₀
  obtain ⟨p₀, hp₀⟩ := ProcessTable.exists_get? (t := k₀.processes) (show 0 < slotCount by decide)
  have hk₀ : k₀.Unhindered ∧ k₀.current = 0 := by
    obtain ⟨machine, space, rfl⟩ := Kernel.eq_of_started h₀
    exact ⟨⟨hvalid₀, Layout.sparesNull_default, nofun, rfl⟩, rfl⟩
  have hstruck₀ := hk₀.1.exists_struck (hk₀.2.symm ▸ hp₀)
  rw [hk₀.2] at hstruck₀
  exact ⟨k₀, k, past, p, p₀, _, _, h₀, h, hpast, ⟨hp, hfree, hnone, hfirst⟩,
    ⟨hstruck, rfl, hnone, hgone⟩,
    ⟨hp₀, (Process.isVacant_iff.1 (Kernel.isVacant_of_started h₀ hp₀)).1⟩, hstruck₀, rfl⟩

end PagedKernel
