import PagedKernel.Proofs.Control.Effects

/-!
# Sessions

A session is a row of operations on a kernel.  System calls and interrupts come from processes that
can run; anything else may be asked at any time, with any arguments.

* `Session`                 the operations so far, with the kernels that they were asked of
* `Session.orderly`         the process table stays in order
* `Session.valid`           on an ordered layout all kernels of a session are valid
* `Session.exists_loaded`, `Session.exists_filled`   there are sessions, with one process or several
-/

namespace PagedKernel

/-- the operations of a session from `k₀` on, each with the kernel it was asked of, the latest
first.  Between operations the host may change, but not what it has recorded. -/
inductive Session (k₀ : Kernel) : List (Kernel × Operation) → Kernel → Prop where
  | start : Session k₀ [] k₀
  | operate {past : List (Kernel × Operation)} {k : Kernel} (h : Session k₀ past k)
      (op : Operation) (hdue : op.Delivered k) (hgo : op.Completes k) :
      Session k₀ ((k, op) :: past) (op.perform k)
  | host {past : List (Kernel × Operation)} {k : Kernel} (h : Session k₀ past k) (host : Host)
      (hcalls : host.calls = k.host.calls) : Session k₀ past { k with host := host }

variable {k₀ k : Kernel} {op : Operation} {past : List (Kernel × Operation)} {pid q : Nat}

theorem control_host {host : Host} (hcalls : host.calls = k.host.calls) :
    Kernel.control { k with host := host } = k.control :=
  congrArg (fun calls : List HostCall =>
    { k.control with activations := calls.filterMap HostCall.activation? }) hcalls

/-! ## order -/

theorem Orderly.of_started {host : Host} {config : KernelConfig}
    (h : Kernel.start host config = .started k₀) : Orderly k₀.control := by
  obtain ⟨machine, space, rfl⟩ := Kernel.eq_of_started h
  refine ⟨fun p hp => ?_, fun pid p hp => ?_, Nat.zero_lt_succ 15, fun pid p hp _ => ?_⟩
  · exact Process.isVacant_iff.2 (ProcessTable.get?_empty hp).2
  · exact (ProcessTable.get?_empty hp).1
  · exact (ProcessTable.get?_empty hp).2.2

theorem Operation.Faults.runs (h : op.Faults) (hdue : op.Delivered k) :
    k.processes.Runs k.current := by
  cases op with
  | exception r => exact hdue
  | _ => exact h.elim

theorem Orderly.perform (ho : Orderly k.control) (hdue : op.Delivered k) (hgo : op.Completes k) :
    Orderly (op.perform k).control := by
  obtain ⟨hevolves, hended, -⟩ := op.effect ho hdue hgo
  refine ⟨fun p' hp' => ?_, fun q p' hp' => ?_, hended.current hgo ho.current,
    fun q p' hp' hfree => ?_⟩
  · obtain ⟨p, hp, hturn⟩ := hevolves.exists_turn hp'
    have hvacant := ho.kernel p hp
    cases hturn with
    | untouched => exact hvacant
    | vacant r => exact hvacant
    | loaded s r hq => exact absurd rfl hq
    | replied r => exact hvacant
    | broke r hq hop => exact absurd hq.symm (ho.ne_zero (hop.runs hdue))
    | left hq => exact absurd rfl hq
    | stranded r hop hspace =>
      rw [(Process.isVacant_iff.1 hvacant).2] at hspace
      cases hspace
  · obtain ⟨p, hp, hturn⟩ := hevolves.exists_turn hp'
    have hpid := ho.numbered q p hp
    cases hturn <;> exact hpid
  · obtain ⟨p, hp, hturn⟩ := hevolves.exists_turn hp'
    cases hturn with
    | untouched => exact ho.free q _ hp hfree
    | vacant r => exact ho.free q p hp hfree
    | loaded s r => cases hfree
    | replied r => exact ho.free q p hp hfree
    | broke r => cases hfree
    | left => rfl
    | stranded r => rfl

theorem Session.orderly (h : Session k₀ past k) (h₀ : Orderly k₀.control) : Orderly k.control := by
  induction h with
  | start => exact h₀
  | operate _ op hdue hgo ih => exact ih.perform hdue hgo
  | host _ host hcalls ih =>
    rw [control_host hcalls]
    exact ih

/-- a process goes on if it does not leave and makes no fault -/
theorem Evolves.runs {t : ProcessTable slotCount} (h : Evolves k op t) (hruns : k.processes.Runs q)
    (hfrees : ¬ op.Frees k q) (hfaults : op.Faults → q ≠ k.current) : t.Runs q := by
  obtain ⟨p, hp, hrun⟩ := hruns
  obtain ⟨p', hp', hturn⟩ := h q p hp
  refine ⟨p', hp', ?_⟩
  cases hturn with
  | untouched => exact hrun
  | vacant r => exact hrun
  | loaded s r => rfl
  | replied r => exact hrun
  | broke r hq hop => exact absurd hq (hfaults hop)
  | left hq hop => exact absurd hop hfrees
  | stranded r hop => exact absurd hop.1 hfrees

theorem Operation.Completes.of_outcome {o : Outcome} (h : op.outcome k = o) (ho : o ≠ .panicked) :
    op.Completes k := by
  unfold Completes
  rw [h]
  exact ho

theorem Operation.Completes.of_dispatched {d : Dispatch} (h : op.outcome k = .dispatched d) :
    op.Completes k :=
  .of_outcome h nofun

theorem Operation.Completes.of_succeeded (h : op.outcome k = .succeeded) : op.Completes k :=
  .of_outcome h nofun

/-! ## valid kernels -/

theorem Session.reachable (h : Session k₀ past k) : Kernel.Reachable k₀ k := by
  induction h with
  | start => exact .start
  | operate _ op _ _ ih => exact ih.operate op
  | host _ host _ ih => exact ih.host host

theorem Session.valid {host : Host} {config : KernelConfig} (h : Session k₀ past k)
    (h₀ : Kernel.start host config = .started k₀) (hl : config.layout.Ordered) :
    k.Valid ∅ ∧ k.config = config := by
  obtain ⟨hvalid₀, hconfig, -⟩ := Kernel.started_valid hl h₀
  obtain ⟨hvalid, hspares⟩ := h.reachable.confined hvalid₀
  exact ⟨hvalid, hspares.config.trans hconfig⟩

/-- an attempt that does not fail succeeds -/
theorem outcome_of_ends {ε α : Type} {x : Attempt Kernel ε α} {f : α → Outcome}
    {Q : α → Kernel → Prop} (h : Ends x k Q Never) :
    ∃ a, Outcome.of f (x k) = f a ∧ Q a (PagedKernel.leave x k) := by
  obtain ⟨a, k', hx, hq⟩ := h.exists_ok
  rw [PagedKernel.leave, hx]
  exact ⟨a, rfl, hq⟩

namespace Kernel

/-- a slot with a program -/
def loadedBare (l : Layout) (space : AddressSpace) (p : Process) : Process :=
  { p with
    space := some space
    state := .runnable
    registers := Registers.entry ProgramImage.bare.entry.value l.virtualSize }

/-- a program without segments can be loaded while there are eight free frames -/
theorem setup_bare (h : k.Valid ∅) (hzero : pid ≠ 0)
    (hslot : ∃ p, k.processes.get? pid = some p ∧ p.isVacant = true)
    (hsmall : k.layout.firstPage ≤ 512) (hfree : 8 ≤ k.freeCount) :
    (Operation.setup pid .bare).outcome k = .succeeded ∧
      Confined ∅ k ((Operation.setup pid .bare).perform k) ∧
      k.freeCount ≤ ((Operation.setup pid .bare).perform k).freeCount + 8 ∧
      ∃ s, ((Operation.setup pid .bare).perform k).control
        = k.control.change pid (loadedBare k.layout s) := by
  have hcost : ProgramImage.bare.cost k.layout ≤ 7 := ProgramImage.cost_le_of_nil rfl hsmall
  have hends : Ends (setup pid .bare) k (fun _ k' => Confined ∅ k k' ∧
      k.freeCount ≤ k'.freeCount + 8 ∧
      ∃ s, k'.control = k.control.change pid (loadedBare k.layout s)) Never := by
    refine ((ends_setup h .bare).and (Control.ends_setup pid .bare)).mono
      (fun _ k' hk' => ?_) fun e k' he => ?_
    · obtain ⟨⟨hconfined, -, -, -, hspent, -⟩, -, -, hcontrol⟩ := hk'
      exact ⟨hconfined, by omega, hcontrol⟩
    · cases e with
      | panic e => exact he.1.elim
      | error e =>
        have hless := (he.1.2.2 hzero hslot).1 (ProgramImage.fits_of_nil rfl)
        omega
  obtain ⟨-, houtcome, hk'⟩ := outcome_of_ends (f := fun _ => .succeeded) hends
  exact ⟨houtcome, hk'⟩

theorem run_of_runs (h : k.Valid ∅) (hnull : k.layout.SparesNull) (hruns : k.processes.Runs pid) :
    (Operation.run pid).outcome k = .dispatched (.run pid) ∧
      Rests k ((Operation.run pid).perform k) ∧
      Control.HandsOver k.control (.run pid) ((Operation.run pid).perform k).control := by
  have hends : Ends (run pid) k (fun d k' => d = .run pid ∧ Rests k k' ∧
      Control.HandsOver k.control d k'.control) Never := by
    refine ((ends_run h).and (Control.ends_run pid)).mono
      (fun d k' hk' => ⟨hk'.2.1, hk'.1.2.2.2.2.1, hk'.2.2⟩) fun e k' he => ?_
    cases e with
    | panic e => exact he.1.elim
    | error e =>
      rcases he.1 with ⟨-, hnot, -⟩ | ⟨-, hnot, -⟩
      · exact absurd hruns hnot
      · exact absurd hnull hnot
  obtain ⟨-, houtcome, rfl, hk'⟩ := outcome_of_ends (f := .dispatched) hends
  exact ⟨houtcome, hk'⟩

theorem teardown_of_lt (h : k.Valid ∅) (hzero : pid ≠ 0) (hlt : pid < slotCount) :
    (Operation.teardown pid).outcome k = .succeeded ∧
      Confined {pid} k ((Operation.teardown pid).perform k) ∧
      ((Operation.teardown pid).perform k).control = k.control.change pid Process.vacated := by
  have hends : Ends (teardown pid) k (fun _ k' => Confined {pid} k k' ∧
      k'.control = k.control.change pid Process.vacated) Never := by
    refine ((ends_teardown h).and (Control.ends_teardown pid)).mono
      (fun _ k' hk' => ⟨hk'.1.1.confined, hk'.2.2⟩) fun e k' he => ?_
    cases e with
    | panic e => exact he.1.elim
    | error e =>
      rcases he.1.1 with hout | hout
      · exact absurd hout hzero
      · exact absurd hlt (Nat.not_lt.2 hout)
  obtain ⟨-, houtcome, hk'⟩ := outcome_of_ends (f := fun _ => .succeeded) hends
  exact ⟨houtcome, hk'⟩

theorem getPid_of_runs {r : Registers} (h : k.Valid ∅) (ho : Orderly k.control)
    (hnormal : k.Normal False) (hpoll : k.host.abortAfter ≠ some 0)
    (hrax : r.rax = CallNumber.getPid.value) :
    (Operation.syscall r).outcome k = .dispatched (.run k.current) := by
  have hnot : ∀ halt, ¬ k.SyscallHalt r halt :=
    not_syscallHalt hpoll hrax (by decide) (by decide)
  have hends : Ends (Kernel.syscall r) k (fun d k' => k'.Handed d) Never := by
    refine (ends_syscall h r).mono (fun d k' hk' => (hk'.2 hnormal).2) fun e k' he => ?_
    obtain ⟨halt, -, hhalt⟩ := he.normal hnormal
    exact absurd hhalt (hnot halt)
  obtain ⟨d, houtcome, hhanded⟩ := outcome_of_ends (f := .dispatched) hends
  have houtcome : (Operation.syscall r).outcome k = .dispatched d := houtcome
  have hstays : ¬ (Operation.syscall r).Schedules := by
    rintro (h | h) <;> exact absurd (hrax.symm.trans h) (by decide)
  have hfrees : ¬ (Operation.syscall r).Frees k k.current := by
    rintro ⟨-, h⟩
    exact absurd (hrax.symm.trans h) (by decide)
  obtain ⟨hevolves, -, hmoves⟩ := (Operation.syscall r).effect ho hnormal.runs
    (.of_outcome houtcome nofun)
  rw [houtcome]
  cases d with
  | run pid =>
    have hpid : (leave (Kernel.syscall r) k).current = pid := hhanded.1
    have hsame : (leave (Kernel.syscall r) k).current = k.current := hmoves.same hstays id
    rw [← hpid, hsame]
  | idle => exact absurd (hevolves.runs hnormal.runs hfrees False.elim) (hhanded _)

end Kernel

/-- on a machine with few frames, of which twelve are free, a process can be loaded -/
theorem Session.exists_loaded (host : Host) (config : KernelConfig) (hl : config.layout.Ordered)
    (hsmall : config.layout.frameCount ≤ 512)
    (hfree : 12 ≤ (List.range config.layout.frameCount).countP config.layout.isUsable) :
    ∃ k₀ k, Kernel.start host config = .started k₀ ∧ 8 ≤ k₀.freeCount ∧
      Session k₀ [(k₀, .setup 1 .bare)] k ∧ k.Valid ∅ ∧ k.config = config ∧ k.processes.Runs 1 ∧
      ∃ s, k.control = k₀.control.change 1 (Kernel.loadedBare config.layout s) := by
  have htables := tablesFor_le_three hsmall
  obtain ⟨k₀, hstart, hspare⟩ := Kernel.exists_started host hl (by omega)
  obtain ⟨hvalid, hconfig, hnone⟩ := Kernel.started_valid hl hstart
  have hlayout : k₀.layout = config.layout := congrArg KernelConfig.layout hconfig
  have hfirst := hl.firstPage_le
  obtain ⟨p, hp⟩ := ProcessTable.exists_get? (t := k₀.processes) (show 1 < slotCount by decide)
  obtain ⟨houtcome, -, -, s, hk⟩ := Kernel.setup_bare hvalid Nat.one_ne_zero
    ⟨p, hp, Kernel.isVacant_of_started hstart hp⟩ (by rw [hlayout]; omega) (by omega)
  have hsession : Session k₀ [(k₀, .setup 1 .bare)] ((Operation.setup 1 .bare).perform k₀) :=
    Session.start.operate _ trivial (.of_outcome houtcome nofun)
  obtain ⟨hvalid', hconfig'⟩ := hsession.valid hstart hl
  refine ⟨k₀, _, hstart, by omega, hsession, hvalid', hconfig', ?_, s, hlayout ▸ hk⟩
  rw [show Kernel.processes _ = _ from congrArg Control.processes hk]
  exact ⟨_, ProcessTable.get?_update_self _ hp, rfl⟩

/-! ## several processes -/

/-- the processes in the slots `1` to `n` can run, and all other slots are vacant -/
def ProcessTable.Filled (t : ProcessTable slotCount) (n : Nat) : Prop :=
  ∀ (q : Nat) p, t.get? q = some p →
    if 1 ≤ q ∧ q ≤ n then p.state = .runnable else p.isVacant = true

theorem ProcessTable.Filled.runs_iff {t : ProcessTable slotCount} {n : Nat} (h : t.Filled n)
    (hn : n < slotCount) : t.Runs q ↔ 1 ≤ q ∧ q ≤ n := by
  constructor
  · rintro ⟨p, hp, hrun⟩
    have hslot := h q p hp
    split at hslot
    · next hq => exact hq
    · rw [← ProcessTable.runs_iff_isRunnable hp, ProcessTable.runs_iff_state hp,
        (Process.isVacant_iff.1 hslot).1] at hrun
      cases hrun
  · intro hq
    obtain ⟨p, hp⟩ := ProcessTable.exists_get? (t := t) (Nat.lt_of_le_of_lt hq.2 hn)
    have hslot := h q p hp
    rw [if_pos hq] at hslot
    exact (ProcessTable.runs_iff_state hp).2 hslot

/-- one more slot is filled -/
theorem ProcessTable.Filled.update {t : ProcessTable slotCount} {n : Nat} (h : t.Filled n)
    {change : Process → Process} (hchange : ∀ p, (change p).state = .runnable) :
    (t.update (n + 1) change).Filled (n + 1) := by
  intro q p' hp'
  rw [ProcessTable.get?_update] at hp'
  rcases Decidable.em (n + 1 = q) with rfl | hq
  · rw [if_pos rfl] at hp'
    obtain ⟨p, -, rfl⟩ := Option.map_eq_some_iff.1 hp'
    rw [if_pos ⟨Nat.succ_pos n, Nat.le_refl _⟩]
    exact hchange p
  · rw [if_neg hq] at hp'
    have hslot := h q p' hp'
    rwa [if_congr (show 1 ≤ q ∧ q ≤ n ↔ 1 ≤ q ∧ q ≤ n + 1 by omega) rfl rfl] at hslot

/-- a kernel that has started can load a process into each of its first slots, while there are eight
free frames for each -/
theorem Session.exists_filled {host : Host} {config : KernelConfig} {n : Nat}
    (h₀ : Kernel.start host config = .started k₀) (hl : config.layout.Ordered)
    (hsmall : config.layout.firstPage ≤ 512) (hn : n < slotCount) (hfree : 8 * n ≤ k₀.freeCount) :
    ∃ past k, Session k₀ past k ∧ (past.map Prod.snd).reverse
        = (List.range n).map (fun i => Operation.setup (i + 1) .bare) ∧
      k.processes.Filled n ∧ k.current = 0 ∧ k₀.freeCount ≤ k.freeCount + 8 * n := by
  induction n with
  | zero =>
    refine ⟨[], k₀, .start, rfl, fun q p hp => ?_, ?_, Nat.le_refl _⟩
    · rw [if_neg (by omega)]
      exact Kernel.isVacant_of_started h₀ hp
    · obtain ⟨machine, space, rfl⟩ := Kernel.eq_of_started h₀
      rfl
  | succ n ih =>
    obtain ⟨past, k, h, hpast, hfilled, hcurrent, hspent⟩ := ih (by omega) (by omega)
    obtain ⟨hvalid, hconfig⟩ := h.valid h₀ hl
    obtain ⟨p, hp⟩ := ProcessTable.exists_get? (t := k.processes) hn
    have hvacant := hfilled (n + 1) p hp
    rw [if_neg (by omega)] at hvacant
    obtain ⟨houtcome, -, hspent', s, hk'⟩ := Kernel.setup_bare hvalid (Nat.add_one_ne_zero n)
      ⟨p, hp, hvacant⟩ (by rwa [Kernel.layout_of_config hconfig]) (by omega)
    refine ⟨_, _, h.operate (.setup (n + 1) .bare) trivial (.of_succeeded houtcome), ?_, ?_,
      (congrArg Control.current hk').trans hcurrent, by omega⟩
    · rw [List.map_cons, List.reverse_cons, hpast, List.range_succ, List.map_append]
      rfl
    · rw [show Kernel.processes _ = _ from congrArg Control.processes hk']
      exact hfilled.update fun _ => rfl

end PagedKernel
