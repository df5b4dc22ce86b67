import PagedKernel.Proofs.Control.Sessions

/-!
# Going round

Processes that can run take turns: one that can run all the time is chosen again before any other
has been chosen twice.

* `gap p c`             how many slots lie between slot `c` and slot `p`, going round the table
* `gap_next`            with every choice of another process the gap to `p` becomes smaller
* `rounds`              what came of the choices of a session
* `Session.rounds_eq`   the choices of a session, and the gaps between them
* `Fair p os`           `p` is chosen often enough, and no other process too often
* `Session.fair`        the choices of a session are fair
* `Session.rounds_of_filled`   the processes in the first slots are chosen one after another
-/

namespace PagedKernel

variable {k₀ k k' : Kernel} {op : Operation} {past later : List (Kernel × Operation)}
  {p q c : Nat} {host : Host} {config : KernelConfig}

/-! ## the gap -/

/-- how many slots lie between slot `c` and slot `p`, going round the table from `c` on -/
def gap (p c : Nat) : Nat := (p + slotCount - c - 1) % slotCount

/-- slot `p` is that many slots and one further on -/
theorem add_gap (hp : p < slotCount) (hc : c < slotCount) :
    (c + (gap p c + 1)) % slotCount = p := by
  unfold gap slotCount at *
  omega

/-- `p` is chosen, or another process that lies before it -/
theorem gap_next {t : ProcessTable slotCount} (hc : c < slotCount) (hp : t.Runs p)
    (hnext : nextRunnable t c = .ok (some q)) : q = p ∨ gap p q < gap p c := by
  rcases nextRunnable_first t hc (by decide) with ⟨next, hfirst, heq⟩ | ⟨hnone, -⟩
  · obtain rfl := Option.some.inj (Except.ok.inj (hnext.symm.trans heq))
    obtain ⟨step, hpos, hle, rfl, -, hbefore⟩ := hfirst
    have hlt : p < slotCount := hp.lt
    have hstep : step ≤ gap p c + 1 := by
      refine Nat.le_of_not_lt fun hgt => hbefore (gap p c + 1) (Nat.succ_pos _) hgt ?_
      rw [add_gap hlt hc]
      exact hp
    unfold gap slotCount at *
    omega
  · exact absurd hp (hnone p)

/-! ## one choice -/

instance (op : Operation) : Decidable op.Schedules :=
  match op with
  | .schedule => .isTrue trivial
  | .exception r =>
    inferInstanceAs (Decidable (r.intno = Trap.timerVector ∨
      r.intno = Trap.pageFaultVector ∧ (FaultCode.mk r.errcode).user = true))
  | .syscall r =>
    inferInstanceAs (Decidable (r.rax = CallNumber.yield.value ∨ r.rax = CallNumber.exit.value))
  | .setup .. | .boot .. | .run _ | .fork _ | .pageAlloc .. | .teardown _ | .writeUser ..
  | .readUser .. => .isFalse id

theorem Outcome.of_dispatched_cases {ε : Type} (x : EStateM.Result (Stop ε) Kernel Dispatch) :
    (∃ d, Outcome.of .dispatched x = .dispatched d) ∨
      (∃ e k', x = .error (.error e) k') ∧ Outcome.of .dispatched x = .failed ∨
      Outcome.of .dispatched x = .panicked := by
  match x with
  | .ok d _ => exact .inl ⟨d, rfl⟩
  | .error (.error e) k' => exact .inr (.inl ⟨⟨e, k', rfl⟩, rfl⟩)
  | .error (.panic _) _ => exact .inr (.inr rfl)

theorem Operation.Schedules.outcome_ne (h : op.Schedules) : op.outcome k ≠ .succeeded := by
  have hne : ∀ x : EStateM.Result (Stop Halt) Kernel Dispatch,
      Outcome.of .dispatched x ≠ .succeeded := by
    intro x heq
    rcases Outcome.of_dispatched_cases x with ⟨d, hd⟩ | ⟨-, hd⟩ | hd <;> cases heq.symm.trans hd
  cases op with
  | schedule => exact hne _
  | syscall r => exact hne _
  | exception r => exact hne _
  | _ => exact h.elim

/-- the choice of a process -/
def Outcome.choice (q : Pid) : Outcome := .dispatched (.run q)

/-- with `p` among those that can run afterwards, a choice that does not fail is one of the process
that is next in turn -/
theorem Operation.Schedules.exists_choice (h : op.Schedules) (ho : Orderly k.control)
    (hdue : op.Delivered k) (hgo : op.Completes k) (hp : (op.perform k).processes.Runs p) :
    op.outcome k = .failed ∨ ∃ q, op.outcome k = .choice q ∧ (op.perform k).current = q ∧
      (op.perform k).processes.Runs q ∧
      nextRunnable (op.perform k).processes k.current = .ok (some q) := by
  obtain ⟨-, hended, hmoves⟩ := op.effect ho hdue hgo
  have hnext := hmoves.next h
  cases houtcome : op.outcome k with
  | dispatched d =>
    rw [houtcome] at hended hnext
    cases d with
    | run q =>
      obtain ⟨p', s, hp', hrun, -, hk'⟩ := hended
      exact .inr ⟨q, rfl, congrArg Control.current hk', ⟨p', hp', hrun⟩, hnext q rfl⟩
    | idle => exact absurd hp (hended.2 p)
  | succeeded => exact absurd houtcome h.outcome_ne
  | failed => exact .inl rfl
  | panicked => exact absurd houtcome hgo

/-! ## all choices of a session -/

/-- what came of the operations that let the next process run, the latest first.  A call that ends a
process whose frames turn out to be miscounted fails before the next is chosen, and counts as a
choice that failed all the same. -/
def rounds : List (Kernel × Operation) → List Outcome
  | [] => []
  | (k, op) :: later => if op.Schedules then op.outcome k :: rounds later else rounds later

theorem rounds_of_schedules (h : op.Schedules) :
    rounds ((k, op) :: later) = op.outcome k :: rounds later := if_pos h

theorem rounds_of_not (h : ¬ op.Schedules) : rounds ((k, op) :: later) = rounds later := if_neg h

/-- while `p` can run, no choice comes to nobody -/
theorem Session.busy (ho : Orderly k.control) (h : Session k later k')
    (hruns : ∀ x ∈ later, x.1.processes.Runs p) (hruns' : k'.processes.Runs p) :
    ∀ o ∈ rounds later, o = .failed ∨ ∃ q, o = .choice q := by
  induction h with
  | start => exact fun _ ho' => absurd ho' List.not_mem_nil
  | @operate later k₁ h op hdue hgo ih =>
    obtain ⟨hruns₁, hstays⟩ := List.forall_mem_cons.1 hruns
    have hlater := ih hstays hruns₁
    by_cases hop : op.Schedules
    · rw [rounds_of_schedules hop]
      intro o ho'
      rcases List.mem_cons.1 ho' with rfl | ho'
      · exact (hop.exists_choice (h.orderly ho) hdue hgo hruns').imp_right fun ⟨q, hq, _⟩ => ⟨q, hq⟩
      · exact hlater o ho'
    · rw [rounds_of_not hop]
      exact hlater
  | host _ host hcalls ih => exact ih hruns hruns'

/-- while `p` can run, each choice that does not fail is one of a process: it is `p`, or the gap to
`p` has become smaller since the choice before -/
theorem Session.rounds_eq (ho : Orderly k.control) (h : Session k later k')
    (hdirect : ∀ x ∈ later, ¬ x.2.Directs) (hruns : ∀ x ∈ later, x.1.processes.Runs p)
    (hruns' : k'.processes.Runs p) (hnot : .failed ∉ rounds later) :
    ∃ qs : List Pid, rounds later = qs.map Outcome.choice ∧ (∀ q ∈ qs, q ≠ 0 ∧ q < slotCount) ∧
      qs.IsChain (fun late early => late = p ∨ gap p late < gap p early) ∧
      ∀ q ∈ qs.head?, k'.current = q := by
  induction h with
  | start => exact ⟨[], rfl, fun _ hq => absurd hq List.not_mem_nil, .nil, nofun⟩
  | @operate later k₁ h op hdue hgo ih =>
    have ho₁ := h.orderly ho
    obtain ⟨hruns₁, hstays⟩ := List.forall_mem_cons.1 hruns
    obtain ⟨hkeeps, hlater⟩ := List.forall_mem_cons.1 hdirect
    by_cases hop : op.Schedules
    · rw [rounds_of_schedules hop] at hnot ⊢
      obtain ⟨hfirst, hnot⟩ := not_or.1 (mt List.mem_cons.2 hnot)
      obtain ⟨qs, hqs, hbounds, hchain, hcurrent⟩ := ih hlater hstays hruns₁ hnot
      obtain ⟨q, houtcome, hq, hqruns, hnext⟩ :=
        (hop.exists_choice ho₁ hdue hgo hruns').resolve_left (Ne.symm hfirst)
      have hgap := gap_next ho₁.current hruns' hnext
      refine ⟨q :: qs, ?_, ?_, List.isChain_cons.2 ⟨fun early hearly => ?_, hchain⟩, ?_⟩
      · rw [houtcome, hqs, List.map_cons]
      · intro q' hq'
        rcases List.mem_cons.1 hq' with rfl | hq'
        · exact ⟨(ho₁.perform hdue hgo).ne_zero hqruns, hqruns.lt⟩
        · exact hbounds q' hq'
      · rw [← hcurrent early hearly]
        exact hgap
      · intro q' hq'
        obtain rfl := Option.some.inj hq'
        exact hq
    · rw [rounds_of_not hop] at hnot ⊢
      obtain ⟨qs, hqs, hbounds, hchain, hcurrent⟩ := ih hlater hstays hruns₁ hnot
      obtain ⟨-, -, hmoves⟩ := op.effect ho₁ hdue hgo
      refine ⟨qs, hqs, hbounds, hchain, fun q hq => ?_⟩
      have hsame : (op.perform k₁).current = k₁.current :=
        hmoves.same hop hkeeps
      exact hsame.trans (hcurrent q hq)
  | host _ host hcalls ih => exact ih hdirect hruns hruns' hnot

/-! ## fairness -/

theorem choice_injective : Function.Injective Outcome.choice := by
  intro q q' heq
  cases heq
  rfl

/-- the choices `os` are fair for `p` -/
structure Fair (p : Pid) (os : List Outcome) : Prop where
  /-- of as many choices as there are slots but the kernel's one is `p` -/
  soon : ∀ w, w <:+: os → slotCount - 1 ≤ w.length → .choice p ∈ w
  /-- while `p` is not chosen, no other process is chosen twice -/
  once : ∀ w, w <:+: os → .choice p ∉ w → w.Nodup

/-- among choices that do not come to `p` the gap to `p` becomes smaller and smaller -/
theorem gaps_of_isChain {qs : List Pid} (hnot : p ∉ qs)
    (h : qs.IsChain fun late early => late = p ∨ gap p late < gap p early) :
    (qs.map (gap p)).Pairwise (· < ·) := by
  have hchain : qs.IsChain fun late early => gap p late < gap p early :=
    h.imp_of_mem_imp fun late early hlate _ hor =>
      hor.resolve_left fun heq => hnot (heq ▸ hlate)
  exact ((List.isChain_map (gap p)).2 hchain).pairwise

/-- there are fourteen slots other than `p` and the kernel's -/
theorem gap_mem (hp : p < slotCount) (hp₀ : p ≠ 0) (hq : q < slotCount) (hq₀ : q ≠ 0)
    (hne : q ≠ p) : gap p q ∈ (Finset.range 15).erase (p - 1) := by
  rw [Finset.mem_erase, Finset.mem_range]
  unfold gap slotCount at *
  omega

/-- there are at most fourteen choices in a row that do not come to `p` -/
theorem length_lt_of_isChain {qs : List Pid} (hp : p < slotCount) (hp₀ : p ≠ 0)
    (hbounds : ∀ q ∈ qs, q ≠ 0 ∧ q < slotCount) (hnot : p ∉ qs)
    (h : qs.IsChain fun late early => late = p ∨ gap p late < gap p early) :
    qs.length < slotCount - 1 := by
  have hnodup : (qs.map (gap p)).Nodup := (gaps_of_isChain hnot h).imp Nat.ne_of_lt
  have hsub : (qs.map (gap p)).toFinset ⊆ (Finset.range 15).erase (p - 1) := by
    intro g hg
    obtain ⟨q, hq, rfl⟩ := List.mem_map.1 (List.mem_toFinset.1 hg)
    obtain ⟨hq₀, hlt⟩ := hbounds q hq
    exact gap_mem hp hp₀ hlt hq₀ fun heq => hnot (heq ▸ hq)
  have hp₁ : p - 1 ∈ Finset.range 15 := by
    rw [Finset.mem_range]
    unfold slotCount at hp
    omega
  -- the gaps are different, and there are fourteen that they can be
  have hcard := Finset.card_le_card hsub
  rw [List.toFinset_card_of_nodup hnodup, Finset.card_erase_of_mem hp₁, Finset.card_range,
    List.length_map] at hcard
  unfold slotCount
  omega

/-- choices of processes between which the gap to `p` becomes smaller are fair -/
theorem Fair.of_isChain {qs : List Pid} (hp : p < slotCount) (hp₀ : p ≠ 0)
    (hbounds : ∀ q ∈ qs, q ≠ 0 ∧ q < slotCount)
    (hchain : qs.IsChain fun late early => late = p ∨ gap p late < gap p early) :
    Fair p (qs.map .choice) := by
  have hmem : ∀ {ws : List Pid}, Outcome.choice p ∉ ws.map .choice → p ∉ ws :=
    fun hnot hin => hnot (List.mem_map_of_mem hin)
  refine ⟨fun w hw hlength => ?_, fun w hw hnot => ?_⟩
  · obtain ⟨ws, hws, rfl⟩ := List.infix_map_iff.1 hw
    have hturns := List.IsChain.infix hchain hws
    by_contra hnot
    have hfew := length_lt_of_isChain hp hp₀ (fun q hq => hbounds q (hws.subset hq)) (hmem hnot)
      hturns
    rw [List.length_map] at hlength
    omega
  · obtain ⟨ws, hws, rfl⟩ := List.infix_map_iff.1 hw
    have hturns := List.IsChain.infix hchain hws
    have hgaps := gaps_of_isChain (hmem hnot) hturns
    exact ((List.Nodup.of_map _ (hgaps.imp Nat.ne_of_lt)).map choice_injective)

/-! ## choices do not fail -/

/-- an entry that found somebody who can run, and is not told to stop, does not fail -/
theorem Operation.Schedules.outcome_ne_failed (h : op.Schedules) (hk : k.Valid ∅)
    (hnull : k.layout.SparesNull) (hpoll : k.host.abortAfter = none) (hdue : op.Delivered k)
    (hp : (op.perform k).processes.Runs p) : op.outcome k ≠ .failed := by
  have hnever : ∀ n : Nat, k.host.abortAfter ≠ some n := fun n => by
    rw [hpoll]
    exact nofun
  have hfails : ∀ {x : Attempt Kernel Halt Dispatch}, Outcome.of .dispatched (x k) = .failed →
      ∃ e, x k = .error (.error e) (leave x k) := by
    intro x hx
    rcases Outcome.of_dispatched_cases (x k) with ⟨d, hd⟩ | ⟨⟨e, k₁, he⟩, -⟩ | hd
    · cases hx.symm.trans hd
    · exact ⟨e, by rw [leave_of_error he]; exact he⟩
    · cases hx.symm.trans hd
  intro hfailed
  cases op with
  | schedule =>
    obtain ⟨e, he⟩ := hfails hfailed
    exact ((Kernel.ends_schedule hk).error he).not_busy hnull ⟨p, hp⟩
  | exception r =>
    obtain ⟨e, he⟩ := hfails hfailed
    cases ((Kernel.ends_exception hk r).error he).busy hnull hdue ⟨p, hp⟩ e rfl with
    | entry h => exact hnever 0 h
    | kernelFault _ hv hu =>
      rcases h with ht | ⟨-, huser⟩
      · cases hv.symm.trans ht
      · cases hu.symm.trans huser
    | unexpected _ hv ht => exact h.elim ht fun hfault => hv hfault.1
    | idle _ _ _ hidle =>
      obtain ⟨-, limit, i, -, -, hstop⟩ := hidle
      exact hnever (i + 1) hstop
  | syscall r =>
    obtain ⟨e, he⟩ := hfails hfailed
    cases ((Kernel.ends_syscall hk r).error he).busy hnull hdue ⟨p, hp⟩ e rfl with
    | entry h => exact hnever 0 h
    | unexpected _ hrax =>
      refine hrax ?_
      rcases h with hyield | hexit
      · rw [hyield]
        decide
      · rw [hexit]
        decide
    | panicked _ hrax => rcases h with hyield | hexit <;> cases hrax.symm.trans ‹_›
    | idle _ _ hidle =>
      obtain ⟨-, limit, i, -, -, hstop⟩ := hidle
      exact hnever (i + 1) hstop
  | _ => exact h.elim

theorem Session.trans (h : Session k₀ past k) (h' : Session k later k') :
    Session k₀ (later ++ past) k' := by
  induction h' with
  | start => exact h
  | operate _ op hdue hgo ih => exact ih.operate op hdue hgo
  | host _ host hcalls ih => exact ih.host host hcalls

/-- on an ordered layout that spares null no choice fails while `p` can run and the host does not
stop the kernel -/
theorem Session.not_failed (h₀ : Kernel.start host config = .started k₀) (h : Session k₀ past k)
    (h' : Session k later k') (hl : config.layout.Ordered) (hnull : config.layout.SparesNull)
    (hruns : ∀ x ∈ later, x.1.processes.Runs p) (hruns' : k'.processes.Runs p)
    (hpoll : ∀ x ∈ later, x.1.host.abortAfter = none) : .failed ∉ rounds later := by
  induction h' with
  | start => exact List.not_mem_nil
  | @operate later k₁ h' op hdue hgo ih =>
    obtain ⟨hruns₁, hstays⟩ := List.forall_mem_cons.1 hruns
    obtain ⟨hpoll₁, hsilent⟩ := List.forall_mem_cons.1 hpoll
    have hlater := ih hstays hruns₁ hsilent
    by_cases hop : op.Schedules
    · obtain ⟨hvalid, hconfig⟩ := (h.trans h').valid h₀ hl
      have hne := hop.outcome_ne_failed hvalid
        (Kernel.layout_of_config hconfig ▸ hnull) hpoll₁ hdue hruns'
      rw [rounds_of_schedules hop, List.mem_cons, not_or]
      exact ⟨hne.symm, hlater⟩
    · rw [rounds_of_not hop]
      exact hlater
  | host _ host hcalls ih => exact ih hruns hruns' hpoll

/-! ## sessions of choices -/

theorem Kernel.schedule_of_runs (h : k.Valid ∅) (hruns : k.processes.Runs p) :
    Operation.schedule.Completes k ∧ Rests k (Operation.schedule.perform k) ∧
      (¬ k.layout.SparesNull → Operation.schedule.outcome k = .failed) := by
  have hends : Ends schedule k (fun _ k' => k.layout.SparesNull ∧ Rests k k')
      (Fails fun _ k' => Rests k k') := by
    rcases schedule_cases h.current with ⟨next, hfirst, -, heq⟩ | ⟨hnone, -⟩
    · rw [ends_congr heq]
      refine (ends_run h).mono (fun d k' hk' => ⟨hk'.2.2.1, hk'.2.2.2.2.1⟩) (Fails.mono ?_)
      rintro e k' (⟨-, hnot, -⟩ | ⟨-, -, hrests⟩)
      · exact absurd hfirst.holds hnot
      · exact hrests
    · exact absurd hruns (hnone p)
  unfold Operation.Completes Operation.outcome Operation.perform PagedKernel.leave
  dsimp only
  cases hx : schedule k with
  | ok d k' =>
    obtain ⟨hnull, hrests⟩ := hends.ok hx
    exact ⟨nofun, hrests, fun hnot => absurd hnull hnot⟩
  | error e k' =>
    have he := hends.error hx
    cases e with
    | error e => exact ⟨nofun, he, fun _ => rfl⟩
    | panic e => exact he.elim

theorem Session.exists_schedules (h₀ : Kernel.start host config = .started k₀)
    (h : Session k₀ past k) (hl : config.layout.Ordered) (hruns : k.processes.Runs p) (n : Nat) :
    ∃ later k', Session k later k' ∧ later.map Prod.snd = List.replicate n .schedule ∧
      k'.processes = k.processes ∧
      (∀ x ∈ later, x.1.processes = k.processes ∧ x.1.host.abortAfter = none) ∧
      (¬ config.layout.SparesNull → rounds later = List.replicate n .failed) := by
  induction n with
  | zero =>
    exact ⟨[], k, .start, rfl, rfl, fun _ hx => absurd hx List.not_mem_nil, fun _ => rfl⟩
  | succ n ih =>
    obtain ⟨later, k', h', hops, hsame, hstays, hfailed⟩ := ih
    have h'' := h'.host { calls := k'.host.calls } rfl
    obtain ⟨hvalid, hconfig⟩ := (h.trans h'').valid h₀ hl
    obtain ⟨hgo, hrests, hfails⟩ := Kernel.schedule_of_runs hvalid (hsame ▸ hruns)
    refine ⟨_, _, h''.operate .schedule trivial hgo, congrArg (Operation.schedule :: ·) hops,
      hrests.processes.trans hsame, ?_, ?_⟩
    · intro x hx
      rcases List.mem_cons.1 hx with rfl | hx
      · exact ⟨hsame, rfl⟩
      · exact hstays x hx
    · intro hnot
      have hschedules : Operation.schedule.Schedules := trivial
      rw [rounds_of_schedules hschedules, hfails (Kernel.layout_of_config hconfig ▸ hnot),
        hfailed hnot]
      rfl

/-- While process `p` can run, processes take turns.  Whenever the next is to be chosen one is, or
this fails; choices none of which fails are fair for `p`; and none fails, on an ordered layout that
spares null, if the host does not stop the kernel. -/
theorem Session.fair (h₀ : Kernel.start host config = .started k₀) (h : Session k₀ past k)
    (h' : Session k later k') (hdirect : ∀ x ∈ later, ¬ x.2.Directs)
    (hruns : ∀ x ∈ later, x.1.processes.Runs p) (hruns' : k'.processes.Runs p) :
    (∀ o ∈ rounds later, o = .failed ∨ ∃ q, o = .choice q) ∧
      (.failed ∉ rounds later → Fair p (rounds later)) ∧
      (config.layout.Ordered → config.layout.SparesNull →
        (∀ x ∈ later, x.1.host.abortAfter = none) → .failed ∉ rounds later) := by
  have ho := h.orderly (.of_started h₀)
  refine ⟨h'.busy ho hruns hruns', fun hnot => ?_, fun hl hnull =>
    h.not_failed h₀ h' hl hnull hruns hruns'⟩
  obtain ⟨qs, hqs, hbounds, hchain, -⟩ := h'.rounds_eq ho hdirect hruns hruns' hnot
  rw [hqs]
  exact .of_isChain hruns'.lt ((h'.orderly ho).ne_zero hruns') hbounds hchain

/-- after slot `c` the next in turn of the processes `1` to `n` -/
theorem nextRunnable_of_filled {t : ProcessTable slotCount} {n : Nat} (h : t.Filled n)
    (hpos : 0 < n) (hn : n < slotCount) (hc : c ≤ n) :
    nextRunnable t c = .ok (some (c % n + 1)) := by
  rcases nextRunnable_first t (Nat.lt_of_le_of_lt hc hn) (by decide) with
    ⟨next, ⟨step, hstep, hle, rfl, hruns, hbefore⟩, heq⟩ | ⟨hnone, -⟩
  · obtain ⟨hlow, hhigh⟩ := (h.runs_iff hn).1 hruns
    have hfirst (s : Nat) (hs : 0 < s) (hlow : 1 ≤ (c + s) % slotCount)
        (hhigh : (c + s) % slotCount ≤ n) : step ≤ s :=
      Nat.le_of_not_lt fun hlt => hbefore s hs hlt ((h.runs_iff hn).2 ⟨hlow, hhigh⟩)
    have hnext : (c + step) % slotCount = c % n + 1 := by
      unfold slotCount at *
      rcases Nat.lt_or_eq_of_le hc with hlt | rfl
      · have hone := hfirst 1 (by omega) (by omega) (by omega)
        rw [Nat.mod_eq_of_lt hlt]
        omega
      · have hround := hfirst (17 - c) (by omega) (by omega) (by omega)
        rw [Nat.mod_self]
        omega
    rw [heq, hnext]
  · exact absurd ((h.runs_iff hn).2 ⟨Nat.le_refl 1, hpos⟩) (hnone 1)

/-- while the processes `1` to `n` can run and no others, these are chosen one after another -/
theorem Session.rounds_of_filled {n : Nat} (ho : Orderly k.control) (h : Session k later k')
    (hfilled : k.processes.Filled n) (hpos : 0 < n) (hn : n < slotCount) (hcurrent : k.current = 0)
    (hops : ∀ x ∈ later, x.2 = .schedule) (hsame : ∀ x ∈ later, x.1.processes = k.processes)
    (hsame' : k'.processes = k.processes) (hnot : .failed ∉ rounds later) :
    (rounds later).reverse = (List.range later.length).map (fun i => .choice (i % n + 1)) ∧
      k'.current ≤ n ∧ k'.current % n = later.length % n := by
  induction h with
  | start => exact ⟨rfl, hcurrent ▸ Nat.zero_le n, by rw [hcurrent, List.length_nil]⟩
  | @operate later k₁ h op hdue hgo ih =>
    obtain ⟨rfl, hlater⟩ := List.forall_mem_cons.1 hops
    obtain ⟨hsame₁, hstays⟩ := List.forall_mem_cons.1 hsame
    have hschedules : Operation.schedule.Schedules := trivial
    rw [rounds_of_schedules hschedules] at hnot ⊢
    obtain ⟨hfirst, hnot⟩ := not_or.1 (mt List.mem_cons.2 hnot)
    obtain ⟨hrounds, hle, hmod⟩ := ih hlater hstays hsame₁ hnot
    have hfilled' : (Operation.schedule.perform k₁).processes.Filled n := hsame' ▸ hfilled
    have hruns := (hfilled'.runs_iff (q := 1) hn).2 ⟨Nat.le_refl 1, hpos⟩
    obtain ⟨q, houtcome, hq, -, hnext⟩ :=
      (hschedules.exists_choice (h.orderly ho) hdue hgo hruns).resolve_left (Ne.symm hfirst)
    rw [nextRunnable_of_filled hfilled' hpos hn hle, hmod] at hnext
    obtain rfl := Option.some.inj (Except.ok.inj hnext)
    refine ⟨?_, ?_, ?_⟩
    · rw [List.reverse_cons, hrounds, houtcome, List.length_cons, List.range_succ, List.map_append]
      rfl
    · rw [hq]
      exact Nat.mod_lt _ hpos
    · rw [hq, Nat.mod_add_mod, List.length_cons]
  | host _ host hcalls ih => exact ih hops hsame hsame' hnot

/-- three processes take turns, fairly for each of them -/
theorem fair_schedules : ∃ k₀ past k later k', Kernel.start {} {} = .started k₀ ∧
    Session k₀ past k ∧
    past.map Prod.snd = [.setup 3 .bare, .setup 2 .bare, .setup 1 .bare] ∧
    Session k later k' ∧ later.map Prod.snd = List.replicate 15 .schedule ∧
    rounds later = [3, 2, 1, 3, 2, 1, 3, 2, 1, 3, 2, 1, 3, 2, 1].map .choice ∧
    ∀ p ∈ [1, 2, 3], Fair p (rounds later) := by
  have hl : (KernelConfig.layout {}).Ordered := Layout.ordered_default
  obtain ⟨k₀, h₀, hspare⟩ := Kernel.exists_started {} hl (by decide +kernel)
  have hfree : 8 * 3 ≤ k₀.freeCount := by
    have husable : 100 ≤ (List.range (KernelConfig.layout {}).frameCount).countP
        (KernelConfig.layout {}).isUsable := by
      decide +kernel
    have htables := tablesFor_le_three (n := (KernelConfig.layout {}).frameCount) (by decide +kernel)
    omega
  obtain ⟨past, k, h, hpast, hfilled, hcurrent, -⟩ :=
    Session.exists_filled h₀ hl (by decide +kernel) (by decide) hfree
  have hruns : ∀ p ∈ [1, 2, 3], k.processes.Runs p := by
    intro p hp
    rw [hfilled.runs_iff (by decide)]
    revert p
    decide
  obtain ⟨later, k', h', hops, hsame', hstays, -⟩ :=
    h.exists_schedules h₀ hl (hruns 1 (by decide)) 15
  have hdirect : ∀ x ∈ later, x.2 = .schedule := fun x hx =>
    List.eq_of_mem_replicate (hops ▸ List.mem_map_of_mem hx : x.2 ∈ List.replicate 15 _)
  have hfair (p) (hp : p ∈ [1, 2, 3]) := Session.fair h₀ h h'
    (fun x hx => by rw [hdirect x hx]; exact id)
    (fun x hx => (hstays x hx).1 ▸ hruns p hp) (hsame' ▸ hruns p hp)
  have hnot := (hfair 1 (by decide)).2.2 hl Layout.sparesNull_default fun x hx => (hstays x hx).2
  obtain ⟨hrounds, -⟩ := h'.rounds_of_filled (h.orderly (.of_started h₀)) hfilled (by decide)
    (by decide) hcurrent hdirect (fun x hx => (hstays x hx).1) hsame' hnot
  have hlength : later.length = 15 := by
    rw [← List.length_map, hops, List.length_replicate]
  rw [hlength] at hrounds
  exact ⟨k₀, past, k, later, k', h₀, h, List.reverse_inj.1 hpast, h', hops,
    List.reverse_inj.1 hrounds, fun p hp => (hfair p hp).2.1 hnot⟩

/-- the default machine, but for a kernel that lies at null -/
def Layout.atNull : Layout where
  kernelImage := ⟨0, 0x60000⟩

/-- With a kernel at null no process can be run, as the first page is never mapped: fifteen choices
while process 1 can run all fail, and none comes to it. -/
theorem fair_otherwise : ∃ k₀ k later k', Kernel.start {} { layout := .atNull } = .started k₀ ∧
    Session k₀ [(k₀, .setup 1 .bare)] k ∧ Session k later k' ∧
    later.map Prod.snd = List.replicate 15 .schedule ∧
    (∀ x ∈ later, x.1.processes.Runs 1 ∧ x.1.host.abortAfter = none) ∧ k'.processes.Runs 1 ∧
    rounds later = List.replicate 15 .failed ∧ .choice 1 ∉ rounds later := by
  have hl : Layout.atNull.Ordered := by
    constructor <;> decide
  have hnot : ¬ Layout.atNull.SparesNull := fun h => absurd h.image (by decide)
  obtain ⟨k₀, k, h₀, -, h, -, -, hruns, -⟩ :=
    Session.exists_loaded {} { layout := .atNull } hl (by decide +kernel) (by decide +kernel)
  obtain ⟨later, k', h', hops, hsame, hstays, hfailed⟩ := h.exists_schedules h₀ hl hruns 15
  refine ⟨k₀, k, later, k', h₀, h, h', hops, fun x hx => ?_, hsame ▸ hruns, hfailed hnot, ?_⟩
  · obtain ⟨hsame₁, hpoll⟩ := hstays x hx
    exact ⟨hsame₁ ▸ hruns, hpoll⟩
  · rw [hfailed hnot]
    decide

end PagedKernel
