import PagedKernel.Proofs.View.Advisory

/-!
# Waiting

While no process can run a kernel waits.  In each round it asks the host whether to stop, and every
so many rounds it shows memory; it does nothing else, and the wait is over with its limit.

* `Kernel.Regular`         slots are those of the table
* `Kernel.Idled`           a kernel has asked the host to stop, and shown memory, so many times
* `Kernel.Passes`          one round in which the host lets a kernel wait
* `Kernel.WaitsOut`, `Kernel.StopsIn`   how the rounds that are left end
* `Kernel.idles`           a kernel waits for as long as it should, or the next process is run
-/

namespace PagedKernel

/-- the answer to a poll -/
def HostCall.poll? : HostCall → Option Bool
  | abortPoll answer => some answer
  | _ => none

/-- the polls and views among what the host was asked -/
def Host.watches (h : Host) : List HostCall :=
  h.calls.filter fun call => call.isAbortPoll || call.isShowMemory

namespace Kernel

variable {k k' k'' : Kernel} {pid : Pid} {polls polls' : List Bool} {shows shows' : Nat}

/-- the current process and the one that is shown have their slots in the table -/
structure Regular (k : Kernel) : Prop where
  current : k.current < slotCount
  shown : k.viewer.shown < slotCount

theorem IsReachable.regular (h : k.IsReachable) : k.Regular := by
  obtain ⟨host, config, k₀, hl, hstart, hreach⟩ := h
  have hvalid := (hreach.confined (started_valid hl hstart).1).1
  exact ⟨hvalid.current, hvalid.shown⟩

/-- a kernel has waited: it has asked the host whether to stop, and got these answers, the latest
first, and it has shown memory so many times; nothing has changed but the viewer -/
structure Idled (k : Kernel) (polls : List Bool) (shows : Nat) (k' : Kernel) : Prop where
  config : k'.config = k.config
  space : k'.space = k.space
  memory : k'.memory = k.memory
  processes : k'.processes = k.processes
  current : k'.current = k.current
  ticks : k'.ticks = k.ticks
  faultAddress : k'.host.faultAddress = k.host.faultAddress
  viewer : k'.viewer.shown < slotCount
  /-- the host was asked nothing else -/
  asked : ∃ calls, k'.host.calls = calls ++ k.host.calls ∧
    calls.filterMap HostCall.poll? = polls ∧ calls.countP HostCall.isShowMemory = shows ∧
    calls.length = polls.length + shows

namespace Idled

theorem trans (h : Idled k polls shows k') (h' : Idled k' polls' shows' k'') :
    Idled k (polls' ++ polls) (shows + shows') k'' := by
  refine ⟨h'.config.trans h.config, h'.space.trans h.space, h'.memory.trans h.memory,
    h'.processes.trans h.processes, h'.current.trans h.current, h'.ticks.trans h.ticks,
    h'.faultAddress.trans h.faultAddress, h'.viewer, ?_⟩
  obtain ⟨calls, hcalls, rfl, rfl, hlength⟩ := h.asked
  obtain ⟨calls', hcalls', rfl, rfl, hlength'⟩ := h'.asked
  refine ⟨calls' ++ calls, ?_, List.filterMap_append, ?_, ?_⟩
  · rw [hcalls', hcalls, List.append_assoc]
  · rw [List.countP_append, Nat.add_comm]
  · rw [List.length_append, hlength, hlength', List.length_append]
    omega

theorem regular (h : Idled k polls shows k') (hk : k.Regular) : k'.Regular where
  current := by
    rw [h.current]
    exact hk.current
  shown := h.viewer

/-- a line in the log is nothing that has changed -/
theorem of_memory (hk : k.Regular) {m : Machine} (hm : m.toMemory = k.memory) :
    Idled k [] 0 { k with machine := m } :=
  ⟨rfl, rfl, hm, rfl, rfl, rfl, rfl, hk.shown, [], rfl, rfl, rfl, rfl⟩

end Idled

/-! ## one round -/

/-- the host lets one poll pass, or asks the kernel to stop -/
theorem ends_checkAbort_idled (h : k.Regular) :
    Ends checkAbort k
      (fun _ k' => Idled k [false] 0 k' ∧ k.host.abortAfter ≠ some 0 ∧
        k'.host.abortAfter = k.host.abortAfter.map (· - 1))
      fun e k' => e = .error .abortRequested ∧ k.host.abortAfter = some 0 ∧
        Idled k [true] 0 k' := by
  refine ends_checkAbort (fun hne => ?_) fun heq m hm => ⟨rfl, heq, ?_⟩
  · rw [Host.pollAbort_eq, decide_eq_false hne]
    refine ⟨⟨rfl, rfl, rfl, rfl, rfl, rfl, rfl, h.shown, ?_⟩, hne, rfl⟩
    exact ⟨[.abortPoll false], rfl, rfl, rfl, rfl⟩
  · rw [Host.pollAbort_eq, decide_eq_true heq]
    refine ⟨rfl, rfl, hm, rfl, rfl, rfl, rfl, h.shown, ?_⟩
    exact ⟨[.abortPoll true], rfl, rfl, rfl, rfl⟩

/-- memory is shown if it is time -/
theorem ends_mayShow_idled (h : k.Regular) {c : Prop} [Decidable c] {severity : Severity}
    {target message : String} {x : Attempt Kernel Halt Dispatch} {Q : Dispatch → Kernel → Prop}
    {E : Stop Halt → Kernel → Prop}
    (hx : ∀ k', Idled k [] (if c then 1 else 0) k' → k'.host.abortAfter = k.host.abortAfter →
      Ends x k' Q E) :
    Ends (if c then liftM (report severity target message) >>= fun _ =>
      liftM showMemory >>= fun _ => x else x) k Q E := by
  refine ends_mayShow h.shown (fun hc => ?_) fun hc m viewer view hm hviewer => ?_
  · rw [if_neg hc] at hx
    exact hx k (.of_memory h rfl) rfl
  · rw [if_pos hc] at hx
    exact hx _ ⟨rfl, rfl, hm, rfl, rfl, rfl, rfl, hviewer, [.showMemory view], rfl, rfl, rfl, rfl⟩
      rfl

/-! ## all rounds -/

/-- so many rounds more were waited after the first `rounds`; memory was shown whenever it was
time -/
def Spent (k : Kernel) (rounds more : Nat) (polls : List Bool) (k' : Kernel) : Prop :=
  ∃ shows, shows + rounds / k.config.viewInterval.toNat
      = (rounds + more) / k.config.viewInterval.toNat ∧ Idled k polls shows k'

theorem Spent.trans {rounds more more' : Nat} (h : Spent k rounds more polls k')
    (h' : Spent k' (rounds + more) more' polls' k'') :
    Spent k rounds (more + more') (polls' ++ polls) k'' := by
  obtain ⟨shows, hshows, hidled⟩ := h
  obtain ⟨shows', hshows', hidled'⟩ := h'
  rw [hidled.config] at hshows'
  refine ⟨shows + shows', ?_, hidled.trans hidled'⟩
  rw [← Nat.add_assoc rounds]
  omega

theorem toNat_nextRound {rounds : UInt32} (hrounds : rounds.toNat + 1 < 2 ^ 32) :
    (rounds + 1).toNat = rounds.toNat + 1 := by
  rw [UInt32.toNat_add]
  exact Nat.mod_eq_of_lt hrounds

/-- it is time to show memory after as many rounds as the interval has, and after each multiple -/
theorem isTime_iff {rounds interval : UInt32} (hrounds : rounds.toNat + 1 < 2 ^ 32) :
    (interval ≠ 0 ∧ (rounds + 1) % interval = 0) ↔ interval.toNat ∣ rounds.toNat + 1 := by
  rw [ne_eq, ← UInt32.toNat_inj, ← UInt32.toNat_inj, UInt32.toNat_mod, toNat_nextRound hrounds,
    UInt32.toNat_zero, Nat.dvd_iff_mod_eq_zero]
  refine and_iff_right_of_imp fun hmod hzero => ?_
  rw [hzero, Nat.mod_zero] at hmod
  exact absurd hmod (Nat.succ_ne_zero _)

/-- a round in which the host lets the kernel wait -/
theorem Spent.of_round {rounds : UInt32} (hrounds : rounds.toNat + 1 < 2 ^ 32)
    (hpolled : Idled k [false] 0 k') (hshown : Idled k' []
      (if k'.config.viewInterval ≠ 0 ∧ (rounds + 1) % k'.config.viewInterval = 0 then 1 else 0)
      k'') : Spent k rounds.toNat 1 [false] k'' := by
  refine ⟨_, ?_, hpolled.trans hshown⟩
  rw [Nat.zero_add, Nat.succ_div, hpolled.config, Nat.add_comm]
  simp only [isTime_iff hrounds]

/-- the host let the kernel wait for one round more -/
structure Passes (k : Kernel) (rounds : Nat) (k' : Kernel) : Prop where
  lets : k.host.abortAfter ≠ some 0
  abortAfter : k'.host.abortAfter = k.host.abortAfter.map (· - 1)
  spent : Spent k rounds 1 [false] k'

/-- the host let the kernel wait for all rounds that were left -/
def WaitsOut (k : Kernel) (rounds left : Nat) (d : Dispatch) (k' : Kernel) : Prop :=
  d = .idle ∧ (∀ j, k.host.abortAfter = some j → left ≤ j) ∧
    Spent k rounds left (List.replicate left false) k'

/-- the host asked the kernel to stop in one of the rounds that were left -/
def StopsIn (k : Kernel) (rounds left : Nat) (e : Stop Halt) (k' : Kernel) : Prop :=
  e = .error .abortRequested ∧ ∃ j < left, k.host.abortAfter = some j ∧
    Spent k rounds j (true :: List.replicate j false) k'

section
variable {rounds left : Nat}

theorem Passes.ne_zero (h : Passes k rounds k') {j : Nat} (hj : k.host.abortAfter = some j) :
    j ≠ 0 :=
  fun hzero => h.lets (hzero ▸ hj)

theorem WaitsOut.last (h : Passes k rounds k') (h' : Spent k' (rounds + 1) 0 [] k'') :
    WaitsOut k rounds 1 .idle k'' :=
  ⟨rfl, fun _ hj => Nat.one_le_iff_ne_zero.2 (h.ne_zero hj), h.spent.trans h'⟩

theorem WaitsOut.after {d : Dispatch} (h : Passes k rounds k')
    (h' : WaitsOut k' (rounds + 1) left d k'') : WaitsOut k rounds (left + 1) d k'' := by
  obtain ⟨rfl, hlater, hspent⟩ := h'
  refine ⟨rfl, fun j hj => ?_, ?_⟩
  · have hpos := h.ne_zero hj
    have hle := hlater (j - 1) (by rw [h.abortAfter, hj]; rfl)
    omega
  · rw [List.replicate_succ', Nat.add_comm left]
    exact h.spent.trans hspent

theorem StopsIn.after {e : Stop Halt} (h : Passes k rounds k')
    (h' : StopsIn k' (rounds + 1) left e k'') : StopsIn k rounds (left + 1) e k'' := by
  obtain ⟨rfl, i, hi, hafter, hspent⟩ := h'
  obtain ⟨j, hj, rfl⟩ := Option.map_eq_some_iff.1 (h.abortAfter.symm.trans hafter)
  obtain ⟨j, rfl⟩ := Nat.exists_eq_succ_of_ne_zero (h.ne_zero hj)
  refine ⟨rfl, j + 1, Nat.succ_lt_succ hi, hj, ?_⟩
  rw [List.replicate_succ', Nat.add_comm j]
  exact h.spent.trans hspent

end

/-- the host asks the kernel to stop in one of the rounds that are left, or they pass -/
theorem ends_waitFor_idled {limit : IdleLimit} (rounds : UInt32) (left : Nat) (h : k.Regular)
    (hlimit : k.config.idleLimit = some limit) (hlt : rounds.toNat < limit.rounds.toNat)
    (hleft : rounds.toNat + left = limit.rounds.toNat) :
    Ends (waitFor rounds left) k (WaitsOut k rounds.toNat left)
      (StopsIn k rounds.toNat left) := by
  induction left generalizing k rounds with
  | zero => exact absurd hleft (Nat.ne_of_lt hlt)
  | succ left ih =>
    have hbound : rounds.toNat + 1 < 2 ^ 32 := by
      have := limit.rounds.toNat_lt
      omega
    have hnext := toNat_nextRound hbound
    rw [waitFor, ends_bind]
    refine (ends_checkAbort_idled h).mono (fun _ k₁ hpolled => ?_) fun e k₁ hstopped => ?_
    · obtain ⟨hpolled, hne, hafter⟩ := hpolled
      have h₁ := hpolled.regular h
      rw [ends_bind, ends_get]
      refine ends_mayShow_idled h₁ fun k₂ hshown hsame => ?_
      have hround : Passes k rounds.toNat k₂ :=
        ⟨hne, hsame.trans hafter, .of_round hbound hpolled hshown⟩
      have h₂ := hshown.regular h₁
      rw [hpolled.config, hlimit, Option.any_some]
      refine ends_ite.2 ⟨fun hdone => ?_, fun hmore => ?_⟩
      · rw [decide_eq_true_iff, UInt32.le_iff_toNat_le] at hdone
        obtain rfl : left = 0 := by omega
        rw [ends_bind, ends_lift]
        exact ends_report fun m hm =>
          ends_pure.2 (.last hround ⟨0, Nat.zero_add _, .of_memory h₂ hm⟩)
      · rw [decide_eq_true_iff, UInt32.le_iff_toNat_le] at hmore
        have hlimit₂ : k₂.config.idleLimit = some limit := by
          rw [hshown.config, hpolled.config, hlimit]
        have hrest := ih (rounds + 1) h₂ hlimit₂ (by omega) (by omega)
        rw [hnext] at hrest
        exact hrest.mono (fun d k₃ hpassed => hpassed.after hround) fun e k₃ hstopped =>
          hstopped.after hround
    · obtain ⟨rfl, hnow, hidled⟩ := hstopped
      exact ⟨rfl, 0, Nat.succ_pos left, hnow, 0, by rw [Nat.zero_add, Nat.add_zero], hidled⟩

theorem Spent.idled {more : Nat} (h : Spent k (0 : UInt32).toNat more polls k') :
    Idled k polls (more / k.config.viewInterval.toNat) k' := by
  obtain ⟨shows, hshows, hidled⟩ := h
  rw [UInt32.toNat_zero, Nat.zero_div, Nat.add_zero, Nat.zero_add] at hshows
  rw [← hshows]
  exact hidled

/-- how a kernel waits in which no process can run -/
theorem ends_schedule_idled {limit : IdleLimit} (h : k.Regular)
    (hlimit : k.config.idleLimit = some limit) (hnone : ∀ pid, ¬ k.processes.Runs pid) :
    Ends schedule k (WaitsOut k (0 : UInt32).toNat limit.rounds.toNat)
      (StopsIn k (0 : UInt32).toNat limit.rounds.toNat) := by
  rcases schedule_cases h.current with ⟨next, hfirst, -, -⟩ | ⟨-, heq⟩
  · exact absurd hfirst.holds (hnone next)
  · obtain ⟨hpos, hpolls⟩ := idlePolls_eq hlimit
    have hrounds : k.idlePolls = limit.rounds.toNat := (Nat.zero_add _).symm.trans hpolls
    rw [ends_congr heq, hrounds]
    exact ends_waitFor_idled 0 limit.rounds.toNat h hlimit hpos (Nat.zero_add _)

/-! ## control that is handed over -/

/-- to check a page is not to ask the host anything -/
theorem ends_checkKernelPage_host {space : AddressSpace} {va : VirtualAddress} :
    Ends (checkKernelPage pid space va) k (fun _ k' => k'.host = k.host)
      fun _ k' => k'.host = k.host := by
  unfold checkKernelPage
  rw [ends_bind, ends_lift]
  cases hmaps : mapsKernelPage space k.memory va with
  | error p => exact (ends_inspect_error hmaps).2 rfl
  | ok maps =>
    rw [ends_inspect hmaps]
    refine ends_ite.2 ⟨fun _ => ends_pure.2 rfl, fun _ => ?_⟩
    rw [ends_bind, ends_lift]
    exact ends_report fun m _ => ends_fail.2 rfl

theorem ends_checkKernelPages_host {space : AddressSpace} :
    Ends (checkKernelPages pid space) k (fun _ k' => k'.host = k.host)
      fun _ k' => k'.host = k.host := by
  have hpage : ∀ va (t : Kernel), t.host = k.host → Ends (checkKernelPage pid space va) t
      (fun _ k' => k'.host = k.host) fun _ k' => k'.host = k.host := fun va t ht =>
    ends_checkKernelPage_host.mono (fun _ _ h => h.trans ht) fun _ _ h => h.trans ht
  unfold checkKernelPages
  rw [ends_bind, ends_get, ends_bind]
  cases hstack : k.layout.kernelStackPage with
  | error p => exact (ends_attemptExcept_error rfl).2 rfl
  | ok stack =>
    refine (ends_attemptExcept rfl).2 ?_
    refine Ends.bind (Ends.forSteps (fun _ t => t.host = k.host) rfl fun i _ t ht => ?_) ?_
    · exact hpage _ t ht
    · exact fun _ t ht => hpage _ t ht

/-- when control is handed over, the host is asked neither to stop nor to show memory -/
theorem ends_run_watches :
    Ends (run pid) k (fun _ k' => k'.host.watches = k.host.watches)
      fun _ k' => k'.host.watches = k.host.watches := by
  unfold run
  rw [ends_bind, ends_get]
  dsimp only
  rw [ends_bind]
  cases ((k.processes.get? pid).filter Process.isRunnable).bind Process.space with
  | none => exact ends_orFail_none.2 rfl
  | some space =>
    rw [ends_orFail_some, ends_bind, ends_modify, ends_bind]
    refine ends_checkKernelPages_host.mono (fun _ t ht => ?_) fun _ t ht => congrArg _ ht
    rw [ends_bind, ends_lift]
    unfold process
    rw [ends_bind, ends_get]
    cases hp : t.processes.get pid with
    | error p => exact congrArg Host.watches ht
    | ok p =>
      rw [ends_ofExcept rfl, ends_bind, ends_lift, ends_tell]
      exact ends_pure.2 (show t.host.watches = k.host.watches from congrArg Host.watches ht)

/-- While no process can run, a kernel asks the host in each round whether to stop, and shows memory
after every so many rounds.  It stops with the first `true`, if there is one before its limit, and
with its limit otherwise; the viewer is all that has changed.  If a process can run, it runs the
next one after the current process, and neither asks nor shows anything. -/
theorem idles (h : k.Regular) :
    (∀ limit, k.config.idleLimit = some limit → (∀ pid, ¬ k.processes.Runs pid) →
      (∀ j, k.host.abortAfter = some j → j < limit.rounds.toNat →
        ∃ k', schedule k = .error (.error .abortRequested) k' ∧
          Idled k (true :: List.replicate j false) (j / k.config.viewInterval.toNat) k') ∧
      ((∀ j, k.host.abortAfter = some j → limit.rounds.toNat ≤ j) →
        ∃ k', schedule k = .ok .idle k' ∧
          Idled k (List.replicate limit.rounds.toNat false)
            (limit.rounds.toNat / k.config.viewInterval.toNat) k')) ∧
    ((∃ pid, k.processes.Runs pid) →
      ∃ next, FirstAfter slotCount k.processes.Runs k.current next ∧ schedule k = run next k ∧
        Ends schedule k (fun _ k' => k'.host.watches = k.host.watches)
          fun _ k' => k'.host.watches = k.host.watches) := by
  refine ⟨fun limit hlimit hnone => ?_, fun hsome => ?_⟩
  · have hends := ends_schedule_idled h hlimit hnone
    refine ⟨fun j hj hlt => ?_, fun hlater => ?_⟩
    · cases hrun : schedule k with
      | ok d k' =>
        obtain ⟨-, hlater, -⟩ := hends.ok hrun
        exact absurd hlt (Nat.not_lt.2 (hlater j hj))
      | error e k' =>
        obtain ⟨rfl, i, -, hi, hspent⟩ := hends.error hrun
        obtain rfl := Option.some.inj (hj.symm.trans hi)
        exact ⟨k', rfl, hspent.idled⟩
    · cases hrun : schedule k with
      | ok d k' =>
        obtain ⟨rfl, -, hspent⟩ := hends.ok hrun
        exact ⟨k', rfl, hspent.idled⟩
      | error e k' =>
        obtain ⟨-, j, hlt, hj, -⟩ := hends.error hrun
        exact absurd hlt (Nat.not_lt.2 (hlater j hj))
  · rcases schedule_cases h.current with ⟨next, hfirst, -, heq⟩ | ⟨hnone, -⟩
    · exact ⟨next, hfirst, heq, (ends_congr heq).2 ends_run_watches⟩
    · obtain ⟨pid, hruns⟩ := hsome
      exact absurd hruns (hnone pid)

/-- wait for five rounds, and show memory after every second one -/
def fiveRounds : KernelConfig where
  layout := .withPhysical 0x1000000
  viewInterval := 2
  idleLimit := some ⟨5, by decide⟩

/-- right after the start a kernel is stopped by the host in the fourth round, or waits for all
five -/
theorem idles_started :
    (∃ k k', start { abortAfter := some 3 } fiveRounds = .started k ∧
      schedule k = .error (.error .abortRequested) k' ∧
      Idled k [true, false, false, false] 1 k') ∧
    ∃ k k', start {} fiveRounds = .started k ∧ schedule k = .ok .idle k' ∧
      Idled k [false, false, false, false, false] 2 k' := by
  have hl : fiveRounds.layout.Ordered := Layout.ordered_withPhysical (by decide)
  have hready : ∀ host, ∃ k, start host fiveRounds = .started k ∧ k.Regular ∧
      (∀ pid, ¬ k.processes.Runs pid) ∧ k.config = fiveRounds ∧ k.host = host := by
    intro host
    obtain ⟨k, hstart, -⟩ := exists_started_sized host rfl hl
    have hregular : k.Regular := IsReachable.regular ⟨host, _, k, hl, hstart, .start⟩
    have hnone : ∀ pid, ¬ k.processes.Runs pid := by
      rintro pid ⟨p, hp, hrun⟩
      rw [Process.isRunnable, (Process.isVacant_iff.1 (isVacant_of_started hstart hp)).1] at hrun
      cases hrun
    obtain ⟨machine, space, rfl⟩ := eq_of_started hstart
    exact ⟨_, hstart, hregular, hnone, rfl, rfl⟩
  constructor
  · obtain ⟨k, hstart, hregular, hnone, hconfig, hhost⟩ := hready { abortAfter := some 3 }
    obtain ⟨k', hstop, hidled⟩ := ((idles hregular).1 ⟨5, by decide⟩ (by rw [hconfig]; rfl) hnone).1 3
      (by rw [hhost]) (by decide)
    rw [hconfig] at hidled
    exact ⟨k, k', hstart, hstop, hidled⟩
  · obtain ⟨k, hstart, hregular, hnone, hconfig, hhost⟩ := hready {}
    obtain ⟨k', hidle, hidled⟩ := ((idles hregular).1 ⟨5, by decide⟩ (by rw [hconfig]; rfl) hnone).2
      (by rw [hhost]; rintro j ⟨⟩)
    rw [hconfig] at hidled
    exact ⟨k, k', hstart, hidle, hidled⟩

end Kernel

end PagedKernel
