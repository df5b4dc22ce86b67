import PagedKernel.Kernel.Entry
import PagedKernel.Proofs.Paging.UserText
import PagedKernel.Proofs.Kernel.Lifecycle
import PagedKernel.Proofs.Kernel.Schedule

/-!
# Entries, in valid kernels

* `Syscall.rax_of_decode`      the call that registers ask for is the one with that number
* `Kernel.ExceptionHalt`       the halts that an interrupt can end with, and when it does
* `Kernel.SyscallHalt`         the same for a system call
* `Kernel.ends_exception`, `Kernel.ends_syscall`   the entries

That an entry ends with exactly these halts is said of a kernel whose current process can run and
that does not wait for ever.  That it is confined is said of any valid kernel.
-/

namespace PagedKernel

/-! ## the numbers of the calls -/

/-- a number names a call, or it is none of the six -/
theorem CallNumber.ofValue_cases (n : UInt64) :
    (∃ c, CallNumber.ofValue n = .ok c ∧ n = c.value) ∨
      (¬ (1 ≤ n ∧ n ≤ 6) ∧ CallNumber.ofValue n = .error ⟨n⟩) := by
  unfold CallNumber.ofValue
  split
  · next h => exact .inl ⟨.getPid, rfl, h⟩
  split
  · next h => exact .inl ⟨.yield, rfl, h⟩
  split
  · next h => exact .inl ⟨.panic, rfl, h⟩
  split
  · next h => exact .inl ⟨.pageAlloc, rfl, h⟩
  split
  · next h => exact .inl ⟨.fork, rfl, h⟩
  split
  · next h => exact .inl ⟨.exit, rfl, h⟩
  refine .inr ⟨fun hin => ?_, rfl⟩
  simp only [UInt64.le_iff_toNat_le, ← UInt64.toNat_inj, UInt64.reduceToNat] at *
  omega

/-- the number of a call -/
def Syscall.number : Syscall → CallNumber
  | getPid => .getPid
  | yield => .yield
  | panic _ => .panic
  | pageAlloc _ => .pageAlloc
  | fork => .fork
  | exit => .exit

theorem Syscall.rax_of_decode {r : Registers} {call : Syscall} (h : Syscall.decode r = .ok call) :
    r.rax = call.number.value := by
  unfold decode at h
  rcases CallNumber.ofValue_cases r.rax with ⟨c, heq, hrax⟩ | ⟨-, heq⟩
  · rw [heq, ok_bind] at h
    cases c <;> (obtain rfl := Except.ok.inj h; exact hrax)
  · rw [heq] at h
    cases h

theorem Syscall.eq_of_decode_error {r : Registers} {unknown : UnknownCall}
    (h : Syscall.decode r = .error unknown) :
    ¬ (1 ≤ r.rax ∧ r.rax ≤ 6) ∧ unknown = ⟨r.rax⟩ := by
  unfold decode at h
  rcases CallNumber.ofValue_cases r.rax with ⟨c, heq, -⟩ | ⟨hout, heq⟩
  · rw [heq, ok_bind] at h
    cases c <;> cases h
  · rw [heq] at h
    exact ⟨hout, (Except.error.inj h).symm⟩

namespace Kernel

variable {k k' k'' : Kernel} {others : Finset Pid} {pid : Nat} {r : Registers} {tick : Prop}

/-- the current process can run, the kernel does not lie at null or wait for ever, and a tick can be
counted if there is one -/
structure Normal (k : Kernel) (tick : Prop) : Prop where
  layout : k.layout.SparesNull
  runs : k.processes.Runs k.current
  limited : k.config.idleLimit ≠ none
  ticks : tick → k.ticks.toNat + 1 < 2 ^ 64

/-- an entry that handed over control, and that no halt of `halts` should have ended -/
def Returned (k : Kernel) (tick : Prop) (halts : Halt → Prop) (d : Dispatch) (k' : Kernel) : Prop :=
  Confined {k.current} k k' ∧ (k.Normal tick → (∀ h, ¬ halts h) ∧ k'.Handed d)

/-- an entry that ended with a halt of `halts` -/
structure Halted (k : Kernel) (tick : Prop) (halts : Halt → Prop) (e : Stop Halt) (k' : Kernel) :
    Prop where
  confined : Confined {k.current} k k'
  normal : k.Normal tick → ∃ h, e = .error h ∧ halts h
  /-- while somebody can run nothing else is a reason to stop, but for panics -/
  busy : k.layout.SparesNull → k.processes.Runs k.current → (∃ q, k'.processes.Runs q) →
    ∀ h, e = .error h → halts h

theorem Halted.of_halt {halts : Halt → Prop} {h : Halt} (hconfined : Confined {k.current} k k')
    (hh : halts h) : Halted k tick halts (.error h) k' := by
  refine ⟨hconfined, fun _ => ⟨h, rfl, hh⟩, fun _ _ _ h' heq => ?_⟩
  obtain rfl := Stop.error.inj heq
  exact hh

/-- left without its current process, the kernel waits and the host stops it -/
def StopsIdle (k : Kernel) : Prop :=
  (∀ q, q ≠ k.current → ¬ k.processes.Runs q) ∧
    ∃ limit i, k.config.idleLimit = some limit ∧ i < limit.rounds.toNat ∧
      k.host.abortAfter = some (i + 1)

/-- the halts that an interrupt ends with: asked for on entry; a page fault of the kernel; a vector
that is neither a page fault nor the timer; asked for while the kernel waits after the last process
that could run was stopped -/
inductive ExceptionHalt (k : Kernel) (r : Registers) : Halt → Prop where
  | entry (h : k.host.abortAfter = some 0) : ExceptionHalt k r .abortRequested
  | kernelFault (h : k.host.abortAfter ≠ some 0) (hv : r.intno = 14)
      (hu : (FaultCode.mk r.errcode).user = false) :
      ExceptionHalt k r (.kernelPageFault k.host.faultAddress r.rip ⟨r.errcode⟩)
  | unexpected (h : k.host.abortAfter ≠ some 0) (hv : r.intno ≠ 14) (ht : r.intno ≠ 32) :
      ExceptionHalt k r (.unexpectedException r.intno r.errcode)
  | idle (h : k.host.abortAfter ≠ some 0) (hv : r.intno = 14)
      (hu : (FaultCode.mk r.errcode).user = true) (hidle : k.StopsIdle) :
      ExceptionHalt k r .abortRequested

/-- the halts that a system call ends with: asked for on entry; a number that names no call; asked
for by the process; asked for while the kernel waits after the last process that could run left -/
inductive SyscallHalt (k : Kernel) (r : Registers) : Halt → Prop where
  | entry (h : k.host.abortAfter = some 0) : SyscallHalt k r .abortRequested
  | unexpected (h : k.host.abortAfter ≠ some 0) (hrax : ¬ (1 ≤ r.rax ∧ r.rax ≤ 6)) :
      SyscallHalt k r (.unexpectedSyscall k.current ⟨r.rax⟩)
  | panicked (h : k.host.abortAfter ≠ some 0) (hrax : r.rax = 3) (message : Option String) :
      SyscallHalt k r (.panicRequested k.current message)
  | idle (h : k.host.abortAfter ≠ some 0) (hrax : r.rax = 6) (hidle : k.StopsIdle) :
      SyscallHalt k r .abortRequested

/-! ## on the way in -/

/-- what an entry has done when it comes to its work: the registers are saved and the host was asked
whether to stop -/
structure Entered (k k' : Kernel) : Prop where
  confined : Confined {k.current} k k'
  current : k'.current = k.current
  ticks : k'.ticks = k.ticks
  runs : ∀ q, k'.processes.Runs q ↔ k.processes.Runs q
  polls : ∀ n, k'.host.StopsWithin n ↔ k.host.StopsWithin (n + 1)

theorem Entered.logged (e : Entered k k') {m : Machine} (hm : m.toMemory = k'.memory) :
    Entered k { k' with machine := m } where
  confined :=
    e.confined.trans ((Rests.of_memory e.confined.valid hm).confined e.confined.valid)
  current := e.current
  ticks := e.ticks
  runs := e.runs
  polls := e.polls

/-- the current process goes on, as no halt should end the entry -/
theorem ends_goOn {x : Attempt Kernel Halt Dispatch} {halts : Halt → Prop}
    (h : Ends x k' (Resumed k') (Stranded k')) (hconfined : Confined {k.current} k k')
    (hruns : k.processes.Runs k.current → k'.processes.Runs k.current) (hnot : ∀ h, ¬ halts h) :
    Ends x k' (Returned k tick halts) (Halted k tick halts) := by
  refine h.mono (fun d k'' hk'' => ?_) fun e k'' he => ?_
  · exact ⟨hconfined.trans (hk''.rests.confined hconfined.valid), fun _ => ⟨hnot, hk''.handed⟩⟩
  · exact ⟨hconfined.trans (he.rests.confined hconfined.valid),
      fun hnormal => absurd (hruns hnormal.runs) (he.nobody (hconfined.layout ▸ hnormal.layout) _),
      fun hlayout _ hbusy => absurd hbusy (he.not_busy (hconfined.layout ▸ hlayout))⟩

theorem ends_goAway {x : Attempt Kernel Halt Dispatch} {halts : Halt → Prop}
    (h : Ends x k' (Resumed k') (Stranded k')) (hconfined : Confined {k.current} k k')
    (hself : ¬ k'.processes.Runs k.current)
    (hothers : ∀ q, q ≠ k.current → (k'.processes.Runs q ↔ k.processes.Runs q))
    (hpolls : ∀ n, k'.host.StopsWithin n ↔ k.host.StopsWithin (n + 1))
    (hentry : k.host.abortAfter ≠ some 0)
    (hhalts : ∀ h, halts h ↔ h = .abortRequested ∧ k.StopsIdle) :
    Ends x k' (Returned k tick halts) (Halted k tick halts) := by
  have hconfig := hconfined.config
  -- the host's answers, as the waiting kernel gets them
  have hstops : ∀ limit, k.config.idleLimit = some limit →
      (k'.host.StopsWithin k'.idlePolls ↔
        ∃ i < limit.rounds.toNat, k.host.abortAfter = some (i + 1)) := by
    intro limit hlimit
    rw [idlePolls, hconfig, hlimit, waitBound, hpolls]
    constructor
    · rintro ⟨i, hi, hafter⟩
      cases i with
      | zero => exact absurd hafter hentry
      | succ i => exact ⟨i, Nat.lt_of_succ_lt_succ hi, hafter⟩
    · rintro ⟨i, hi, hafter⟩
      exact ⟨i + 1, Nat.succ_lt_succ hi, hafter⟩
  refine h.mono (fun d k'' hk'' => ?_) fun e k'' he => ?_
  · refine ⟨hconfined.trans (hk''.rests.confined hconfined.valid), fun hnormal =>
      ⟨fun h hh => ?_, hk''.handed⟩⟩
    obtain ⟨-, hnobody, limit, i, hlimit, hi, hafter⟩ := (hhalts h).1 hh
    cases d with
    | run pid =>
      obtain ⟨-, hruns⟩ := hk''.handed
      rw [hk''.rests.processes] at hruns
      by_cases hq : pid = k.current
      · rw [hq] at hruns
        exact hself hruns
      · exact hnobody pid hq ((hothers pid hq).1 hruns)
    | idle => exact hk''.polls rfl ((hstops limit hlimit).2 ⟨i, hi, hafter⟩)
  · refine ⟨hconfined.trans (he.rests.confined hconfined.valid), fun hnormal => ?_,
      fun hlayout _ hbusy => absurd hbusy (he.not_busy (hconfined.layout ▸ hlayout))⟩
    obtain ⟨limit, hlimit⟩ := Option.ne_none_iff_exists'.1 hnormal.limited
    have hlayout : k'.layout.SparesNull := hconfined.layout ▸ hnormal.layout
    rcases he.cause hlayout with ⟨rfl, hwithin⟩ | ⟨-, hnone⟩
    · obtain ⟨i, hi, hafter⟩ := (hstops limit hlimit).1 hwithin
      refine ⟨_, rfl, (hhalts _).2 ⟨rfl, fun q hq hruns => ?_, limit, i, hlimit, hi, hafter⟩⟩
      exact he.nobody hlayout q ((hothers q hq).2 hruns)
    · rw [hconfig, hlimit] at hnone
      cases hnone

/-- the registers of the current process are saved -/
theorem Valid.save (h : k.Valid ∅) (r : Registers) : Valid { k with
    processes := k.processes.update k.current fun p => { p with registers := r } } ∅ :=
  h.update (fun _ => rfl) (fun _ => rfl) fun p hp hrun => h.ready _ p hp hrun

theorem ends_save (h : k.Valid ∅) {Q : Pid → Kernel → Prop} {E : Panic → Kernel → Prop} :
    Ends (save r) k Q E ↔ Q k.current
      { k with processes := k.processes.update k.current fun p => { p with registers := r } } := by
  unfold save
  rw [ends_bind, ends_get]
  dsimp only
  rw [ends_bind, ends_changeProcess h.current]
  exact ends_pure

/-- the registers are saved; the host is asked whether to stop, and the entry comes to its work -/
theorem ends_entry {work : Unit → Attempt Kernel Halt Dispatch} {halts : Halt → Prop}
    (h : k.Valid ∅) {viewer : Viewer} {host : Host} (hshown : viewer.shown < slotCount)
    (hhost : host.abortAfter = k.host.abortAfter)
    (hentry : k.host.abortAfter = some 0 → halts .abortRequested)
    (hwork : k.host.abortAfter ≠ some 0 → ∀ k', Entered k k' →
      Ends (work ()) k' (Returned k tick halts) (Halted k tick halts)) :
    Ends (checkAbort >>= work)
      { k with
        processes := k.processes.update k.current fun p => { p with registers := r }
        viewer := viewer
        host := host } (Returned k tick halts) (Halted k tick halts) := by
  have hserves := Serves.of_update h k.current
    (fun p => { p with registers := r }) (fun _ => rfl) (fun _ => rfl)
    fun p hp hrun => h.ready _ p hp hrun
  have hconfined : ∀ (m : Machine) (host' : Host), m.toMemory = k.memory →
      Confined {k.current} k { k with
        machine := m
        processes := k.processes.update k.current fun p => { p with registers := r }
        viewer := viewer
        host := host' } := fun m host' hm =>
    hserves.confined.trans (Rests.confined ⟨rfl, rfl, hm, rfl, h.current, hshown⟩ hserves.valid)
  rw [ends_bind]
  refine ends_checkAbort (fun hne => ?_) fun heq m hm => ?_
  · have hne' : k.host.abortAfter ≠ some 0 := fun he => hne (hhost.trans he)
    refine hwork hne' _ ⟨hconfined k.machine _ rfl, rfl, rfl,
      fun q => ProcessTable.runs_update fun p => rfl, fun n => ?_⟩
    refine ((Host.pollAbort_of_ne hne).2 n).trans ?_
    rw [Host.StopsWithin, Host.StopsWithin]
    dsimp only
    rw [hhost]
  · exact .of_halt (hconfined m _ hm) (hentry (hhost.symm.trans heq))

theorem ends_halt {halts : Halt → Prop} {severity : Severity} {target message : String}
    {halt : Halt} (e : Entered k k') (hhalt : halts halt) :
    Ends (do report severity target message; Attempt.fail halt : Attempt Kernel Halt Dispatch) k'
      (Returned k tick halts) (Halted k tick halts) := by
  rw [ends_bind, ends_lift]
  exact ends_report fun m hm => ends_fail.2 (.of_halt (e.logged hm).confined hhalt)

/-! ## interrupts -/

theorem ends_decodeTrap {Q : Trap → Kernel → Prop} {E : Panic → Kernel → Prop}
    (hQ : ∀ host : Host, host.abortAfter = k.host.abortAfter →
      Q (Trap.decode r k.host.faultAddress) { k with host := host }) :
    Ends (decodeTrap r) k Q E := by
  unfold decodeTrap
  rw [ends_bind, ends_get]
  dsimp only
  refine ends_ite.2 ⟨fun _ => ?_, fun _ => ends_pure.2 (hQ k.host rfl)⟩
  rw [ends_bind, ends_tell]
  exact ends_pure.2 (hQ _ rfl)

theorem ends_timerTick {halts : Halt → Prop} (e : Entered k k') (htick : tick)
    (hnot : ∀ h, ¬ halts h) :
    Ends timerTick k' (Returned k tick halts) (Halted k tick halts) := by
  have hvalid := e.confined.valid
  have hone : (1 : UInt64).toNat = 1 := rfl
  unfold timerTick
  rw [ends_bind, ends_get, ends_bind]
  by_cases hlt : k'.ticks.toNat + 1 < 2 ^ 64
  · rw [ends_attemptExcept (Word.add_of_lt (a := k'.ticks) (b := 1) (by rw [hone]; exact hlt)),
      ends_bind, ends_modify, ends_bind, ends_lift, ends_tell]
    have hrests : Rests k' { k' with
        ticks := k'.ticks + 1
        host := k'.host.record .ackTimer } :=
      ⟨rfl, rfl, rfl, rfl, hvalid.current, hvalid.shown⟩
    exact ends_goOn (ends_schedule (hrests.valid hvalid))
      (e.confined.trans (hrests.confined hvalid)) (e.runs k.current).2 hnot
  · rw [ends_attemptExcept_error (Word.add_of_le (a := k'.ticks) (b := 1) (by rw [hone]; omega))]
    refine ⟨e.confined, fun hnormal => ?_, fun _ _ _ h heq => ?_⟩
    · rw [e.ticks] at hlt
      exact absurd (hnormal.ticks htick) hlt
    · cases heq

theorem ends_pageFault {va : VirtualAddress} {rip : UInt64} {code : FaultCode}
    {halts : Halt → Prop} (e : Entered k k') (hentry : k.host.abortAfter ≠ some 0)
    (huser : code.user = true → ∀ h, halts h ↔ h = .abortRequested ∧ k.StopsIdle)
    (hkernel : code.user = false → halts (.kernelPageFault va rip code)) :
    Ends (pageFault k.current rip va code >>= fun _ => resume) k'
      (Returned k tick halts) (Halted k tick halts) := by
  have hvalid := e.confined.valid
  have hlt : k.current < slotCount := e.current ▸ hvalid.current
  rw [ends_bind]
  unfold pageFault
  refine ends_ite.2 ⟨fun hu => ?_, fun hu => ?_⟩
  · rw [ends_bind, ends_lift]
    refine ends_report fun m hm => ?_
    have hlogged := (e.logged hm).confined
    rw [ends_lift, ends_changeProcess hlt]
    have hserves := Serves.of_update hlogged.valid k.current
      (fun p => { p with state := .broken }) (fun _ => rfl) (fun _ => rfl)
      fun _ _ hrun => nomatch hrun
    refine ends_goAway (ends_resume hserves.valid) (hlogged.trans hserves.confined) ?_
      (fun q hq => ?_) e.polls hentry (huser hu)
    · rintro ⟨p, hp, hrun⟩
      dsimp only at hp
      rw [ProcessTable.get?_update, if_pos rfl] at hp
      obtain ⟨p, -, rfl⟩ := Option.map_eq_some_iff.1 hp
      cases hrun
    · exact (ProcessTable.runs_congr (ProcessTable.get?_update_of_ne _ hq)).trans (e.runs q)
  · rw [Bool.not_eq_true] at hu
    rw [ends_bind, ends_lift]
    exact ends_report fun m hm => ends_fail.2 (.of_halt (e.logged hm).confined (hkernel hu))

/-- the work of an interrupt that arrived while the process `pid` ran -/
def handle (pid : Pid) (r : Registers) : Trap → Attempt Kernel Halt Dispatch
  | .timer => timerTick
  | .pageFault va code => do
    pageFault pid r.rip va code
    resume
  | .unexpected vector code => do
    report .error "kernel::interrupts"
      ("process " ++ toString pid ++ ": unexpected exception " ++ toString vector.toNat
        ++ " at rip=" ++ hex r.rip.toNat)
    Attempt.fail (.unexpectedException vector code)

theorem ends_handle (e : Entered k k') (hne : k.host.abortAfter ≠ some 0) (r : Registers) :
    Ends (handle k.current r (Trap.decode r k.host.faultAddress)) k'
      (Returned k (r.intno = 32) (k.ExceptionHalt r))
      (Halted k (r.intno = 32) (k.ExceptionHalt r)) := by
  by_cases ht : r.intno = 32
  · have hv : r.intno ≠ 14 := by
      rw [ht]
      decide
    have hdecode : Trap.decode r k.host.faultAddress = .timer := if_pos ht
    rw [hdecode]
    refine ends_timerTick e ht fun halt hh => ?_
    cases hh with
    | entry heq => exact hne heq
    | kernelFault _ hv' => exact hv hv'
    | unexpected _ _ ht' => exact ht' ht
    | idle _ hv' => exact hv hv'
  · by_cases hv : r.intno = 14
    · have hdecode : Trap.decode r k.host.faultAddress
          = .pageFault k.host.faultAddress ⟨r.errcode⟩ := (if_neg ht).trans (if_pos hv)
      rw [hdecode]
      refine ends_pageFault e hne (fun hu halt => ⟨fun hh => ?_, ?_⟩)
        fun hu => .kernelFault hne hv hu
      · cases hh with
        | entry heq => exact absurd heq hne
        | kernelFault _ _ hu' => exact absurd hu (by rw [hu']; exact Bool.false_ne_true)
        | unexpected _ hv' => exact absurd hv hv'
        | idle _ _ _ hidle => exact ⟨rfl, hidle⟩
      · rintro ⟨rfl, hidle⟩
        exact .idle hne hv hu hidle
    · have hdecode : Trap.decode r k.host.faultAddress = .unexpected r.intno r.errcode :=
        (if_neg ht).trans (if_neg hv)
      rw [hdecode]
      exact ends_halt e (.unexpected hne hv ht)

/-- an interrupt that arrived while the current process ran -/
theorem ends_exception (h : k.Valid ∅) (r : Registers) :
    Ends (exception r) k (Returned k (r.intno = 32) (k.ExceptionHalt r))
      (Halted k (r.intno = 32) (k.ExceptionHalt r)) := by
  have hsaved := h.save r
  unfold exception
  rw [ends_bind, ends_lift, ends_save h, ends_bind, ends_lift]
  refine ends_decodeTrap fun host hhost => ?_
  dsimp only at hhost ⊢
  refine ends_ite.2 ⟨fun _ => ?_, fun _ => ?_⟩
  · rw [ends_bind, ends_lift]
    have hvalid : Valid { k with
        processes := k.processes.update k.current fun p => { p with registers := r }
        host := host } ∅ :=
      hsaved.of_eq rfl rfl rfl rfl h.current h.shown
    refine hvalid.ends_showMemory fun _ viewer view _ hshown => ?_
    exact ends_entry h hshown hhost .entry fun hne _ e => ends_handle e hne r
  · exact ends_entry h h.shown hhost .entry fun hne _ e => ends_handle e hne r

/-! ## system calls -/

/-- the call that the registers ask for is told in the log; a number that names none stops the
machine -/
theorem ends_decodeCall {pid : Pid} {Q : Syscall → Kernel → Prop} {E : Stop Halt → Kernel → Prop}
    (hcall : ∀ call, Syscall.decode r = .ok call →
      ∀ m : Machine, m.toMemory = k.memory → Q call { k with machine := m })
    (hunknown : ∀ unknown, Syscall.decode r = .error unknown →
      ∀ m : Machine, m.toMemory = k.memory →
        E (.error (.unexpectedSyscall pid unknown)) { k with machine := m }) :
    Ends (decodeCall pid r) k Q E := by
  unfold decodeCall
  cases hdecode : Syscall.decode r with
  | ok call =>
    dsimp only
    rw [ends_bind, ends_lift]
    exact ends_report fun m hm => ends_pure.2 (hcall call hdecode m hm)
  | error unknown =>
    dsimp only
    rw [ends_bind, ends_lift]
    exact ends_report fun m hm => ends_fail.2 (hunknown unknown hdecode m hm)

theorem not_syscallHalt (hne : k.host.abortAfter ≠ some 0) {c : CallNumber}
    (hrax : r.rax = c.value) (hpanic : c ≠ .panic) (hexit : c ≠ .exit) :
    ∀ h, ¬ k.SyscallHalt r h := by
  intro halt hh
  cases hh with
  | entry heq => exact hne heq
  | unexpected _ hout =>
    rw [hrax] at hout
    exact hout (by cases c <;> decide)
  | panicked _ hthree =>
    rw [hrax] at hthree
    cases c <;> first | exact hpanic rfl | exact absurd hthree (by decide)
  | idle _ hsix =>
    rw [hrax] at hsix
    cases c <;> first | exact hexit rfl | exact absurd hsix (by decide)

theorem syscallHalt_exit (hne : k.host.abortAfter ≠ some 0) (hrax : r.rax = 6) (halt : Halt) :
    k.SyscallHalt r halt ↔ halt = .abortRequested ∧ k.StopsIdle := by
  constructor
  · intro hh
    cases hh with
    | entry heq => exact absurd heq hne
    | unexpected _ hout =>
      rw [hrax] at hout
      exact absurd (by decide) hout
    | panicked _ hthree =>
      rw [hrax] at hthree
      exact absurd hthree (by decide)
    | idle _ _ hidle => exact ⟨rfl, hidle⟩
  · rintro ⟨rfl, hidle⟩
    exact .idle hne hrax hidle

theorem ends_setResult {next : Attempt Kernel Halt Dispatch} {halts : Halt → Prop} {value : UInt64}
    (hnext : ∀ k : Kernel, k.Valid ∅ → Ends next k (Resumed k) (Stranded k))
    (hcurrent : k.current < slotCount) (hconfined : Confined {k.current} k k')
    (hruns : k.processes.Runs k.current → k'.processes.Runs k.current) (hnot : ∀ h, ¬ halts h) :
    Ends (do
        setResult k.current value
        next : Attempt Kernel Halt Dispatch) k' (Returned k tick halts) (Halted k tick halts) := by
  have hserves := Serves.of_update hconfined.valid k.current
    (fun p => { p with registers := p.registers.result value }) (fun _ => rfl)
    (fun _ => rfl) fun p hp hrun => hconfined.valid.ready _ p hp hrun
  unfold setResult
  rw [ends_bind, ends_lift, ends_changeProcess hcurrent]
  have hsame : (k'.processes.update k.current
      fun p => { p with registers := p.registers.result value }).Runs k.current
        ↔ k'.processes.Runs k.current :=
    ProcessTable.runs_update fun _ => rfl
  exact ends_goOn (hnext _ hserves.valid) (hconfined.trans hserves.confined)
    (fun h => hsame.2 (hruns h)) hnot

/-- a call that failed for the process alone is told in the log and to the process -/
theorem ends_refused {halts : Halt → Prop} {severity : Severity} {target message : String}
    (hcurrent : k.current < slotCount) (hconfined : Confined {k.current} k k')
    (hruns : k.processes.Runs k.current → k'.processes.Runs k.current) (hnot : ∀ h, ¬ halts h) :
    Ends (do
        report severity target message
        setResult k.current Registers.failed
        resume : Attempt Kernel Halt Dispatch) k'
      (Returned k tick halts) (Halted k tick halts) := by
  have hvalid := hconfined.valid
  rw [ends_bind, ends_lift]
  refine ends_report fun m hm => ?_
  exact ends_setResult (fun _ => ends_resume) hcurrent
    (hconfined.trans ((Rests.of_memory hvalid hm).confined hvalid)) hruns hnot

theorem ends_pageAllocCall {halts : Halt → Prop} (e : Entered k k') (va : VirtualAddress)
    (hnot : ∀ h, ¬ halts h) :
    Ends (pageAllocCall k.current va) k' (Returned k tick halts) (Halted k tick halts) := by
  have hcurrent : k.current < slotCount := e.current ▸ e.confined.valid.current
  have hgo : ∀ k'' : Kernel, Serves k.current k' k'' → k''.processes = k'.processes →
      Confined {k.current} k k'' ∧
        (k.processes.Runs k.current → k''.processes.Runs k.current) := by
    intro k'' hserves hsame
    refine ⟨e.confined.trans hserves.confined, fun hruns => ?_⟩
    rw [hsame]
    exact (e.runs _).2 hruns
  unfold pageAllocCall
  rw [ends_bind, ends_lift, ends_outcome]
  refine (ends_pageAlloc e.confined.valid va).mono (fun _ k'' hk'' => ?_) fun stop k'' he => ?_
  · obtain ⟨hconfined, hruns⟩ := hgo k'' hk''.serves hk''.processes
    exact ends_setResult (fun _ => ends_resume) hcurrent hconfined hruns hnot
  · cases stop with
    | panic stop => exact he.elim
    | error err =>
      obtain ⟨⟨hwhy, -⟩, hserves, hsame⟩ := he
      obtain ⟨hconfined, hruns⟩ := hgo k'' hserves hsame
      cases hwhy <;> exact ends_refused hcurrent hconfined hruns hnot

theorem ends_forkCall {halts : Halt → Prop} (e : Entered k k') (hnot : ∀ h, ¬ halts h) :
    Ends (forkCall k.current) k' (Returned k tick halts) (Halted k tick halts) := by
  have hcurrent : k.current < slotCount := e.current ▸ e.confined.valid.current
  unfold forkCall
  rw [ends_bind, ends_lift, ends_outcome]
  refine (ends_fork e.confined.valid).mono (fun child k'' hk'' => ?_) fun stop k'' he => ?_
  · obtain ⟨hforks, -⟩ := hk''
    exact ends_goOn (ends_resume hforks.valid) (e.confined.trans hforks.confined)
      (fun hruns => hforks.runs ((e.runs _).2 hruns)) hnot
  · cases stop with
    | panic stop => exact he.elim
    | error err =>
      obtain ⟨⟨hwhy, -⟩, hforks, -⟩ := he
      have hconfined := e.confined.trans hforks.confined
      have hruns := fun h => hforks.runs ((e.runs k.current).2 h)
      cases hwhy <;> exact ends_refused hcurrent hconfined hruns hnot

theorem ends_exitCall {halts : Halt → Prop} (h : k.Valid ∅) (e : Entered k k')
    (hentry : k.host.abortAfter ≠ some 0)
    (hhalts : ∀ h, halts h ↔ h = .abortRequested ∧ k.StopsIdle) :
    Ends (teardown k.current >>= fun _ => schedule) k' (Returned k tick halts)
      (Halted k tick halts) := by
  have hvalid := e.confined.valid
  rw [ends_bind]
  refine (ends_teardown hvalid).mono (fun _ k'' hk'' => ?_) fun stop k'' he => ?_
  · obtain ⟨hserves, ⟨-, p, -, hself⟩, -⟩ := hk''
    refine ends_goAway (ends_schedule hserves.valid) (e.confined.trans hserves.confined)
      (ProcessTable.not_runs_vacated hself)
      (fun q hq => (ProcessTable.runs_congr (hserves.get? hq)).trans (e.runs q)) (fun n => ?_)
      hentry hhalts
    rw [hserves.host]
    exact e.polls n
  · cases stop with
    | panic stop => exact he.elim
    | error err =>
      obtain ⟨hout, -, rfl⟩ := he
      have hnot : ¬ k.processes.Runs k.current := by
        rintro ⟨p, hp, hrun⟩
        rcases hout with hzero | hge
        · have hspace := h.ready _ p hp hrun
          rw [hzero] at hp
          rw [← ProcessTable.space?_of_get? hp, h.reserved] at hspace
          cases hspace
        · exact absurd h.current (Nat.not_lt.2 hge)
      exact ⟨e.confined, fun hnormal => absurd hnormal.runs hnot, fun _ hruns => absurd hruns hnot⟩

/-- the text with which process `pid` stops the machine: none at null, or where it has no memory,
else what there is to read -/
inductive PanicText (k : Kernel) (pid : Pid) (va : VirtualAddress) : Option String → Prop
  | null (h : va.isNull = true) : PanicText k pid va none
  | unloaded (h : k.processes.space? pid = none) : PanicText k pid va none
  | read {s : AddressSpace} {result : Except UserFault String} (hnull : va.isNull = false)
    (hs : k.processes.space? pid = some s) (h : s.readText k.memory va = .ok result) :
    PanicText k pid va result.toOption

/-- the text with which a process stops the machine can be read, or it is told that it cannot -/
theorem ends_panicMessage {va : VirtualAddress} {Q : Option String → Kernel → Prop}
    {E : Panic → Kernel → Prop} (h : k.Valid ∅) (hpid : pid < slotCount)
    (hQ : ∀ message, k.PanicText pid va message → Q message k) :
    Ends (panicMessage pid va) k Q E := by
  obtain ⟨p, hp⟩ := ProcessTable.exists_get? (t := k.processes) hpid
  unfold panicMessage
  refine ends_ite.2 ⟨fun hnull => ends_pure.2 (hQ none (.null hnull)), fun hnull => ?_⟩
  have hspace? := ProcessTable.space?_of_get? hp
  rw [ends_bind, ends_process hp]
  cases hspace : p.space with
  | none => exact ends_pure.2 (hQ none (.unloaded (hspace?.trans hspace)))
  | some s =>
    have hs := hspace?.trans hspace
    have hroot := ProcessTable.root_mem hs
    have hvalue := va.value.toNat_lt
    have hpage := va.toNat_page
    obtain ⟨x, hx⟩ := AddressSpace.readText_ok h.sound.forest (Finset.mem_insert_of_mem hroot)
      (AddressSpace.runs_process h.sound hroot .userRead rfl) va (by omega)
    dsimp only
    rw [ends_bind, ends_inspect hx]
    exact ends_pure.2 (hQ _ (.read (Bool.not_eq_true _ ▸ hnull) hs hx))

/-- a system call of the current process -/
theorem ends_syscall (h : k.Valid ∅) (r : Registers) :
    Ends (syscall r) k (Returned k False (k.SyscallHalt r)) (Halted k False (k.SyscallHalt r)) := by
  have hsaved := h.save r
  unfold syscall
  rw [ends_bind, ends_lift, ends_save h, ends_bind, ends_lift]
  refine hsaved.ends_showMemory fun _ viewer view _ hshown => ?_
  refine ends_entry h hshown rfl .entry fun hne k' e => ?_
  rw [ends_bind]
  refine ends_decodeCall (fun call hcall m hm => ?_) fun unknown hunknown m hm => ?_
  · have hrax := Syscall.rax_of_decode hcall
    have hcurrent : k.current < slotCount := h.current
    have e := e.logged hm
    cases call with
    | getPid =>
      exact ends_setResult (fun _ => ends_resume) hcurrent e.confined (e.runs _).2
        (not_syscallHalt hne hrax nofun nofun)
    | yield =>
      exact ends_setResult (fun _ => ends_schedule) hcurrent e.confined (e.runs _).2
        (not_syscallHalt hne hrax nofun nofun)
    | panic va =>
      show Ends (panicCall k.current va) _ _ _
      unfold panicCall
      rw [ends_bind, ends_lift]
      refine ends_panicMessage e.confined.valid hcurrent fun message _ => ?_
      exact ends_halt e (.panicked hne hrax message)
    | pageAlloc va => exact ends_pageAllocCall e va (not_syscallHalt hne hrax nofun nofun)
    | fork => exact ends_forkCall e (not_syscallHalt hne hrax nofun nofun)
    | exit => exact ends_exitCall h e hne (syscallHalt_exit hne hrax)
  · obtain ⟨hout, rfl⟩ := Syscall.eq_of_decode_error hunknown
    exact .of_halt (e.logged hm).confined (.unexpected hne hout)

end Kernel

end PagedKernel
