import PagedKernel.Proofs.Kernel.Mappings
import PagedKernel.Proofs.Simulation.Programs
import PagedKernel.Simulation.Run

/-!
# The steps of a simulation

One step from a simulation that is in step leaves one that is in step, and never stops it.

* `Simulation.action?`      what the running program does next
* `CallRecord.note`         takes note of a call and of its result
* `Replies`                 the results that a call may have, and what they stand for
* `Simulation.Consistent`   the invariant of a simulation
* `Simulation.ends_step`    what a step does
-/

namespace PagedKernel

/-- what the running program does in the next step; `none` if that is the turn of the timer -/
def Simulation.action? (s : Simulation) : Option (Pid × TaskAction) :=
  if (s.steps + 1) % timerInterval = 0 then none
  else s.kernel.host.running?.bind fun (pid, registers, _) =>
    (s.task? pid).map fun t => (pid, ((t.resume registers.rax).step (UInt64.ofNat pid)).1)

/-- take note of what a program has done: the result of a call is in the registers that `k` has
saved of the process, and a process that has stored, or has left, waits for no result -/
def CallRecord.note (calls : CallRecord) (k : Kernel) : Option (Pid × TaskAction) → CallRecord
  | some (pid, .call call _) =>
    Function.update calls pid
      (if call = .exit then none
      else (k.processes.get? pid).map fun p => (call, p.registers.rax))
  | some (pid, .store _ _) => Function.update calls pid none
  | none => calls

/-- what process `pid` is told after a call, from which `k'` is left of `k`: zero, with the page
that it asked for; the pid of its child; or that the call failed -/
inductive Replies (k k' : Kernel) (pid : Pid) : CallNumber → UInt64 → UInt64 → Prop
  | yielded {argument : UInt64} : Replies k k' pid .yield argument 0
  | given {argument : UInt64} {f : Frame}
      (h : k'.lookup pid ⟨argument⟩ = .ok (some ⟨⟨argument⟩, f, .userReadWrite⟩)) :
      Replies k k' pid .pageAlloc argument 0
  | refused {argument : UInt64} : Replies k k' pid .pageAlloc argument Registers.failed
  | forked {argument : UInt64} {child : Pid}
      (hvacant : ∃ p, k.processes.get? child = some p ∧ p.isVacant = true)
      (hruns : k'.processes.Runs child) : Replies k k' pid .fork argument (UInt64.ofNat child)
  | unforked {argument : UInt64} : Replies k k' pid .fork argument Registers.failed

namespace CallRecord

variable {calls : CallRecord} {k : Kernel} {pid : Nat} {p : Process} {call : CallNumber}
  {argument : UInt64}

theorem note_call (hne : call ≠ .exit) (hp : k.processes.get? pid = some p) :
    calls.note k (some (pid, .call call argument))
      = Function.update calls pid (some (call, p.registers.rax)) := by
  rw [note, if_neg hne, hp]
  rfl

theorem note_exit :
    calls.note k (some (pid, .call .exit argument)) = Function.update calls pid none := by
  rw [note, if_pos rfl]

end CallRecord

/-- a call is decoded as the process has made it -/
theorem Syscall.decode_withCall (r : Registers) (argument : UInt64) :
    ∀ call : CallNumber, Syscall.decode (r.withCall call.value argument) =
      .ok (match call with
        | .getPid => .getPid
        | .yield => .yield
        | .panic => .panic ⟨argument⟩
        | .pageAlloc => .pageAlloc ⟨argument⟩
        | .fork => .fork
        | .exit => .exit) := by
  intro call
  cases call <;> rfl

theorem Replies.congr {k k₁ k' : Kernel} {pid : Pid} {call : CallNumber} {argument value : UInt64}
    (h : Replies k k₁ pid call argument value) (hprocesses : k'.processes = k₁.processes)
    (hmemory : k'.memory = k₁.memory) : Replies k k' pid call argument value := by
  cases h with
  | yielded => exact .yielded
  | given h =>
    rw [Kernel.lookup, ← hprocesses, ← hmemory] at h
    exact .given h
  | refused => exact .refused
  | forked hvacant hruns => exact .forked hvacant (hprocesses ▸ hruns)
  | unforked => exact .unforked

/-- a process may store to a page that it was given -/
theorem Kernel.Granted.ends_writeUser {k : Kernel} {pid : Pid} {va : VirtualAddress}
    (hgranted : k.Granted pid va) (h : k.Valid ∅) (byte : UInt8) :
    Ends (Kernel.writeUser pid va ⟨#[byte]⟩) k (fun _ k' => Writes pid k k') Never := by
  refine (Kernel.ends_writeUser h va _).mono (fun _ _ hwrites => hwrites) fun e k' he => ?_
  cases e with
  | panic e => exact he.elim
  | error e =>
    obtain ⟨space, f, hspace, hpage⟩ := hgranted
    obtain ⟨i, hi, hrefused⟩ := he.2 space hspace
    obtain rfl : i = 0 := Nat.lt_one_iff.1 hi
    rw [Nat.add_zero, ← va.toNat_page] at hrefused
    exact absurd (by decide) (hrefused f _ hpage)

/-! ## handing on control -/

namespace Kernel

variable {k k' : Kernel} {d : Dispatch}

/-- the host runs the current process, with the registers that the kernel has saved of it -/
def Running (k : Kernel) : Prop :=
  ∃ p space, k.processes.get? k.current = some p ∧ p.state = .runnable ∧
    k.host.running? = some (k.current, p.registers, space)

theorem running?_eq (k : Kernel) : k.host.running? = k.control.activations.head? :=
  List.head?_filterMap.symm

theorem HandsOn.unhindered (h : HandsOn k d k') (hk : k.Unhindered) : k'.Unhindered :=
  hk.of_config (h.rests.valid hk.valid) h.rests.config h.patient

theorem HandsOn.running (h : HandsOn k d k') (hd : d ≠ .idle) : k'.Running := by
  cases d with
  | idle => exact absurd rfl hd
  | run pid =>
    obtain ⟨p, space, hp, hrun, -, hcontrol⟩ := h.handed
    have hcurrent : k'.current = pid := congrArg Control.current hcontrol
    refine ⟨p, space, ?_, eq_of_beq hrun, ?_⟩
    · rw [hcurrent, h.rests.processes]
      exact hp
    · rw [hcurrent, running?_eq, show k'.control.activations = _ from
        congrArg Control.activations hcontrol]
      rfl

theorem Running.congr (h : k.Running) (hprocesses : k'.processes = k.processes)
    (hcurrent : k'.current = k.current) (hhost : k'.host = k.host) : k'.Running := by
  unfold Running
  rw [hprocesses, hcurrent, hhost]
  exact h

end Kernel

namespace Simulation

variable {s s' : Simulation} {pid : Nat} {calls : CallRecord} {p : Process} {t u : Task}
  {call : CallNumber} {argument : UInt64} {d : Dispatch}

theorem ends_onKernel {ε α : Type} {x : EStateM ε Kernel α} {Q : α → Simulation → Prop}
    {E : ε → Simulation → Prop} :
    Ends (onKernel x) s Q E ↔
      Ends x s.kernel (fun a k => Q a { s with kernel := k })
        fun e k => E e { s with kernel := k } :=
  ends_within fun _ _ _ => rfl

/-! ## the programs of a simulation -/

theorem task?_setTask (hpid : pid < slotCount) (task : Option Task) :
    (s.setTask pid task).task? = Function.update s.task? pid task := by
  funext q
  rw [task?, setTask, Vector.getElem?_setIfInBounds, Function.update_apply]
  by_cases hq : pid = q
  · rw [if_pos hq, if_pos hpid, if_pos hq.symm]
    rfl
  · rw [if_neg hq, if_neg (Ne.symm hq)]
    rfl

theorem setTask_of_le (hpid : slotCount ≤ pid) (task : Option Task) : s.setTask pid task = s := by
  have htasks : s.tasks.setIfInBounds pid task = s.tasks := by
    refine Vector.ext fun i hi => ?_
    rw [Vector.getElem_setIfInBounds, if_neg]
    omega
  rw [setTask, htasks]

/-! ## steps -/

/-- the running program has acted, or the timer has, and control is handed on -/
structure Acted (s : Simulation) (calls : CallRecord) (action : Option (Pid × TaskAction))
    (d : Dispatch) (s' : Simulation) : Prop where
  unhindered : s'.kernel.Unhindered
  ticks : s'.kernel.ticks.toNat ≤ s.steps
  steps : s'.steps = s.steps
  isIdle : s'.isIdle = s.isIdle
  inStep : InStep s'.kernel s'.task? (calls.note s'.kernel action)
  running : d ≠ .idle → s'.kernel.Running
  replies : ∀ pid call argument, action = some (pid, .call call argument) → call ≠ .exit →
    ∃ p, s'.kernel.processes.get? pid = some p ∧
      Replies s.kernel s'.kernel pid call argument p.registers.rax

/-- an entry of the current process into a kernel that goes on -/
theorem Acted.of_handsOn {action : Option (Pid × TaskAction)} {k₁ : Kernel}
    (hserved : Kernel.Served s.kernel k₁) (hhands : Kernel.HandsOn k₁ d s'.kernel)
    (hticks : k₁.ticks.toNat ≤ s.steps) (hsteps : s'.steps = s.steps) (hidle : s'.isIdle = s.isIdle)
    (hin : InStep k₁ s'.task? (calls.note s'.kernel action))
    (hreplies : ∀ pid call argument, action = some (pid, .call call argument) → call ≠ .exit →
      ∃ p, s'.kernel.processes.get? pid = some p ∧
        Replies s.kernel s'.kernel pid call argument p.registers.rax) :
    Acted s calls action d s' :=
  ⟨hhands.unhindered hserved.unhindered, hhands.ticks.symm ▸ hticks, hsteps, hidle,
    hin.congr hhands.rests.processes hhands.rests.memory, hhands.running, hreplies⟩

/-- the timer interrupts the running process -/
theorem ends_timer (hk : s.kernel.Unhindered) (hin : InStep s.kernel s.task? calls)
    (hticks : s.kernel.ticks.toNat < s.steps) (hsteps : s.steps < 2 ^ 64)
    (hp : s.kernel.processes.get? s.kernel.current = some p)
    (htask : s.task? s.kernel.current = some t) :
    Ends (timer p.registers) s (Acted s calls none) Never := by
  unfold timer
  rw [ends_onKernel]
  refine (Kernel.ends_tick hk (by omega) rfl).mono (fun d k' hk' => ?_) fun _ _ hn => hn
  obtain ⟨k₁, hserved, hticked, hmemory, hprocesses, hhands⟩ := hk'
  have hone : (s.kernel.ticks + 1).toNat = s.kernel.ticks.toNat + 1 := by
    rw [UInt64.toNat_add]
    simp only [UInt64.reduceToNat]
    omega
  refine .of_handsOn hserved hhands ?_ rfl rfl
    (hin.interrupted (r := p.registers.withTrap Trap.timerVector 0) hk hp htask rfl hprocesses
      hmemory) nofun
  rw [hticked, hone]
  omega

/-- a process stores to a page that it was given -/
theorem ends_storeByte (hk : s.kernel.Unhindered) (hin : InStep s.kernel s.task? calls)
    (hticks : s.kernel.ticks.toNat ≤ s.steps)
    (hp : s.kernel.processes.get? s.kernel.current = some p) (hrunnable : p.state = .runnable)
    {space : AddressSpace}
    (hhost : s.kernel.host.running? = some (s.kernel.current, p.registers, space))
    {va : VirtualAddress} {byte : UInt8} (hgranted : s.kernel.Granted s.kernel.current va)
    (htouch : u.touch = none) (hbounded : u.Bounded) (hpending : u.pending = none) :
    Ends (storeByte s.kernel.current p.registers va byte) (s.setTask s.kernel.current (some u))
      (Acted s calls (some (s.kernel.current, .store va byte))) Never := by
  unfold storeByte
  rw [ends_bind, ends_lift, ends_outcome, ends_onKernel]
  refine (hgranted.ends_writeUser hk.valid byte).mono (fun _ k' hwrites => ?_) fun _ _ hn => hn.elim
  have hserves := hwrites.serves
  refine ends_pure.2 ⟨(Kernel.Served.of_serves hk hserves).unhindered, hserves.ticks ▸ hticks, rfl,
    rfl, ?_, fun _ => ?_, nofun⟩
  · show InStep k' (s.setTask s.kernel.current (some u)).task?
      (Function.update calls s.kernel.current none)
    rw [task?_setTask hk.valid.current]
    exact hin.stored hk hp hrunnable hwrites htouch hbounded hpending
  · exact Kernel.Running.congr (k := s.kernel) ⟨p, space, hp, hrunnable, hhost⟩ hwrites.processes
      hserves.current hserves.host

/-! ## calls -/

/-- the current process has its result, and goes on or lets others run -/
theorem Acted.of_answered {k₁ k' : Kernel} {r : Registers} {value : UInt64}
    (hk : s.kernel.Unhindered) (hin : InStep s.kernel s.task? calls)
    (hticks : s.kernel.ticks.toNat ≤ s.steps)
    (hp : s.kernel.processes.get? s.kernel.current = some p) (hrunnable : p.state = .runnable)
    (hanswered : Kernel.Answered s.kernel (r.result value) k₁) (hhands : Kernel.HandsOn k₁ d k')
    (htouch : u.touch = none) (hbounded : u.Bounded) (hpending : u.pending = some call)
    (hgranted : call = .pageAlloc → value ≠ Registers.failed →
      u.heap < heapEnd ∧ k₁.Granted s.kernel.current ⟨u.heap⟩)
    (hne : call ≠ .exit) (hreplies : Replies s.kernel k' s.kernel.current call argument value) :
    Acted s calls (some (s.kernel.current, .call call argument)) d
      { s.setTask s.kernel.current (some u) with kernel := k' } := by
  have hslot : k'.processes.get? s.kernel.current
      = some { p with registers := r.result value } := by
    rw [hhands.rests.processes]
    exact hanswered.slot hp hrunnable
  refine .of_handsOn hanswered.served hhands (hanswered.ticks.symm ▸ hticks) rfl rfl ?_ ?_
  · rw [CallRecord.note_call hne hslot]
    show InStep k₁ (s.setTask s.kernel.current (some u)).task? _
    rw [task?_setTask hk.valid.current]
    exact hin.answered hk.valid hp hrunnable hanswered htouch hbounded hpending hgranted
  · rintro _ _ _ ⟨⟩ -
    exact ⟨_, hslot, hreplies⟩

theorem ends_yieldCall (hk : s.kernel.Unhindered) (hin : InStep s.kernel s.task? calls)
    (hticks : s.kernel.ticks.toNat ≤ s.steps)
    (hp : s.kernel.processes.get? s.kernel.current = some p) (hrunnable : p.state = .runnable)
    (htouch : u.touch = none) (hbounded : u.Bounded) (hpending : u.pending = some .yield) :
    Ends (makeCall s.kernel.current p.registers .yield argument)
      (s.setTask s.kernel.current (some u))
      (Acted s calls (some (s.kernel.current, .call .yield argument))) Never := by
  unfold makeCall
  rw [ends_bind, ends_onKernel]
  refine (Kernel.ends_yieldEntry hk (Syscall.decode_withCall _ _ _)).mono (fun d k' hk' => ?_)
    fun _ _ hn => hn
  obtain ⟨k₁, hanswered, hhands⟩ := hk'
  exact .of_answered hk hin hticks hp hrunnable hanswered hhands htouch hbounded hpending
    (fun halloc => by cases halloc) (by decide) .yielded

theorem ends_pageAllocCall (hk : s.kernel.Unhindered) (hin : InStep s.kernel s.task? calls)
    (hticks : s.kernel.ticks.toNat ≤ s.steps)
    (hp : s.kernel.processes.get? s.kernel.current = some p) (hrunnable : p.state = .runnable)
    (htouch : u.touch = none) (hbounded : u.Bounded) (hpending : u.pending = some .pageAlloc)
    (hlt : u.heap < heapEnd) :
    Ends (makeCall s.kernel.current p.registers .pageAlloc u.heap)
      (s.setTask s.kernel.current (some u))
      (Acted s calls (some (s.kernel.current, .call .pageAlloc u.heap))) Never := by
  unfold makeCall
  rw [ends_bind, ends_onKernel]
  refine (Kernel.ends_pageAllocEntry hk (Syscall.decode_withCall _ _ _)).mono
    (fun d k' hk' => ?_) fun _ _ hn => hn
  obtain ⟨k₁, hanswered | ⟨hanswered, hgranted⟩, hhands⟩ := hk'
  · exact .of_answered hk hin hticks hp hrunnable hanswered hhands htouch hbounded hpending
      (fun _ hne => absurd rfl hne) (by decide) .refused
  · have hvalid := (hhands.unhindered hanswered.served.unhindered).valid
    obtain ⟨space, f, hspace, hpage⟩ := hgranted
    have hlookup := hvalid.lookup_eq
      ((congrArg (·.space? s.kernel.current) hhands.rests.processes).trans hspace) ⟨u.heap⟩
    rw [hhands.rests.memory, hpage] at hlookup
    exact .of_answered hk hin hticks hp hrunnable hanswered hhands htouch hbounded hpending
      (fun _ _ => ⟨hlt, space, f, hspace, hpage⟩) (by decide) (.given hlookup)

theorem ends_adoptChild {Q : Unit → Simulation → Prop} {E : Panic → Simulation → Prop}
    (hp : s.kernel.processes.get? pid = some p) :
    Ends (adoptChild pid) s Q E ↔
      Q () (s.setTask p.registers.rax.toNat ((s.task? pid).map Task.forkedChild)) := by
  unfold adoptChild
  rw [ends_bind, ends_onKernel, Kernel.ends_process hp, ends_modify]

theorem ends_forkCall (hk : s.kernel.Unhindered) (hin : InStep s.kernel s.task? calls)
    (hticks : s.kernel.ticks.toNat ≤ s.steps)
    (hp : s.kernel.processes.get? s.kernel.current = some p) (hrunnable : p.state = .runnable)
    (htouch : u.touch = none) (hbounded : u.Bounded) (hpending : u.pending = some .fork) :
    Ends (makeCall s.kernel.current p.registers .fork argument)
      (s.setTask s.kernel.current (some u))
      (Acted s calls (some (s.kernel.current, .call .fork argument))) Never := by
  have hruns := (ProcessTable.runs_iff_state hp).2 hrunnable
  unfold makeCall
  rw [ends_bind, ends_onKernel]
  refine (Kernel.ends_forkEntry hk hruns (Syscall.decode_withCall _ _ _)).mono
    (fun d k' hk' => ?_) fun _ _ hn => hn
  show Ends (liftM (adoptChild s.kernel.current) >>= fun _ => pure d) _ _ _
  rw [ends_bind, ends_lift]
  obtain ⟨k₁, hanswered | ⟨child, hforked⟩, hhands⟩ := hk'
  · have hslot := hanswered.slot hp hrunnable
    rw [← hhands.rests.processes] at hslot
    refine (ends_adoptChild hslot).2 (ends_pure.2 ?_)
    -- the number that says that the call failed is the pid of no slot
    have hfailed : slotCount ≤ Registers.failed.toNat := by decide
    rw [setTask_of_le]
    · exact .of_answered hk hin hticks hp hrunnable hanswered hhands htouch hbounded hpending
        (fun halloc => by cases halloc) (by decide) .unforked
    · exact hfailed
  · have hparent := hforked.slot_parent hp hrunnable
    obtain ⟨c, hc, hstate⟩ := hforked.slot_child hp hrunnable
    rw [← hhands.rests.processes] at hparent hc
    have hrax : (UInt64.ofNat child).toNat = child := by
      rw [UInt64.toNat_ofNat']
      exact Nat.mod_eq_of_lt (Nat.lt_trans hforked.lt (by decide))
    refine (ends_adoptChild hparent).2 (ends_pure.2 ?_)
    refine .of_handsOn hforked.served hhands (hforked.ticks.symm ▸ hticks) rfl rfl ?_ ?_
    · show InStep k₁ (setTask { s.setTask s.kernel.current (some u) with kernel := k' }
        (UInt64.ofNat child).toNat (((s.setTask s.kernel.current (some u)).task?
          s.kernel.current).map Task.forkedChild)).task? (calls.note k' _)
      rw [hrax, task?_setTask hforked.lt, CallRecord.note_call (by decide) hparent]
      show InStep k₁ (Function.update (s.setTask s.kernel.current (some u)).task? child _) _
      rw [task?_setTask hk.valid.current, Function.update_self]
      exact hin.forked hk.valid hp hrunnable hforked htouch hbounded hpending
    · rintro _ _ _ ⟨⟩ -
      exact ⟨_, hparent, .forked hforked.vacant ⟨c, hc, Process.isRunnable_iff.2 hstate⟩⟩

theorem ends_exitCall (hk : s.kernel.Unhindered) (hin : InStep s.kernel s.task? calls)
    (hticks : s.kernel.ticks.toNat ≤ s.steps)
    (hp : s.kernel.processes.get? s.kernel.current = some p) (hrunnable : p.state = .runnable) :
    Ends (makeCall s.kernel.current p.registers .exit argument)
      (s.setTask s.kernel.current (some u))
      (Acted s calls (some (s.kernel.current, .call .exit argument))) Never := by
  have hruns := (ProcessTable.runs_iff_state hp).2 hrunnable
  unfold makeCall
  rw [ends_bind, ends_onKernel]
  refine (Kernel.ends_exitEntry hk hruns (Syscall.decode_withCall _ _ _)).mono
    (fun d k' hk' => ?_) fun _ _ hn => hn
  obtain ⟨k₁, hserved, hticks₁, hprocesses, hhands⟩ := hk'
  show Acted s calls _ d (setTask { s.setTask s.kernel.current (some u) with kernel := k' }
    s.kernel.current none)
  refine .of_handsOn hserved hhands (hticks₁.symm ▸ hticks) rfl rfl ?_ ?_
  · rw [CallRecord.note_exit, task?_setTask hk.valid.current]
    show InStep k₁ (Function.update (s.setTask s.kernel.current (some u)).task? _ _) _
    rw [task?_setTask hk.valid.current, Function.update_idem]
    exact hin.exited hk.valid hserved hprocesses
  · rintro _ _ _ ⟨⟩ hne
    exact absurd rfl hne

/-- the running program acts -/
theorem ends_act (hk : s.kernel.Unhindered) (hin : InStep s.kernel s.task? calls)
    (hticks : s.kernel.ticks.toNat ≤ s.steps)
    (hp : s.kernel.processes.get? s.kernel.current = some p) (hrunnable : p.state = .runnable)
    {space : AddressSpace}
    (hhost : s.kernel.host.running? = some (s.kernel.current, p.registers, space))
    (htask : s.task? s.kernel.current = some t) :
    Ends (act s.kernel.current p.registers) s
      (Acted s calls (some (s.kernel.current,
        ((t.resume p.registers.rax).step (UInt64.ofNat s.kernel.current)).1))) Never := by
  have hmirrors := hin _ p hp
  rw [htask] at hmirrors
  unfold act
  rw [ends_bind, ends_get, htask]
  dsimp only
  rcases Task.resume_step_cases hmirrors.seen p.registers.rax (UInt64.ofNat s.kernel.current) with
    ⟨hpending, hrax, hstep⟩ | ⟨call, argument, u, hstep, hpending, htouch, hheap, hcall⟩
  · rw [hstep]
    dsimp only
    rw [ends_bind, ends_modify]
    obtain ⟨hlt, hgranted⟩ := hmirrors.granted hpending hrax
    exact ends_storeByte hk hin hticks hp hrunnable hhost hgranted rfl
      (hmirrors.bounded.next hlt rfl) rfl
  · rw [hstep]
    dsimp only
    rw [ends_bind, ends_modify]
    have hbounded := hmirrors.bounded.of_heap hheap
    rcases hcall with rfl | rfl | rfl | ⟨rfl, rfl, hlt⟩
    · exact ends_yieldCall hk hin hticks hp hrunnable htouch hbounded hpending
    · exact ends_forkCall hk hin hticks hp hrunnable htouch hbounded hpending
    · exact ends_exitCall hk hin hticks hp hrunnable
    · exact ends_pageAllocCall hk hin hticks hp hrunnable htouch hbounded hpending hlt

/-! ## the invariant -/

/-- a simulation in step, with the calls that its processes have made: nothing stops the kernel, and
the host runs the current process until nothing can run any more -/
structure Consistent (s : Simulation) (calls : CallRecord) : Prop where
  unhindered : s.kernel.Unhindered
  ticks : s.kernel.ticks.toNat ≤ s.steps
  inStep : InStep s.kernel s.task? calls
  running : s.isIdle = false → s.kernel.Running

/-- what a step leaves: there is another if something can run, all is in step, and the call of the
step has its result -/
structure Stepped (s : Simulation) (calls : CallRecord) (more : Bool) (s' : Simulation) : Prop where
  more : more = !s'.isIdle
  steps : s'.steps = s.steps + 1
  consistent : s'.Consistent (calls.note s'.kernel s.action?)
  replies : ∀ pid call argument, s.action? = some (pid, .call call argument) → call ≠ .exit →
    ∃ p, s'.kernel.processes.get? pid = some p ∧
      Replies s.kernel s'.kernel pid call argument p.registers.rax

/-- the running process is that of the current slot, and has a program -/
theorem Consistent.exists_running (h : s.Consistent calls) (hidle : s.isIdle = false) :
    ∃ p t space, s.kernel.processes.get? s.kernel.current = some p ∧ p.state = .runnable ∧
      s.task? s.kernel.current = some t ∧
      s.kernel.host.running? = some (s.kernel.current, p.registers, space) := by
  obtain ⟨p, space, hp, hrunnable, hhost⟩ := h.running hidle
  have hat := h.inStep _ p hp
  cases htask : s.task? s.kernel.current with
  | some t => exact ⟨p, t, space, hp, hrunnable, rfl, hhost⟩
  | none =>
    rw [htask] at hat
    cases hrunnable.symm.trans hat.1

/-- a simulation ends when nothing can run, and goes on otherwise -/
theorem Acted.ends_dispatched (h : Acted { s with steps := s.steps + 1 } calls s.action? d s')
    (hidle : s.isIdle = false) :
    Ends (if d = .idle then do
        let steps := (← get).steps
        onKernel (Kernel.report .info "kernel_sim"
          ("no runnable process left after " ++ toString steps ++ " steps"))
        modify fun s => { s with isIdle := true }
        return false
      else return true : Attempt Simulation Halt Bool) s' (Stepped s calls) Never := by
  have hticks : s'.kernel.ticks.toNat ≤ s'.steps := h.steps.symm ▸ h.ticks
  refine ends_ite.2 ⟨fun _ => ?_, fun hd => ?_⟩
  · rw [ends_bind, ends_get, ends_bind, ends_onKernel, ends_lift]
    refine Kernel.ends_report fun m hm => ?_
    rw [ends_bind, ends_modify]
    have hunseen := Kernel.Unseen.of_memory h.unhindered hm
    refine ends_pure.2 ⟨rfl, h.steps, ⟨hunseen.unhindered h.unhindered, hticks, ?_, nofun⟩,
      fun pid call argument haction hne => ?_⟩
    · exact h.inStep.congr rfl hm
    · obtain ⟨p, hp, hreplies⟩ := h.replies pid call argument haction hne
      exact ⟨p, hp, hreplies.congr rfl hm⟩
  · refine ends_pure.2 ⟨?_, h.steps, ⟨h.unhindered, hticks, h.inStep, fun _ => h.running hd⟩,
      h.replies⟩
    rw [h.isIdle, hidle]
    rfl

/-- one step of a simulation in step, before 64 bits of steps are used up -/
theorem ends_step (h : s.Consistent calls) (hidle : s.isIdle = false)
    (hsteps : s.steps + 1 < 2 ^ 64) : Ends step s (Stepped s calls) Never := by
  obtain ⟨p, t, space, hp, hrunnable, htask, hhost⟩ := h.exists_running hidle
  have hticks := Nat.lt_succ_of_le h.ticks
  unfold step
  rw [ends_bind, ends_modify, ends_bind, ends_get]
  dsimp only
  rw [hhost]
  refine ends_ite.2 ⟨fun htimer => ?_, fun htimer => ?_⟩
  · have haction : s.action? = none := if_pos htimer
    refine (ends_timer (s := { s with steps := s.steps + 1 }) h.unhindered h.inStep hticks hsteps hp
      htask).bind fun d s' hacted => ?_
    exact Acted.ends_dispatched (haction ▸ hacted) hidle
  · have haction : s.action? = some (s.kernel.current,
        ((t.resume p.registers.rax).step (UInt64.ofNat s.kernel.current)).1) := by
      rw [action?, if_neg htimer, hhost, Option.bind_some]
      dsimp only
      rw [htask, Option.map_some]
    refine (ends_act (s := { s with steps := s.steps + 1 }) h.unhindered h.inStep
      (Nat.le_of_lt hticks) hp hrunnable hhost htask).bind fun d s' hacted => ?_
    exact Acted.ends_dispatched (haction ▸ hacted) hidle

end Simulation

end PagedKernel
