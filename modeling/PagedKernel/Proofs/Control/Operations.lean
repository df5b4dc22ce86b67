import PagedKernel.Proofs.Control.Steps
import PagedKernel.Proofs.Kernel.Reachable

/-!
# What an operation decides

One account of all operations: what each does to every slot of the process table, and whom it hands
control to.

* `Outcome`                     what came of an operation
* `Operation.contexts`          the registers that an operation gives to processes
* `Operation.Delivered`         an entry is for a process that can run
* `Orderly`                     the order that the process table is in
* `Turn`                        what an operation does to one slot
* `Operation.exists_effect`     every operation is made of turns, and of handing over control
-/

namespace PagedKernel

/-! ## outcomes -/

/-- what came of an operation -/
inductive Outcome where
  /-- control was handed over, or the kernel has waited in vain -/
  | dispatched (d : Dispatch)
  | succeeded
  | failed
  | panicked
  deriving DecidableEq

/-- the outcome of an attempt, whose success `f` tells -/
def Outcome.of {ε α : Type} (f : α → Outcome) : EStateM.Result (Stop ε) Kernel α → Outcome
  | .ok a _ => f a
  | .error (.error _) _ => .failed
  | .error (.panic _) _ => .panicked

theorem Ends.outcome {ε α : Type} {x : Attempt Kernel ε α} {k : Kernel} {f : α → Outcome}
    {P : Outcome → Kernel → Prop}
    (h : Ends x k (fun a k' => P (f a) k') (Errs fun _ k' => P .failed k'))
    (hgo : Outcome.of f (x k) ≠ .panicked) :
    P (Outcome.of f (x k)) (PagedKernel.leave x k) := by
  unfold Ends at h
  unfold PagedKernel.leave
  unfold Outcome.of at *
  split at h
  · next hx =>
    rw [hx]
    exact h
  · next e k' hx =>
    rw [hx] at hgo ⊢
    cases e with
    | error e => exact h
    | panic p => exact absurd rfl hgo

namespace Operation

/-- what comes of an operation -/
def outcome (op : Operation) (k : Kernel) : Outcome :=
  match op with
  | setup pid image => .of (fun _ => .succeeded) (Kernel.setup pid image k)
  | boot registry command => .of .dispatched (Kernel.boot registry command k)
  | run pid => .of .dispatched (Kernel.run pid k)
  | schedule => .of .dispatched (Kernel.schedule k)
  | syscall r => .of .dispatched (Kernel.syscall r k)
  | exception r => .of .dispatched (Kernel.exception r k)
  | fork parent => .of (fun _ => .succeeded) (Kernel.fork parent k)
  | pageAlloc pid va => .of (fun _ => .succeeded) (Kernel.pageAlloc pid va k)
  | teardown pid => .of (fun _ => .succeeded) (Kernel.teardown pid k)
  | writeUser pid va bytes => .of (fun _ => .succeeded) (Kernel.writeUser pid va bytes k)
  | readUser pid va length =>
    match k.readUser pid va length with
    | .ok _ => .succeeded
    | .error _ => .panicked

/-- the operation has an end: it does not panic -/
def Completes (op : Operation) (k : Kernel) : Prop :=
  op.outcome k ≠ .panicked

/-- entries are for a process that can run; anything else may be asked at any time -/
def Delivered (op : Operation) (k : Kernel) : Prop :=
  match op with
  | syscall _ | exception _ => k.processes.Runs k.current
  | _ => True

end Operation

/-! ## system calls -/

namespace Kernel

/-- the way into a system call: the process that made it, and the call -/
def enter (r : Registers) : Attempt Kernel Halt (Pid × Syscall) := do
  let pid ← save r
  showMemory
  checkAbort
  let call ← decodeCall pid r
  return (pid, call)

/-- the work of a system call -/
def serve (pid : Pid) : Syscall → Attempt Kernel Halt Dispatch
  | .getPid => do
    setResult pid (UInt64.ofNat pid)
    resume
  | .yield => do
    setResult pid 0
    schedule
  | .panic message => panicCall pid message
  | .pageAlloc va => pageAllocCall pid va
  | .fork => forkCall pid
  | .exit => do
    teardown pid
    schedule

theorem syscall_eq (r : Registers) : syscall r = enter r >>= fun x => serve x.1 x.2 := by
  unfold syscall enter
  simp only [bind_assoc, pure_bind]
  refine bind_congr fun pid => bind_congr fun _ => bind_congr fun _ => bind_congr fun call => ?_
  cases call <;> rfl

/-! ## registers -/

/-- the registers with which a process and its child go on -/
def forkContexts (parent child : Pid) (r : Registers) : List (Pid × Option Registers) :=
  [(child, some (r.result 0)), (parent, some (r.result (UInt64.ofNat child)))]

/-- the registers with which a process goes on that has made a call with `r`: its result takes the
place of the number of the call, unless the call stops the machine -/
def callContexts (r : Registers) (pid : Pid) (k : Kernel) :
    Syscall → List (Pid × Option Registers)
  | .getPid => [(pid, some (r.result (UInt64.ofNat pid)))]
  | .yield => [(pid, some (r.result 0))]
  | .panic _ => [(pid, some r)]
  | .pageAlloc va =>
    match pageAlloc pid va k with
    | .ok _ _ => [(pid, some (r.result 0))]
    | .error (.error (.memory (.frame _))) _ => [(pid, some r)]
    | .error _ _ => [(pid, some (r.result Registers.failed))]
  | .fork =>
    match fork pid k with
    | .ok child _ => forkContexts pid child r
    | .error (.error (.memory (.frame _))) _ => [(pid, some r)]
    | .error _ _ => [(pid, some (r.result Registers.failed))]
  | .exit => [(pid, none)]

/-- the registers that a loaded program starts with -/
def setupContexts (pid : Pid) (image : ProgramImage) (k : Kernel) : List (Pid × Option Registers) :=
  match setup pid image k with
  | .ok _ _ => [(pid, some (Registers.entry image.entry.value k.layout.virtualSize))]
  | .error _ _ => []

/-- the same for programs that are loaded one after another, until one cannot be -/
def setupAllContexts (pid : Pid) : List ProgramImage → Kernel → List (Pid × Option Registers)
  | [], _ => []
  | image :: later, k =>
    setupContexts pid image k ++
      match setup pid image k with
      | .ok _ k₁ => setupAllContexts (pid + 1) later k₁
      | .error _ _ => []

end Kernel

/-- the registers that an operation gives to processes; none to a process that is gone -/
def Operation.contexts (op : Operation) (k : Kernel) : List (Pid × Option Registers) :=
  match op with
  | setup pid image => Kernel.setupContexts pid image k
  | boot registry command =>
    match Kernel.chosen registry command with
    | .ok images => if slotCount ≤ images.length then [] else Kernel.setupAllContexts 1 images k
    | .error _ => []
  | syscall r =>
    match Kernel.enter r k with
    | .ok (pid, call) k₁ => Kernel.callContexts r pid k₁ call
    | .error _ _ => [(k.current, some r)]
  | exception r => [(k.current, some r)]
  | fork parent =>
    match k.processes.get? parent, Kernel.fork parent k with
    | some p, .ok child _ => Kernel.forkContexts parent child p.registers
    | _, _ => []
  | teardown pid =>
    match Kernel.teardown pid k with
    | .ok _ _ => [(pid, none)]
    | .error _ _ => []
  | run _ | schedule | pageAlloc _ _ | writeUser _ _ _ | readUser _ _ _ => []

/-! ## entries -/

namespace Control

/-- a process gets other registers -/
def give (c : Control) (pid : Pid) (r : Registers) : Control :=
  c.change pid fun p => { p with registers := r }

variable {k : Kernel} {pid : Nat} {r : Registers}

theorem ends_save {Q : Pid → Kernel → Prop}
    (h : ∀ k', k'.control = k.control.give k.current r → Q k.current k') :
    Ends (Kernel.save r) k Q fun _ _ => True := by
  unfold Kernel.save
  rw [ends_bind, ends_get]
  dsimp only
  rw [ends_bind]
  exact ends_changeProcess fun k' hk' => ends_pure.2 (h k' hk')

theorem ends_setResult {Q : Unit → Kernel → Prop} {value : UInt64}
    (h : ∀ k', k'.control = k.control.change pid (fun p =>
      { p with registers := p.registers.result value }) → Q () k') :
    Ends (Kernel.setResult pid value) k Q fun _ _ => True :=
  ends_changeProcess h

theorem ends_decodeTrap (r : Registers) :
    Ends (Kernel.decodeTrap r) k (fun trap k' => k'.control = k.control ∧
      ∃ va, trap = Trap.decode r va) fun _ _ => True := by
  have htrap : Ends (Kernel.decodeTrap r) k (fun trap _ => ∃ va, trap = Trap.decode r va)
      fun _ _ => True := by
    unfold Kernel.decodeTrap
    rw [ends_bind, ends_get]
    refine ends_ite.2 ⟨fun _ => ?_, fun _ => ends_pure.2 ⟨_, rfl⟩⟩
    rw [ends_bind, Kernel.ends_tell]
    exact ends_pure.2 ⟨_, rfl⟩
  exact ((Calm.decodeTrap r k).and htrap).mono (fun _ _ h => h) fun _ _ _ => trivial

theorem ends_decodeCall (pid : Pid) (r : Registers) :
    Ends (Kernel.decodeCall pid r) k
      (fun call k' => k'.control = k.control ∧ Syscall.decode r = .ok call)
      fun _ k' => k'.control = k.control :=
  Kernel.ends_decodeCall (fun _ hcall _ _ => ⟨rfl, hcall⟩) fun _ _ _ _ => rfl

/-- on the way into a system call the registers are saved -/
theorem ends_enter (r : Registers) :
    Ends (Kernel.enter r) k
      (fun x k' => x.1 = k.current ∧ Syscall.decode r = .ok x.2 ∧
        k'.control = k.control.give k.current r)
      (Errs fun _ k' => k'.control = k.control.give k.current r) := by
  have herrs : ∀ k₁ : Kernel, k₁.control = k.control.give k.current r →
      ∀ (e : Stop Halt) (k' : Kernel), k'.control = k₁.control →
        Errs (fun _ k' => k'.control = k.control.give k.current r) e k' := by
    intro k₁ h₁ e k' h
    cases e with
    | panic e => trivial
    | error e => exact h.trans h₁
  unfold Kernel.enter
  rw [ends_bind, ends_lift]
  refine ends_save fun k₁ h₁ => ?_
  refine (Calm.lift Calm.showMemory).ends (fun _ k₂ h₂ => ?_) (herrs k₁ h₁)
  have h₂ := h₂.trans h₁
  refine Calm.checkAbort.ends (fun _ k₃ h₃ => ?_) (herrs k₂ h₂)
  have h₃ := h₃.trans h₂
  rw [ends_bind]
  refine (ends_decodeCall k.current r).mono (fun call k₄ h₄ => ?_) (herrs k₃ h₃)
  exact ends_pure.2 ⟨rfl, h₄.2, h₄.1.trans h₃⟩

end Control

/-! ## the order of the table -/

/-- the process table is in order -/
structure Orderly (c : Control) : Prop where
  /-- the kernel's slot holds no process -/
  kernel : ∀ p, c.processes.get? 0 = some p → p.isVacant = true
  numbered : ∀ pid p, c.processes.get? pid = some p → p.pid = pid
  current : c.current < slotCount
  /-- a slot that is free has no address space -/
  free : ∀ pid p, c.processes.get? pid = some p → p.state = .free → p.space = none

/-- `q` is the free slot of the lowest number, the kernel's apart -/
def ProcessTable.IsLowestFree {n : Nat} (t : ProcessTable n) (q : Pid) : Prop :=
  (∃ p, t.get? q = some p ∧ p.state = .free ∧ q ≠ 0) ∧
    ∀ j p, j ≠ 0 → j < q → t.get? j = some p → p.state ≠ .free

namespace ProcessTable

variable {n : Nat} {t : ProcessTable n} {pid q : Nat} {f : Process → Process} {p : Process}

theorem exists_of_update (h : (t.update pid f).get? pid = some p) :
    ∃ p₀, t.get? pid = some p₀ ∧ p = f p₀ := by
  obtain ⟨p₀, hp₀⟩ := exists_get? (t := t) (lt_of_get? h)
  exact ⟨p₀, hp₀, Option.some.inj (h.symm.trans (get?_update_self f hp₀))⟩

theorem IsLowestFree.of_update (hf : ∀ p, (f p).state = p.state)
    (h : (t.update pid f).IsLowestFree q) : t.IsLowestFree q := by
  have hslot : ∀ j p, t.get? j = some p →
      ∃ p', (t.update pid f).get? j = some p' ∧ p'.state = p.state := by
    intro j p hp
    by_cases hj : j = pid
    · subst hj
      exact ⟨f p, get?_update_self f hp, hf p⟩
    · exact ⟨p, (get?_update_of_ne f hj).trans hp, rfl⟩
  obtain ⟨⟨p, hp, hfree, hzero⟩, hbelow⟩ := h
  obtain ⟨p₀, hp₀⟩ := exists_get? (t := t) (lt_of_get? hp)
  obtain ⟨p₁, hp₁, heq⟩ := hslot q p₀ hp₀
  obtain rfl := Option.some.inj (hp.symm.trans hp₁)
  refine ⟨⟨p₀, hp₀, heq.symm.trans hfree, hzero⟩, fun j p' hj hlt hp' => ?_⟩
  obtain ⟨p₂, hp₂, heq₂⟩ := hslot j p' hp'
  rw [← heq₂]
  exact hbelow j p₂ hj hlt hp₂

end ProcessTable

namespace Orderly

variable {c : Control} {pid q : Nat} {p : Process}

theorem isVacant (h : Orderly c) (hp : c.processes.get? q = some p) (hfree : p.state = .free) :
    p.isVacant = true :=
  Process.isVacant_iff.2 ⟨hfree, h.free q p hp hfree⟩

theorem isLowestFree (h : Orderly c) (hfree : c.processes.firstFree? = some q) :
    c.processes.IsLowestFree q := by
  obtain ⟨⟨p, hp, hvacant, hzero⟩, hbelow⟩ := ProcessTable.firstFree?_cases h.numbered hfree
  refine ⟨⟨p, hp, (Process.isVacant_iff.1 hvacant).1, hzero⟩, fun j p' hj hlt hp' hstate => ?_⟩
  have hfull := hbelow j p' hj hlt hp'
  rw [h.isVacant hp' hstate] at hfull
  cases hfull

theorem ne_of_space (h : Orderly c) (hlowest : c.processes.IsLowestFree q)
    (hp : c.processes.get? pid = some p) (hspace : p.space.isSome = true) : q ≠ pid := by
  rintro rfl
  obtain ⟨⟨p', hp', hfree, -⟩, -⟩ := hlowest
  obtain rfl := Option.some.inj (hp.symm.trans hp')
  rw [h.free q p hp hfree] at hspace
  cases hspace

theorem ne_zero (h : Orderly c) (hruns : c.processes.Runs pid) : pid ≠ 0 := by
  rintro rfl
  obtain ⟨p, hp, hrun⟩ := hruns
  have hfree := (Process.isVacant_iff.1 (h.kernel p hp)).1
  rw [Process.isRunnable, hfree] at hrun
  cases hrun

theorem give (h : Orderly c) (pid : Pid) (r : Registers) : Orderly (c.give pid r) := by
  have hslot : ∀ q p', (c.give pid r).processes.get? q = some p' →
      ∃ p r', c.processes.get? q = some p ∧ p' = { p with registers := r' } := by
    intro q p' hp'
    by_cases hq : q = pid
    · subst hq
      obtain ⟨p, hp, rfl⟩ := ProcessTable.exists_of_update hp'
      exact ⟨p, r, hp, rfl⟩
    · exact ⟨p', p'.registers, (ProcessTable.get?_update_of_ne _ hq).symm.trans hp', rfl⟩
  refine ⟨fun p' hp' => ?_, fun q p' hp' => ?_, h.current, fun q p' hp' hfree => ?_⟩
  · obtain ⟨p, r', hp, rfl⟩ := hslot 0 p' hp'
    exact h.kernel p hp
  · obtain ⟨p, r', hp, rfl⟩ := hslot q p' hp'
    exact h.numbered q p hp
  · obtain ⟨p, r', hp, rfl⟩ := hslot q p' hp'
    exact h.free q p hp hfree

end Orderly

/-! ## turns -/

namespace Operation

/-- the operation loads a program into slot `q`, or duplicates a process into it -/
def Loads (op : Operation) (k : Kernel) (q : Pid) : Prop :=
  match op with
  | setup pid image => q = pid ∧ (setup pid image).outcome k = .succeeded
  | boot registry command =>
    ∃ images, Kernel.chosen registry command = .ok images ∧ 0 < q ∧ q ≤ images.length
  | fork parent => k.processes.IsLowestFree q ∧ (fork parent).outcome k = .succeeded
  | syscall r => k.processes.IsLowestFree q ∧ r.rax = CallNumber.fork.value
  | _ => False

/-- a page fault of the current process -/
def Faults (op : Operation) : Prop :=
  match op with
  | exception r => r.intno = Trap.pageFaultVector ∧ (FaultCode.mk r.errcode).user = true
  | _ => False

/-- the operation takes down the process `q`, or `q` leaves -/
def Frees (op : Operation) (k : Kernel) (q : Pid) : Prop :=
  match op with
  | teardown pid => q = pid
  | syscall r => q = k.current ∧ r.rax = CallNumber.exit.value
  | _ => False

/-- a frame is found to be counted wrongly while the address space of `q` is given back -/
def Miscounts (op : Operation) (k : Kernel) (q : Pid) : Prop :=
  op.Frees k q ∧
    match op with
    | teardown pid => ∃ e k', Kernel.teardown pid k = .error (.error (.frame e)) k'
    | syscall r => ∃ e k', Kernel.syscall r k = .error (.error (.frame e)) k'
    | _ => False

/-- the operation lets the next process run: a tick of the timer, a page fault of the current
process, a call to yield or to exit, or a request -/
def Schedules (op : Operation) : Prop :=
  match op with
  | schedule => True
  | exception r => r.intno = Trap.timerVector ∨ (exception r).Faults
  | syscall r => r.rax = CallNumber.yield.value ∨ r.rax = CallNumber.exit.value
  | _ => False

/-- the operation says itself which process is to run -/
def Directs (op : Operation) : Prop :=
  match op with
  | boot _ _ | run _ => True
  | _ => False

end Operation

/-- what an operation does to slot `q` -/
inductive Turn (k : Kernel) (op : Operation) (q : Pid) : Process → Process → Prop
  | untouched (p) (hc : (op.contexts k).lookup q = none) : Turn k op q p p
  /-- registers that nobody will ever use -/
  | vacant (p r) (hp : p.isVacant = true) : Turn k op q p { p with registers := r }
  | loaded (p s r) (hq : q ≠ 0) (hp : p.isVacant = true) (hop : op.Loads k q)
      (hc : (op.contexts k).lookup q = some (some r)) :
      Turn k op q p { p with space := some s, state := .runnable, registers := r }
  | replied (p r) (hc : (op.contexts k).lookup q = some (some r)) :
      Turn k op q p { p with registers := r }
  | broke (p r) (hq : q = k.current) (hop : op.Faults) :
      Turn k op q p { p with registers := r, state := .broken }
  | left (p) (hq : q ≠ 0) (hop : op.Frees k q) : Turn k op q p p.vacated
  | stranded (p r) (hop : op.Miscounts k q) (hp : p.space.isSome = true) :
      Turn k op q p { p with space := none, registers := r }

/-- every slot has its turn -/
def Evolves (k : Kernel) (op : Operation) (t : ProcessTable slotCount) : Prop :=
  ∀ q p, k.processes.get? q = some p → ∃ p', t.get? q = some p' ∧ Turn k op q p p'

/-- how an operation ends after all turns are done -/
def Ended (c : Control) : Outcome → Control → Prop
  | .dispatched d, c' => Control.HandsOver c d c'
  | .succeeded, c' => c' = c
  | .failed, c' => Control.Balks c c'
  | .panicked, _ => True

/-- which process is the current one afterwards: the next that can run, or the same as before -/
structure Moves (op : Operation) (c : Control) (o : Outcome) (c' : Control) : Prop where
  next : op.Schedules → ∀ pid, o = .dispatched (.run pid) →
    nextRunnable c.processes c.current = .ok (some pid)
  same : ¬ op.Schedules → ¬ op.Directs → c'.current = c.current

/-- an operation has its turns, and ends with an outcome -/
def Effect (k : Kernel) (op : Operation) (o : Outcome) (c' : Control) : Prop :=
  ∃ t, Evolves k op t ∧ Ended { k.control with processes := t } o c' ∧
    Moves op { k.control with processes := t } o c'

section
variable {k k' : Kernel} {op : Operation} {pid q : Nat} {t : ProcessTable slotCount}
  {f : Process → Process} {o : Outcome} {c' : Control} {r : Registers}

theorem lookup_self {x : Option Registers} : List.lookup q [(q, x)] = some x := by
  rw [List.lookup_cons, beq_self_eq_true]

theorem lookup_of_ne {x : Option Registers} (h : q ≠ pid) : List.lookup q [(pid, x)] = none := by
  rw [List.lookup_cons, beq_eq_false_iff_ne.2 h]
  rfl

namespace Evolves

theorem refl (hc : op.contexts k = []) : Evolves k op k.processes := fun q p hp =>
  ⟨p, hp, .untouched p (by rw [hc]; rfl)⟩

theorem of_retains (hc : op.contexts k = []) (ht : k.processes.Retains t) : Evolves k op t := by
  intro q p hp
  rcases ht q with hsame | ⟨p', r, hp', hvacant, hslot⟩
  · exact ⟨p, hsame.trans hp, .untouched p (by rw [hc]; rfl)⟩
  · obtain rfl := Option.some.inj (hp.symm.trans hp')
    exact ⟨_, hslot, .vacant p r hvacant⟩

theorem of_update (hc : ∀ q, q ≠ pid → (op.contexts k).lookup q = none)
    (hturn : ∀ p, k.processes.get? pid = some p → Turn k op pid p (f p)) :
    Evolves k op (k.processes.update pid f) := by
  intro q p hp
  by_cases hq : q = pid
  · subst hq
    exact ⟨f p, ProcessTable.get?_update_self f hp, hturn p hp⟩
  · exact ⟨p, (ProcessTable.get?_update_of_ne f hq).trans hp, .untouched p (hc q hq)⟩

theorem of_retains_update (hc : op.contexts k = [(pid, some r)])
    (ht : (k.processes.update pid fun p => { p with registers := r }).Retains t) :
    Evolves k op t := by
  intro q p hp
  by_cases hq : q = pid
  · subst hq
    have hlookup : (op.contexts k).lookup q = some (some r) := by
      rw [hc]
      exact lookup_self
    have hself := ProcessTable.get?_update_self (fun p => { p with registers := r }) hp
    rcases ht q with hsame | ⟨p', r', hp', hvacant, hslot⟩
    · exact ⟨_, hsame.trans hself, .replied p r hlookup⟩
    · obtain rfl := Option.some.inj (hself.symm.trans hp')
      exact ⟨_, hslot, .vacant p r' hvacant⟩
  · have hother := (ProcessTable.get?_update_of_ne (fun p => { p with registers := r }) hq).trans hp
    rcases ht q with hsame | ⟨p', r', hp', hvacant, hslot⟩
    · refine ⟨p, hsame.trans hother, .untouched p ?_⟩
      rw [hc]
      exact lookup_of_ne hq
    · obtain rfl := Option.some.inj (hother.symm.trans hp')
      exact ⟨_, hslot, .vacant p r' hvacant⟩

theorem exists_turn {p' : Process} (h : Evolves k op t) (hp' : t.get? q = some p') :
    ∃ p, k.processes.get? q = some p ∧ Turn k op q p p' := by
  obtain ⟨p, hp⟩ := ProcessTable.exists_get? (t := k.processes) (ProcessTable.lt_of_get? hp')
  obtain ⟨p'', hp'', hturn⟩ := h q p hp
  obtain rfl := Option.some.inj (hp'.symm.trans hp'')
  exact ⟨p, hp, hturn⟩

end Evolves

namespace Ended

variable {c c' : Control}

theorem processes (h : Ended c o c') (ho : o ≠ .panicked) : c'.processes = c.processes := by
  cases o with
  | dispatched d =>
    cases d with
    | run pid =>
      obtain ⟨p, s, -, -, -, rfl⟩ := h
      rfl
    | idle => rw [h.1]
  | succeeded => rw [h]
  | failed =>
    rcases h with rfl | ⟨pid, -, rfl⟩
    · rfl
    · rfl
  | panicked => exact absurd rfl ho

theorem current (h : Ended c o c') (ho : o ≠ .panicked) (hc : c.current < slotCount) :
    c'.current < slotCount := by
  cases o with
  | dispatched d =>
    cases d with
    | run pid =>
      obtain ⟨p, s, hp, -, -, rfl⟩ := h
      exact ProcessTable.lt_of_get? hp
    | idle =>
      rw [h.1]
      exact hc
  | succeeded =>
    rw [h]
    exact hc
  | failed =>
    rcases h with rfl | ⟨pid, hpid, rfl⟩
    · exact hc
    · exact hpid
  | panicked => exact absurd rfl ho

/-- a process that control is handed over to can run -/
theorem runs (h : Ended c (.dispatched (.run pid)) c') : c.processes.Runs pid := by
  obtain ⟨p, s, hp, hrun, -⟩ := h
  exact ⟨p, hp, hrun⟩

/-- without a process that control is handed over to, nothing is added to the record -/
theorem activations (h : Ended c o c') (ho : o ≠ .panicked)
    (hrun : ∀ pid, o ≠ .dispatched (.run pid)) :
    c'.activations = c.activations := by
  cases o with
  | dispatched d =>
    cases d with
    | run pid => exact absurd rfl (hrun pid)
    | idle => rw [h.1]
  | succeeded => rw [h]
  | failed =>
    rcases h with rfl | ⟨pid, -, rfl⟩
    · rfl
    · rfl
  | panicked => exact absurd rfl ho

end Ended

end

end PagedKernel
