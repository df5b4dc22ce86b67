import PagedKernel.Proofs.Simulation.Boot

/-!
# Runs of a simulation

Every simulation that a command line asks for starts, runs to its end, and is right in every state
that it comes to: its programs are the processes of its kernel, and each sees the results of its own
calls.

* `Simulation.Run`        the states that a simulation comes to, with the calls that were made
* `Simulation.Faithful`   what is right in such a state
* `Simulation.Answers`    what is right in a step from it
* `Simulation.runs_faithful`   all simulations are right
-/

namespace PagedKernel

namespace Simulation

variable {s₀ s s' : Simulation} {n : Nat} {calls : CallRecord}

/-- from `s₀` a simulation comes to `s` in so many steps, with the calls that processes wait for -/
inductive Run (s₀ : Simulation) : Nat → Simulation → CallRecord → Prop
  | start : Run s₀ 0 s₀ fun _ => none
  | step {n : Nat} {s s' : Simulation} {calls : CallRecord} {more : Bool} (h : Run s₀ n s calls)
      (hidle : s.isIdle = false) (hstep : step s = .ok more s') :
      Run s₀ (n + 1) s' (calls.note s'.kernel s.action?)

/-- the programs are the processes of the kernel, and as long as something can run, what the running
program does next is right -/
structure Faithful (s : Simulation) (calls : CallRecord) : Prop where
  /-- the processes that have programs are those whose slots are not free -/
  tracked : ∀ pid p, s.kernel.processes.get? pid = some p →
    ((s.task? pid).isSome = true ↔ p.state ≠ .free)
  unbroken : ∀ pid p, s.kernel.processes.get? pid = some p → p.state ≠ .broken
  /-- the running process has a program -/
  running : s.isIdle = false → ∃ pid registers space t,
    s.kernel.host.running? = some (pid, registers, space) ∧ s.task? pid = some t
  /-- a store goes to a page that the process may write, and succeeds -/
  stores : s.isIdle = false → ∀ pid va byte, s.action? = some (pid, .store va byte) →
    (∃ f, s.kernel.lookup pid va = .ok (some ⟨va, f, .userReadWrite⟩)) ∧
      ∃ k, Kernel.writeUser pid va ⟨#[byte]⟩ s.kernel = .ok () k
  /-- only pages of the heap are asked for -/
  requests : s.isIdle = false → ∀ pid argument,
    s.action? = some (pid, .call .pageAlloc argument) →
      argument.toNat % 4096 = 0 ∧ heapStart ≤ argument ∧ argument < heapEnd
  /-- the running program waits for the call that its process made last, if it has done nothing
  since, and the result that it would see next is that of this call; it sees it once, and what it
  makes of it is told by `Task.sees_resume` -/
  results : s.isIdle = false → ∀ pid registers space t,
    s.kernel.host.running? = some (pid, registers, space) → s.task? pid = some t →
      calls pid = t.pending.map fun call => (call, registers.rax)

/-- a call that is made in the step from `s` to `s'` has the result that the kernel gives it -/
def Answers (s s' : Simulation) : Prop :=
  ∀ pid call argument, s.action? = some (pid, .call call argument) → call ≠ .exit →
    ∃ p, s'.kernel.processes.get? pid = some p ∧
      Replies s.kernel s'.kernel pid call argument p.registers.rax

/-! ## states in step -/

namespace Consistent

theorem tracked (h : s.Consistent calls) (pid : Pid) (p : Process)
    (hp : s.kernel.processes.get? pid = some p) :
    ((s.task? pid).isSome = true ↔ p.state ≠ .free) ∧ p.state ≠ .broken := by
  have hat := h.inStep pid p hp
  cases htask : s.task? pid with
  | none =>
    rw [htask] at hat
    rw [hat.1]
    exact ⟨⟨nofun, fun hne => absurd rfl hne⟩, nofun⟩
  | some t =>
    rw [htask] at hat
    rw [hat.runnable]
    exact ⟨⟨fun _ => nofun, fun _ => rfl⟩, nofun⟩

/-- what the running program does next comes from what it sees in the registers of its slot -/
theorem exists_of_action (h : s.Consistent calls) (hidle : s.isIdle = false) {pid : Pid}
    {action : TaskAction} (haction : s.action? = some (pid, action)) :
    ∃ (p : Process) (t : Task), t.Mirrors s.kernel pid p (calls pid) ∧
      ((t.resume p.registers.rax).step (UInt64.ofNat pid)).1 = action := by
  obtain ⟨p, t, space, hp, -, htask, hhost⟩ := h.exists_running hidle
  unfold action? at haction
  split at haction
  · cases haction
  · rw [hhost, Option.bind_some] at haction
    dsimp only at haction
    rw [htask, Option.map_some] at haction
    obtain ⟨rfl, rfl⟩ := Prod.mk.inj (Option.some.inj haction)
    have hat := h.inStep _ p hp
    rw [htask] at hat
    exact ⟨p, t, hat, rfl⟩

/-- the running program does what its task says -/
theorem action_cases (h : s.Consistent calls) (hidle : s.isIdle = false) {pid : Pid}
    {action : TaskAction} (haction : s.action? = some (pid, action)) :
    (∃ va byte, action = .store va byte ∧ s.kernel.Granted pid va) ∨
      ∃ call argument, action = .call call argument ∧
        (call = .pageAlloc → argument.toNat % 4096 = 0 ∧ heapStart ≤ argument ∧
          argument < heapEnd) := by
  obtain ⟨p, t, hmirrors, rfl⟩ := h.exists_of_action hidle haction
  rcases Task.resume_step_cases hmirrors.seen p.registers.rax (UInt64.ofNat pid) with
    ⟨hpending, hrax, hstep⟩ | ⟨call, argument, u, hstep, -, -, hheap, hcall⟩
  · rw [hstep]
    exact .inl ⟨_, _, rfl, (hmirrors.granted hpending hrax).2⟩
  · rw [hstep]
    refine .inr ⟨call, argument, rfl, fun halloc => ?_⟩
    have hbounded := hmirrors.bounded.of_heap hheap
    subst halloc
    obtain hcall | hcall | hcall | ⟨-, rfl, hlt⟩ := hcall
    · cases hcall
    · cases hcall
    · cases hcall
    · exact ⟨hbounded.aligned, hbounded.above, hlt⟩

theorem faithful (h : s.Consistent calls) : s.Faithful calls where
  tracked pid p hp := (h.tracked pid p hp).1
  unbroken pid p hp := (h.tracked pid p hp).2
  running hidle := by
    obtain ⟨p, t, space, -, -, htask, hhost⟩ := h.exists_running hidle
    exact ⟨_, _, space, t, hhost, htask⟩
  stores hidle pid va byte haction := by
    obtain ⟨_, _, ⟨⟩, hgranted⟩ | ⟨_, _, ⟨⟩, -⟩ := h.action_cases hidle haction
    obtain ⟨_, k, hx, -⟩ := (hgranted.ends_writeUser h.unhindered.valid byte).exists_ok
    obtain ⟨space, f, hspace, hpage⟩ := hgranted
    refine ⟨⟨f, ?_⟩, k, hx⟩
    rw [h.unhindered.valid.lookup_eq hspace, hpage]
    rfl
  requests hidle pid argument haction := by
    obtain ⟨_, _, ⟨⟩, -⟩ | ⟨_, _, ⟨⟩, hheap⟩ := h.action_cases hidle haction
    exact hheap rfl
  results hidle pid registers space t hhost htask := by
    obtain ⟨p, t', space', hp, -, htask', hhost'⟩ := h.exists_running hidle
    obtain ⟨rfl, hsame⟩ := Prod.mk.inj (Option.some.inj (hhost'.symm.trans hhost))
    obtain ⟨rfl, -⟩ := Prod.mk.inj hsame
    have hat := h.inStep _ p hp
    rw [htask] at hat
    exact hat.answered

end Consistent

/-! ## runs -/

/-- a run from a simulation in step only comes to simulations in step -/
theorem Run.consistent (h : Run s₀ n s calls) (h₀ : s₀.Consistent fun _ => none)
    (hsteps : s₀.steps = 0) (hn : n < 2 ^ 64) : s.Consistent calls ∧ s.steps = n := by
  induction h with
  | start => exact ⟨h₀, hsteps⟩
  | step h hidle hstep ih =>
    obtain ⟨hconsistent, rfl⟩ := ih (Nat.lt_of_succ_lt hn)
    have hstepped := (ends_step hconsistent hidle hn).ok hstep
    exact ⟨hstepped.consistent, hstepped.steps⟩

/-- a simulation in step runs until nothing can run, or all steps are done -/
theorem Run.exists_run (h : Run s₀ n s calls) (hconsistent : s.Consistent calls)
    (hidle : s.isIdle = false) (hsteps : s.steps = n) (left : Nat) (hleft : n + left < 2 ^ 64) :
    ∃ m s' calls', run left s = .ok () s' ∧ Run s₀ m s' calls' ∧ m ≤ n + left ∧
      (m = n + left ∨ s'.isIdle = true) := by
  induction left generalizing n s calls with
  | zero => exact ⟨n, s, calls, rfl, h, Nat.le_refl n, .inl rfl⟩
  | succ left ih =>
    obtain ⟨more, s₁, hx, hstepped⟩ := (ends_step hconsistent hidle (by omega)).exists_ok
    have hrun := h.step hidle hx
    rw [run, bind_of_ok hx]
    cases hmore : s₁.isIdle with
    | true =>
      refine ⟨n + 1, s₁, _, ?_, hrun, by omega, .inr hmore⟩
      rw [hstepped.more, hmore]
      rfl
    | false =>
      rw [hstepped.more, hmore]
      obtain ⟨m, s', calls', hx', hrun', hle, hend⟩ :=
        ih hrun hstepped.consistent hmore (hstepped.steps.trans (by rw [hsteps])) (by omega)
      exact ⟨m, s', calls', hx', hrun', by omega, hend.imp_left fun hm => by omega⟩

/-- with every choice of programs, up to `2 ^ 48` bytes of memory and any number of steps, a
simulation starts and runs to its end, and is right in every state that it comes to -/
theorem runs_faithful (o : Options) (h : ∀ n, o.memory = some n → n.toNat ≤ 2 ^ 48) :
    ∃ s₀, boot o.config o.program = .started s₀ ∧
      (∃ n s calls, run o.steps.toNat s₀ = .ok () s ∧ Run s₀ n s calls ∧ n ≤ o.steps.toNat ∧
        (n = o.steps.toNat ∨ s.isIdle = true)) ∧
      ∀ n s calls, Run s₀ n s calls → n ≤ o.steps.toNat → s.Faithful calls ∧
        (n < o.steps.toNat → s.isIdle = false →
          ∃ more s', step s = .ok more s' ∧ s.Answers s') := by
  obtain ⟨s₀, hboot, h₀, hsteps, hidle⟩ := exists_booted o h
  have hlt := o.steps.toNat_lt
  refine ⟨s₀, hboot, ?_, fun n s calls hrun hn => ?_⟩
  · have := Run.exists_run .start h₀ hidle hsteps o.steps.toNat (by omega)
    rwa [Nat.zero_add] at this
  · obtain ⟨hconsistent, rfl⟩ := hrun.consistent h₀ hsteps (by omega)
    refine ⟨hconsistent.faithful, fun hless hidle => ?_⟩
    obtain ⟨more, s', hx, hstepped⟩ := (ends_step hconsistent hidle (by omega)).exists_ok
    exact ⟨more, s', hx, hstepped.replies⟩

/-- all programs on the smallest machine, for as many steps as can be asked for -/
theorem runs_faithful_smallest :
    (∀ n, (some 0 : Option UInt64) = some n → n.toNat ≤ 2 ^ 48) ∧
      ∃ s₀, boot { memory := some 0 : Options }.config none = .started s₀ ∧
        ∃ n s calls, run 0xFFFFFFFFFFFFFFFF s₀ = .ok () s ∧ Run s₀ n s calls ∧
          s.Faithful calls := by
  have hmemory : ∀ n, (some 0 : Option UInt64) = some n → n.toNat ≤ 2 ^ 48 := by
    rintro _ ⟨⟩
    decide
  obtain ⟨s₀, hboot, ⟨n, s, calls, hx, hrun, hle, -⟩, hright⟩ :=
    runs_faithful { memory := some 0, steps := 0xFFFFFFFFFFFFFFFF } hmemory
  exact ⟨hmemory, s₀, hboot, n, s, calls, hx, hrun, (hright n s calls hrun hle).1⟩

end Simulation

end PagedKernel
