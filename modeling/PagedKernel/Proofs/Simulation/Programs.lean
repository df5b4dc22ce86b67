import PagedKernel.Proofs.Simulation.Entries
import PagedKernel.Simulation.Task

/-!
# Programs in step with the kernel

A simulation keeps two accounts of its processes: the slots of the kernel, and the programs that
play the processes.  Here is said when they agree, and that the entries of one process leave the
others in step.

* `Task.Sees`                what a program makes of the result of its last call
* `Task.resume_resume`       a result is used once
* `Task.resume_step_cases`   what a program does once it has seen the result of its last call
* `CallRecord`               the call that each process made last, with its result
* `Task.Mirrors`             a program is in step with the slot of its process
* `InStep`                   the processes are those that have programs, and these are in step
* `InStep.served`            an entry need only look at the processes that it changes
-/

namespace PagedKernel

/-! ## what programs do -/

namespace Task

variable {t u : Task}

/-- a program that does not owe a store makes a call; it asks only for pages of its heap -/
theorem step_calls (htouch : t.touch = none) (pid : UInt64) :
    ∃ call argument u, t.step pid = (.call call argument, u) ∧ u.pending = some call ∧
      u.touch = none ∧ u.heap = t.heap ∧
      (call = .yield ∨ call = .fork ∨ call = .exit ∨
        call = .pageAlloc ∧ argument = u.heap ∧ u.heap < heapEnd) := by
  unfold step
  rw [htouch]
  dsimp only
  split
  · exact ⟨.yield, _, _, rfl, rfl, rfl, rfl, .inl rfl⟩
  split
  · exact ⟨.fork, _, _, rfl, rfl, rfl, rfl, .inr (.inl rfl)⟩
  split
  · exact ⟨.exit, _, _, rfl, rfl, htouch, rfl, .inr (.inr (.inl rfl))⟩
  split
  · next hheap =>
    exact ⟨.pageAlloc, _, _, rfl, rfl, htouch, rfl, .inr (.inr (.inr ⟨rfl, rfl, hheap⟩))⟩
  · exact ⟨.yield, _, _, rfl, rfl, htouch, rfl, .inl rfl⟩

/-- what the program `t` makes of a result: it waits for it no longer; if it had asked for a page the
result says whether it has got that page, and any other result leaves it as it was -/
inductive Sees (t : Task) (result : UInt64) : Task → Prop
  | given (hpending : t.pending = some .pageAlloc) (hresult : result ≠ Registers.failed) :
      Sees t result { t with
        pending := none
        touch := some ⟨t.heap⟩
        yieldNext := true
        heap := t.heap + 4096
        allocated := t.allocated + 1 }
  | refused (hpending : t.pending = some .pageAlloc) (hresult : result = Registers.failed) :
      Sees t result { t with pending := none, heap := heapEnd }
  | other (hpending : t.pending ≠ some .pageAlloc) : Sees t result { t with pending := none }

theorem sees_resume (t : Task) (result : UInt64) : t.Sees result (t.resume result) := by
  unfold resume
  dsimp only
  split
  · next hpending =>
    split
    · next hresult => exact .refused hpending hresult
    · next hresult => exact .given hpending hresult
  · next hpending => exact .other hpending

theorem Sees.pending_eq {result : UInt64} (h : t.Sees result u) : u.pending = none := by
  cases h <;> rfl

/-- the result of a call is used once: whatever comes after it changes nothing -/
theorem resume_resume (t : Task) (result later : UInt64) :
    (t.resume result).resume later = t.resume result := by
  have hpending := (t.sees_resume result).pending_eq
  generalize t.resume result = u at hpending ⊢
  cases u
  cases hpending
  rfl

/-- a program that was given a page stores to it; any other makes a call -/
theorem resume_step_cases (htouch : t.touch = none) (result pid : UInt64) :
    (t.pending = some .pageAlloc ∧ result ≠ Registers.failed ∧
      (t.resume result).step pid = (.store ⟨t.heap⟩ pid.toUInt8,
        { t with
          pending := none
          touch := none
          yieldNext := true
          heap := t.heap + 4096
          allocated := t.allocated + 1 })) ∨
    ∃ call argument u, (t.resume result).step pid = (.call call argument, u) ∧
      u.pending = some call ∧ u.touch = none ∧ (u.heap = t.heap ∨ u.heap = heapEnd) ∧
      (call = .yield ∨ call = .fork ∨ call = .exit ∨
        call = .pageAlloc ∧ argument = u.heap ∧ u.heap < heapEnd) := by
  have hsees := t.sees_resume result
  generalize t.resume result = seen at hsees ⊢
  cases hsees with
  | given hpending hresult => exact .inl ⟨hpending, hresult, rfl⟩
  | refused =>
    obtain ⟨call, argument, u, hstep, hpending, htouch', hheap, hcall⟩ := step_calls
      (t := { t with pending := none, heap := heapEnd }) htouch pid
    exact .inr ⟨call, argument, u, hstep, hpending, htouch', .inr hheap, hcall⟩
  | other =>
    obtain ⟨call, argument, u, hstep, hpending, htouch', hheap, hcall⟩ := step_calls
      (t := { t with pending := none }) htouch pid
    exact .inr ⟨call, argument, u, hstep, hpending, htouch', .inl hheap, hcall⟩

end Task

/-! ## programs and slots -/

/-- the calls that processes wait for, with the results that the kernel left them; `none` for a
process that has not made a call since it acted last -/
abbrev CallRecord := Pid → Option (CallNumber × UInt64)

variable {k k₁ : Kernel} {pid child : Nat} {p p' : Process} {t u : Task} {call : CallNumber}
  {r : Registers} {value : UInt64} {last : Option (CallNumber × UInt64)}
  {tasks tasks' : Pid → Option Task} {calls calls' : CallRecord}

/-- the heap of a program ends with a page, between the bounds of all heaps -/
structure Task.Bounded (t : Task) : Prop where
  aligned : t.heap.toNat % 4096 = 0
  above : heapStart ≤ t.heap
  below : t.heap ≤ heapEnd

theorem Task.Bounded.of_heap (h : t.Bounded) (hheap : u.heap = t.heap ∨ u.heap = heapEnd) :
    u.Bounded := by
  rcases hheap with hheap | hheap
  · exact ⟨hheap ▸ h.aligned, hheap ▸ h.above, hheap ▸ h.below⟩
  · exact ⟨by rw [hheap]; decide, by rw [hheap]; decide, by rw [hheap]; exact UInt64.le_refl _⟩

/-- there is room for the page that a program was given -/
theorem Task.Bounded.next (h : t.Bounded) (hlt : t.heap < heapEnd)
    (hheap : u.heap = t.heap + 4096) : u.Bounded := by
  have hend : heapEnd.toNat = 4096 * 767 := by decide
  have haligned := h.aligned
  have habove := UInt64.le_iff_toNat_le.1 h.above
  rw [UInt64.lt_iff_toNat_lt, hend] at hlt
  have hnext : u.heap.toNat = t.heap.toNat + 4096 := by
    rw [hheap, UInt64.toNat_add]
    simp only [UInt64.reduceToNat]
    omega
  refine ⟨by omega, UInt64.le_iff_toNat_le.2 (by omega), UInt64.le_iff_toNat_le.2 ?_⟩
  rw [hnext, hend]
  omega

/-- the program `t` is in step with `p`, the slot of process `pid`: the process can run, the program
waits for the result of the call that it made last, and where it waits for a page it has got it -/
structure Task.Mirrors (k : Kernel) (pid : Pid) (p : Process) (last : Option (CallNumber × UInt64))
    (t : Task) : Prop where
  runnable : p.state = .runnable
  seen : t.touch = none
  bounded : t.Bounded
  answered : last = t.pending.map fun call => (call, p.registers.rax)
  granted : t.pending = some .pageAlloc → p.registers.rax ≠ Registers.failed →
    t.heap < heapEnd ∧ k.Granted pid ⟨t.heap⟩

/-- the slot `p` of process `pid` is in step with its program, or is free if there is none -/
def InStepAt (k : Kernel) (pid : Pid) (p : Process) (last : Option (CallNumber × UInt64)) :
    Option Task → Prop
  | some t => t.Mirrors k pid p last
  | none => p.state = .free ∧ last = none

/-- all slots are in step with the programs -/
def InStep (k : Kernel) (tasks : Pid → Option Task) (calls : CallRecord) : Prop :=
  ∀ pid p, k.processes.get? pid = some p → InStepAt k pid p (calls pid) (tasks pid)

theorem Kernel.Granted.congr {va : VirtualAddress} (h : k.Granted pid va)
    (hspace : k₁.processes.space? pid = k.processes.space? pid)
    (hpages : ∀ s, k.processes.space? pid = some s →
      ∀ n, k₁.memory.pageAt s.root n = k.memory.pageAt s.root n) : k₁.Granted pid va := by
  obtain ⟨s, f, hs, hpage⟩ := h
  exact ⟨s, f, hspace.trans hs, (hpages s hs _).trans hpage⟩

namespace Task.Mirrors

/-- a program that waits for no result -/
theorem of_none (hrunnable : p.state = .runnable) (htouch : t.touch = none)
    (hbounded : t.Bounded) (hpending : t.pending = none) : t.Mirrors k pid p none :=
  ⟨hrunnable, htouch, hbounded, by rw [hpending]; rfl, fun hcall =>
    (nomatch hpending.symm.trans hcall)⟩

theorem congr (h : t.Mirrors k pid p last) (hrunnable : p'.state = .runnable)
    (hrax : p'.registers.rax = p.registers.rax)
    (hgranted : ∀ va, k.Granted pid va → k₁.Granted pid va) : t.Mirrors k₁ pid p' last := by
  refine ⟨hrunnable, h.seen, h.bounded, ?_, fun hcall hne => ?_⟩
  · rw [hrax]
    exact h.answered
  · obtain ⟨hlt, hpage⟩ := h.granted hcall fun heq => hne (hrax.trans heq)
    exact ⟨hlt, hgranted _ hpage⟩

end Task.Mirrors

namespace InStep

/-- the slots and what they map are the same -/
theorem congr (h : InStep k tasks calls) (hprocesses : k₁.processes = k.processes)
    (hmemory : k₁.memory = k.memory) : InStep k₁ tasks calls := by
  intro pid p hp
  rw [hprocesses] at hp
  have hat := h pid p hp
  cases htask : tasks pid with
  | none =>
    rw [htask] at hat
    exact hat
  | some t =>
    rw [htask] at hat
    exact hat.congr hat.runnable rfl fun va hpage =>
      hpage.congr (by rw [hprocesses]) fun _ _ _ => by rw [hmemory]

/-- an entry of the current process leaves the other processes and their programs in step; it need
only look at slots that were free, and at the current one -/
theorem served (h : InStep k tasks calls) (hvalid : k.Valid ∅) (hs : Kernel.Served k k₁)
    (htasks : ∀ q, q ≠ k.current → (tasks q).isSome = true →
      tasks' q = tasks q ∧ calls' q = calls q)
    (hfree : ∀ q, q ≠ k.current → tasks q = none → ∀ p p', k.processes.get? q = some p →
      k₁.processes.get? q = some p' → p.state = .free → calls q = none →
      InStepAt k₁ q p' (calls' q) (tasks' q))
    (hcurrent : ∀ p, k₁.processes.get? k.current = some p →
      InStepAt k₁ k.current p (calls' k.current) (tasks' k.current)) :
    InStep k₁ tasks' calls' := by
  intro q p' hp'
  by_cases hq : q = k.current
  · subst hq
    exact hcurrent p' hp'
  obtain ⟨p, hp⟩ := ProcessTable.exists_get? (ProcessTable.lt_of_get? hp')
  have hat := h q p hp
  cases htask : tasks q with
  | none =>
    rw [htask] at hat
    exact hfree q hq htask p p' hp hp' hat.1 hat.2
  | some t =>
    rw [htask] at hat
    obtain ⟨htask', hcalls⟩ := htasks q hq (by rw [htask]; rfl)
    have hspace := hvalid.ready q p hp (Process.isRunnable_iff.2 hat.runnable)
    have hloaded : k.Loaded {q} := by
      intro q' hq'
      rw [Finset.mem_singleton.1 hq', ProcessTable.space?_of_get? hp]
      exact hspace
    have hspares := hs.spares q hq hloaded
    have hslot := hspares.slots q (Finset.mem_singleton_self q)
    obtain rfl := Option.some.inj (hp'.symm.trans (hslot.trans hp))
    rw [htask', htask, hcalls]
    refine hat.congr hat.runnable rfl fun va hpage =>
      hpage.congr (ProcessTable.space?_congr hslot) fun s hs n => hspares.keeps.pageAt ?_ n
    exact Finset.mem_insert_of_mem (ProcessTable.mem_rootsOf.2 ⟨q, Finset.mem_singleton_self q, hs⟩)

/-- the current process has made a call and has its result; nothing else has changed -/
theorem answered (h : InStep k tasks calls) (hvalid : k.Valid ∅)
    (hp : k.processes.get? k.current = some p) (hrunnable : p.state = .runnable)
    (hanswered : Kernel.Answered k (r.result value) k₁) (htouch : u.touch = none)
    (hbounded : u.Bounded) (hpending : u.pending = some call)
    (hgranted : call = .pageAlloc → value ≠ Registers.failed →
      u.heap < heapEnd ∧ k₁.Granted k.current ⟨u.heap⟩) :
    InStep k₁ (Function.update tasks k.current (some u))
      (Function.update calls k.current (some (call, value))) := by
  refine h.served hvalid hanswered.served (fun q hq _ => ?_)
    (fun q hq htask p₀ p' hp₀ hp' hf hc => ?_) fun p' hp' => ?_
  · exact ⟨Function.update_of_ne hq _ _, Function.update_of_ne hq _ _⟩
  · rw [Function.update_of_ne hq, Function.update_of_ne hq, htask]
    exact ⟨hanswered.free hq hp₀ hf hp', hc⟩
  · rw [Function.update_self, Function.update_self]
    obtain rfl := Option.some.inj (hp'.symm.trans (hanswered.slot hp hrunnable))
    refine ⟨hrunnable, htouch, hbounded, ?_, fun hcall' hrax => ?_⟩
    · rw [hpending]
      rfl
    · exact hgranted (Option.some.inj (hpending.symm.trans hcall')) hrax

/-- the current process has been duplicated: the new one runs the same program -/
theorem forked (h : InStep k tasks calls) (hvalid : k.Valid ∅)
    (hp : k.processes.get? k.current = some p) (hrunnable : p.state = .runnable)
    (hforked : Kernel.Forked k r child k₁) (htouch : u.touch = none) (hbounded : u.Bounded)
    (hpending : u.pending = some .fork) :
    InStep k₁
      (Function.update (Function.update tasks k.current (some u)) child (some u.forkedChild))
      (Function.update calls k.current (some (.fork, UInt64.ofNat child))) := by
  obtain ⟨c, hc, hvacant⟩ := hforked.vacant
  have hne := hforked.ne hp hrunnable
  have hnone : tasks child = none := by
    cases htask : tasks child with
    | none => rfl
    | some t =>
      have hat := h child c hc
      rw [htask] at hat
      cases hat.runnable.symm.trans (Process.isVacant_iff.1 hvacant).1
  refine h.served hvalid hforked.served (fun q hq htask => ?_)
    (fun q hq htask p₀ p' hp₀ hp' hf hcq => ?_) fun p' hp' => ?_
  · have hchild : q ≠ child := by
      rintro rfl
      rw [hnone] at htask
      cases htask
    exact ⟨by rw [Function.update_of_ne hchild, Function.update_of_ne hq],
      Function.update_of_ne hq _ _⟩
  · rw [Function.update_of_ne hq]
    by_cases hchild : q = child
    · subst hchild
      obtain ⟨c', hc', hruns⟩ := hforked.slot_child hp hrunnable
      obtain rfl := Option.some.inj (hp'.symm.trans hc')
      rw [Function.update_self, hcq]
      exact .of_none hruns htouch ⟨hbounded.aligned, hbounded.above, hbounded.below⟩ rfl
    · obtain rfl := Option.some.inj (hp₀.symm.trans ((hforked.slot_other hq hchild).symm.trans hp'))
      rw [Function.update_of_ne hchild, Function.update_of_ne hq, htask]
      exact ⟨hf, hcq⟩
  · rw [Function.update_of_ne hne.symm, Function.update_self, Function.update_self]
    obtain rfl := Option.some.inj (hp'.symm.trans (hforked.slot_parent hp hrunnable))
    refine ⟨hrunnable, htouch, hbounded, ?_, fun hcall => ?_⟩
    · rw [hpending]
      rfl
    · cases hpending.symm.trans hcall

/-- the current process has left -/
theorem exited (h : InStep k tasks calls) (hvalid : k.Valid ∅) (hserved : Kernel.Served k k₁)
    (hprocesses : k₁.processes = k.processes.update k.current Process.vacated) :
    InStep k₁ (Function.update tasks k.current none) (Function.update calls k.current none) := by
  refine h.served hvalid hserved (fun q hq _ => ?_) (fun q hq htask p₀ p' hp₀ hp' hf hc => ?_)
    fun p' hp' => ?_
  · exact ⟨Function.update_of_ne hq _ _, Function.update_of_ne hq _ _⟩
  · rw [Function.update_of_ne hq, Function.update_of_ne hq, htask]
    rw [hprocesses, ProcessTable.get?_update_of_ne _ hq, hp₀] at hp'
    obtain rfl := Option.some.inj hp'
    exact ⟨hf, hc⟩
  · rw [Function.update_self, Function.update_self]
    obtain ⟨p, hp⟩ := ProcessTable.exists_get? hvalid.current
    rw [hprocesses, ProcessTable.get?_update_self _ hp] at hp'
    obtain rfl := Option.some.inj hp'
    exact ⟨rfl, rfl⟩

/-- the timer has interrupted the current process, whose registers are saved as they were -/
theorem interrupted (h : InStep k tasks calls) (hk : k.Unhindered)
    (hp : k.processes.get? k.current = some p) (htask : tasks k.current = some t)
    (hrax : r.rax = p.registers.rax) (hprocesses : k₁.processes = (k.saved r).processes)
    (hmemory : k₁.memory = k.memory) : InStep k₁ tasks calls := by
  have hsaved : InStep (k.saved r) tasks calls := by
    refine h.served hk.valid (.saved hk r) (fun _ _ _ => ⟨rfl, rfl⟩)
      (fun q hq hnone p₀ p' hp₀ hp' hfree hc => ?_) fun p' hp' => ?_
    · rw [Kernel.processes_saved, ProcessTable.get?_update_of_ne _ hq, hp₀] at hp'
      obtain rfl := Option.some.inj hp'
      rw [hnone]
      exact ⟨hfree, hc⟩
    · rw [Kernel.processes_saved, ProcessTable.get?_update_self _ hp] at hp'
      obtain rfl := Option.some.inj hp'
      have hat := h k.current p hp
      rw [htask] at hat ⊢
      exact hat.congr hat.runnable hrax fun va hpage =>
        hpage.congr (ProcessTable.space?_update fun _ => rfl) fun _ _ _ => rfl
  exact hsaved.congr hprocesses hmemory

/-- the current process has written to its memory, and waits for no result -/
theorem stored (h : InStep k tasks calls) (hk : k.Unhindered)
    (hp : k.processes.get? k.current = some p) (hrunnable : p.state = .runnable)
    (hwrites : Kernel.Writes k.current k k₁) (htouch : u.touch = none) (hbounded : u.Bounded)
    (hpending : u.pending = none) :
    InStep k₁ (Function.update tasks k.current (some u))
      (Function.update calls k.current none) := by
  refine h.served hk.valid (.of_serves hk hwrites.serves) (fun q hq _ => ?_)
    (fun q hq hnone p₀ p' hp₀ hp' hfree hc => ?_) fun p' hp' => ?_
  · exact ⟨Function.update_of_ne hq _ _, Function.update_of_ne hq _ _⟩
  · rw [hwrites.processes, hp₀] at hp'
    obtain rfl := Option.some.inj hp'
    rw [Function.update_of_ne hq, Function.update_of_ne hq, hnone]
    exact ⟨hfree, hc⟩
  · rw [hwrites.processes, hp] at hp'
    obtain rfl := Option.some.inj hp'
    rw [Function.update_self, Function.update_self]
    exact .of_none hrunnable htouch hbounded hpending

end InStep

end PagedKernel
