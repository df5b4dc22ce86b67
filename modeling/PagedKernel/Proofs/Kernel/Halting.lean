import PagedKernel.Proofs.Kernel.Reachable

/-!
# How an entry ends

An entry for a process that runs ends with one of a few halts, each for its own reason, or hands
over control.  It does not find fault with the kernel's own data.

* `Halt.isInternal`              the halts for which the kernel itself would be to blame
* `Kernel.EndsExactly`           an entry halts exactly for the reasons given
* `Kernel.Reachable.entries`     so do interrupts and system calls in reachable kernels
-/

namespace PagedKernel

/-- whether the kernel itself would be to blame: frames counted wrongly, a process that was chosen
and cannot run, or one that does not map the kernel -/
def Halt.isInternal : Halt → Bool
  | frame _ | notRunnable _ | corruptPageTable _ _ => true
  | _ => false

namespace Kernel

variable {k k₀ : Kernel} {r : Registers} {halt : Halt}

theorem ExceptionHalt.not_isInternal (h : k.ExceptionHalt r halt) : halt.isInternal = false := by
  cases h <;> rfl

theorem SyscallHalt.not_isInternal (h : k.SyscallHalt r halt) : halt.isInternal = false := by
  cases h <;> rfl

/-- an entry ends with a halt of `halts` if there is one, and not for the kernel's own fault; else
it hands over control.  It does not panic. -/
def EndsExactly (entry : Attempt Kernel Halt Dispatch) (k : Kernel) (halts : Halt → Prop) : Prop :=
  Ends entry k (fun d k' => (∀ h, ¬ halts h) ∧ k'.Handed d)
    (Fails fun h _ => halts h ∧ h.isInternal = false)

theorem endsExactly {entry : Attempt Kernel Halt Dispatch} {tick : Prop} {halts : Halt → Prop}
    (h : Ends entry k (Returned k tick halts) (Halted k tick halts)) (hk : k.Normal tick)
    (hown : ∀ h, halts h → h.isInternal = false) : EndsExactly entry k halts := by
  refine h.mono (fun d k' hk' => hk'.2 hk) fun e k' he => ?_
  obtain ⟨halt, rfl, hhalt⟩ := he.normal hk
  exact ⟨hhalt, hown halt hhalt⟩

/-- an entry for a process that runs ends exactly with the halts that there are reasons for -/
theorem Reachable.entries {n : UInt64} (h : Reachable k₀ k) (hn : n.toNat ≤ 2 ^ 48)
    (h₀ : StartedOn n k₀) (hlimit : k.config.idleLimit ≠ none)
    (hruns : k.processes.Runs k.current) (r : Registers) :
    ((r.intno = 32 → k.ticks.toNat + 1 < 2 ^ 64) →
      EndsExactly (exception r) k (k.ExceptionHalt r)) ∧
    EndsExactly (syscall r) k (k.SyscallHalt r) := by
  obtain ⟨hvalid₀, hlayout₀, -⟩ := h₀.valid hn
  obtain ⟨hvalid, hspares⟩ := h.confined hvalid₀
  have hlayout : k.layout.SparesNull := by
    rw [hspares.layout, hlayout₀]
    exact Layout.sparesNull_withPhysical n
  refine ⟨fun htick => ?_, ?_⟩
  · exact endsExactly (ends_exception hvalid r) ⟨hlayout, hruns, hlimit, htick⟩
      fun _ hh => hh.not_isInternal
  · exact endsExactly (ends_syscall hvalid r) ⟨hlayout, hruns, hlimit, False.elim⟩
      fun _ hh => hh.not_isInternal

/-- a timer interrupt and a call to yield, with a process at work -/
theorem entries_running : ∃ k₀ k : Kernel, StartedOn 0x200000 k₀ ∧
    k.processes.Runs k.current ∧ k.config.idleLimit ≠ none ∧
    EndsExactly (exception { intno := 32 }) k (k.ExceptionHalt { intno := 32 }) ∧
    EndsExactly (syscall { rax := 2 }) k (k.SyscallHalt { rax := 2 }) := by
  obtain ⟨k₀, k, h₀, h, hconfig, hruns, hcurrent, hticks⟩ := StartedOn.exists_running {}
    { layout := .withPhysical 0x200000, idleLimit := some ⟨4, by decide⟩ } rfl
  rw [← hcurrent] at hruns
  have hlimit : k.config.idleLimit ≠ none := by
    rw [hconfig]
    exact Option.some_ne_none _
  refine ⟨k₀, k, h₀, hruns, hlimit, (h.entries (by decide) h₀ hlimit hruns _).1 fun _ => ?_,
    (h.entries (by decide) h₀ hlimit hruns _).2⟩
  rw [hticks]
  decide

end Kernel

end PagedKernel
