import PagedKernel.Proofs.Control.Sessions
import PagedKernel.Proofs.Kernel.Accounting

/-!
# The registers of processes

A process goes on with the registers that it gave up control with, whatever others did in between,
but for the result of a call, which is stored into them.

* `context`               the registers that a process got last, from operations on itself
* `Session.kept`          these are the registers in its slot
* `Session.activates`     control is handed over with exactly these registers
-/

namespace PagedKernel

variable {k₀ k : Kernel} {op : Operation} {past : List (Kernel × Operation)} {pid q : Nat}

/-- the registers that `q` got last, from an operation on `q` itself -/
def context : List (Kernel × Operation) → Pid → Option Registers
  | [], _ => none
  | (k, op) :: past, q =>
    match (op.contexts k).lookup q with
    | some registers => registers
    | none => context past q

theorem context_of_none (h : (op.contexts k).lookup q = none) :
    context ((k, op) :: past) q = context past q := by
  rw [context, h]

theorem context_of_some {r : Registers} (h : (op.contexts k).lookup q = some (some r)) :
    context ((k, op) :: past) q = some r := by
  rw [context, h]

/-- the processes that can run have the registers of their contexts -/
def Kept (past : List (Kernel × Operation)) (t : ProcessTable slotCount) : Prop :=
  ∀ q p, t.get? q = some p → p.isRunnable = true → p.space.isSome = true →
    context past q = some p.registers

/-- an operation gives a process the registers of its context, or leaves those that it has -/
theorem Kept.evolves {t : ProcessTable slotCount} (h : Kept past k.processes)
    (ht : Evolves k op t) : Kept ((k, op) :: past) t := by
  intro q p' hp' hrun hspace
  obtain ⟨p, hp, hturn⟩ := ht.exists_turn hp'
  cases hturn with
  | untouched hc => exact (context_of_none hc).trans (h q _ hp hrun hspace)
  | vacant r hvacant =>
    rw [(Process.isVacant_iff.1 hvacant).2] at hspace
    cases hspace
  | loaded s r hq hvacant hop hc => exact context_of_some hc
  | replied r hc => exact context_of_some hc
  | broke r => cases hrun
  | left => cases hrun
  | stranded r => cases hspace

/-- the registers of all processes stay those of their contexts throughout a session -/
theorem Session.kept {host : Host} {config : KernelConfig} (h : Session k₀ past k)
    (h₀ : Kernel.start host config = .started k₀) : Kept past k.processes := by
  have ho₀ := Orderly.of_started h₀
  induction h with
  | start =>
    obtain ⟨machine, space, rfl⟩ := Kernel.eq_of_started h₀
    intro q p hp hrun
    have hfree : p.state = .free := (ProcessTable.get?_empty hp).2.1
    rw [Process.isRunnable, hfree] at hrun
    cases hrun
  | operate h op hdue hgo ih => exact ih.evolves (op.effect (h.orderly ho₀) hdue hgo).1
  | host _ host hcalls ih => exact ih

/-! ## a slot that is taken again -/

theorem Operation.lookup_getPid {r : Registers} (hrax : r.rax = CallNumber.getPid.value)
    (hcurrent : UInt64.ofNat k.current = r.rax) :
    ((Operation.syscall r).contexts k).lookup k.current = some (some r) := by
  have hresult : r.result (UInt64.ofNat k.current) = r := by
    rw [hcurrent]
    rfl
  unfold contexts
  dsimp only
  have henter := Control.ends_enter (k := k) r
  split
  · next pid call k₁ heq =>
    obtain ⟨hpid, hcall, -⟩ := henter.ok heq
    obtain rfl : pid = k.current := hpid
    have hdecode : Syscall.decode r = .ok .getPid := by
      unfold Syscall.decode
      rw [hrax]
      rfl
    obtain rfl : Syscall.getPid = call := Except.ok.inj (hdecode.symm.trans hcall)
    rw [Kernel.callContexts, hresult, lookup_self]
  · rw [lookup_self]

/-- a program is taken down while it is the current process, and leaves nothing behind -/
theorem exists_emptied : ∃ (k₀ k : Kernel) (past : List (Kernel × Operation)) (s : AddressSpace),
    Kernel.start {} { idleLimit := some ⟨4, by decide⟩ } = .started k₀ ∧ Session k₀ past k ∧
    past.map Prod.snd = [.teardown 1, .run 1, .setup 1 .bare] ∧
    8 ≤ k.freeCount ∧ k.current = 1 ∧ (∃ p, k.processes.get? 1 = some p ∧ p.isVacant = true) ∧
    k.control.activations =
      [(1, Registers.entry ProgramImage.bare.entry.value 0x300000, s)] := by
  obtain ⟨k₀, k₁, h₀, hfree, h₁, hvalid₁, hconfig₁, hruns₁, s, hk₁⟩ :=
    Session.exists_loaded {} { idleLimit := some ⟨4, by decide⟩ } Layout.ordered_default
      (by decide +kernel) (by decide +kernel)
  have hnull : k₁.layout.SparesNull := Kernel.layout_of_config hconfig₁ ▸ Layout.sparesNull_default
  obtain ⟨hvalid₀, -, hnone₀⟩ := Kernel.started_valid Layout.ordered_default h₀
  have hsilent : k₀.control.activations = [] := by
    obtain ⟨machine, space, rfl⟩ := Kernel.eq_of_started h₀
    rfl
  obtain ⟨p₀, hp₀, hp₀'⟩ : ∃ p, k₀.processes.get? 1 = some p ∧ p.isVacant = true := by
    obtain ⟨machine, space, rfl⟩ := Kernel.eq_of_started h₀
    exact ⟨_, rfl, rfl⟩
  have hslot₁ : k₁.control.processes.get? 1
      = some (Kernel.loadedBare (.withPhysical 0x200000) s p₀) := by
    rw [hk₁]
    exact ProcessTable.get?_update_self _ hp₀
  -- the program runs, and is the current process
  obtain ⟨hrun, -, p, s₁, hp, hrunnable, hs₁, hk₂⟩ := Kernel.run_of_runs hvalid₁ hnull hruns₁
  obtain rfl := Option.some.inj (hslot₁.symm.trans hp)
  obtain rfl := Option.some.inj hs₁
  have h₂ := h₁.operate (.run 1) trivial (.of_outcome hrun nofun)
  generalize (Operation.run 1).perform k₁ = k₂ at h₂ hk₂
  -- it is taken down
  obtain ⟨hvalid₂, -⟩ := h₂.valid h₀ Layout.ordered_default
  obtain ⟨hdown, -, hk₃⟩ :=
    Kernel.teardown_of_lt hvalid₂ Nat.one_ne_zero (show 1 < slotCount by decide)
  have h₃ := h₂.operate (.teardown 1) trivial (.of_outcome hdown nofun)
  generalize (Operation.teardown 1).perform k₂ = k₃ at h₃ hk₃
  obtain ⟨hvalid₃, -⟩ := h₃.valid h₀ Layout.ordered_default
  have hk₃ : k₃.control = { k₀.control with
      processes := k₀.processes.update 1 fun p =>
        (Kernel.loadedBare (.withPhysical 0x200000) s p).vacated
      current := 1
      activations := [(1, Registers.entry ProgramImage.bare.entry.value 0x300000, s)] } := by
    rw [hk₃, hk₂, hk₁, Control.change, Control.change, ProcessTable.update_update, hsilent]
    rfl
  have hprocesses₃ : k₃.processes = _ := congrArg Control.processes hk₃
  have hslot₃ : k₃.processes.get? 1
      = some (Kernel.loadedBare (.withPhysical 0x200000) s p₀).vacated := by
    rw [hprocesses₃]
    exact ProcessTable.get?_update_self _ hp₀
  have hnone₃ : ∀ pid, k₃.processes.space? pid = none := by
    intro pid
    by_cases hpid : pid = 1
    · rw [hpid, ProcessTable.space?_of_get? hslot₃]
      rfl
    · rw [hprocesses₃, ProcessTable.space?_congr (ProcessTable.get?_update_of_ne _ hpid)]
      exact hnone₀ pid
  refine ⟨k₀, k₃, _, s, h₀, h₃, rfl, ?_, congrArg Control.current hk₃, ⟨_, hslot₃, rfl⟩,
    congrArg Control.activations hk₃⟩
  rw [(h₃.reachable.confined hvalid₀).2.freeCount_eq hvalid₃ hvalid₀ hnone₃ hnone₀]
  exact hfree

/-- another program is loaded into its slot -/
theorem exists_reloaded : ∃ (k₀ k : Kernel) (past : List (Kernel × Operation)) (s : AddressSpace),
    Kernel.start {} { idleLimit := some ⟨4, by decide⟩ } = .started k₀ ∧ Session k₀ past k ∧
    past.map Prod.snd = [.setup 1 .bare, .teardown 1, .run 1, .setup 1 .bare] ∧
    k.Valid ∅ ∧ k.config = { idleLimit := some ⟨4, by decide⟩ } ∧ k.host.abortAfter = none ∧
    k.current = 1 ∧ k.processes.Runs 1 ∧
    k.control.activations =
      [(1, Registers.entry ProgramImage.bare.entry.value 0x300000, s)] := by
  obtain ⟨k₀, k, past, s, h₀, h, hpast, hfree, hcurrent, hslot, hsilent⟩ := exists_emptied
  obtain ⟨hvalid, hconfig⟩ := h.valid h₀ Layout.ordered_default
  obtain ⟨hup, -, -, s', hk'⟩ := Kernel.setup_bare hvalid Nat.one_ne_zero hslot
    (by rw [Kernel.layout_of_config hconfig]; decide +kernel) hfree
  obtain ⟨p, hp, -⟩ := hslot
  have h' := h.operate (.setup 1 .bare) trivial (.of_outcome hup nofun)
  generalize (Operation.setup 1 .bare).perform k = k' at h' hk'
  obtain ⟨hvalid', hconfig'⟩ := h'.valid h₀ Layout.ordered_default
  have hruns : k'.processes.Runs 1 := by
    rw [show k'.processes = _ from congrArg Control.processes hk']
    exact ⟨_, ProcessTable.get?_update_self _ hp, rfl⟩
  -- the host does not stop the kernel
  have h'' := h'.host { calls := k'.host.calls } rfl
  refine ⟨k₀, _, _, s, h₀, h'', congrArg _ hpast, (h''.valid h₀ Layout.ordered_default).1, hconfig',
    rfl, (congrArg Control.current hk').trans hcurrent, hruns, ?_⟩
  have hcontrol : Kernel.control { k' with host := { calls := k'.host.calls } } = k'.control :=
    control_host rfl
  rw [hcontrol, hk']
  exact hsilent

/-! ## handing over control -/

/-- whom control was handed to by an operation with outcome `o`, and how: to a process that can run,
in its own address space and with the registers of its context; without such an outcome to nobody -/
def Activated (past : List (Kernel × Operation)) (k : Kernel) (o : Outcome) (k' : Kernel) : Prop :=
  match o with
  | .dispatched (.run p) =>
    k'.current = p ∧ k'.processes.Runs p ∧
      ∃ r s, context past p = some r ∧ k'.processes.space? p = some s ∧
        k'.control.activations = (p, r, s) :: k.control.activations
  | _ => k'.control.activations = k.control.activations

/-- an operation hands over control exactly when it says so, and then to the process that it says,
with the registers that this process got last -/
theorem Session.activates {host : Host} {config : KernelConfig}
    (h₀ : Kernel.start host config = .started k₀) (h : Session k₀ past k) (op : Operation)
    (hdue : op.Delivered k) (hgo : op.Completes k) :
    Activated ((k, op) :: past) k (op.outcome k) (op.perform k) := by
  obtain ⟨hevolves, hended, -⟩ := op.effect (h.orderly (.of_started h₀)) hdue hgo
  have hkept := (h.kept h₀).evolves hevolves
  have hother := hended.activations hgo
  unfold Activated
  split
  · next p ho =>
    rw [ho] at hended
    obtain ⟨p', s, hp, hrun, hspace, hk'⟩ := hended
    refine ⟨congrArg Control.current hk', ⟨p', hp, hrun⟩, p'.registers, s, ?_, ?_, ?_⟩
    · exact hkept p p' hp hrun (by rw [hspace]; rfl)
    · exact (ProcessTable.space?_of_get? hp).trans hspace
    · exact congrArg Control.activations hk'
  · next hnot => exact hother fun pid => hnot pid

theorem activates_loaded : ∃ k₀ k : Kernel, Kernel.start {} {} = .started k₀ ∧
    Session k₀ [(k₀, .setup 1 .bare)] k ∧
    Activated [(k, .run 1), (k₀, .setup 1 .bare)] k (.dispatched (.run 1))
      ((Operation.run 1).perform k) := by
  obtain ⟨k₀, k, h₀, -, h, hvalid, hconfig, hruns, -⟩ :=
    Session.exists_loaded {} {} Layout.ordered_default (by decide +kernel) (by decide +kernel)
  have hnull : k.layout.SparesNull := Kernel.layout_of_config hconfig ▸ Layout.sparesNull_default
  obtain ⟨houtcome, -⟩ := Kernel.run_of_runs hvalid hnull hruns
  refine ⟨k₀, k, h₀, h, ?_⟩
  rw [← houtcome]
  exact Session.activates h₀ h (.run 1) trivial (.of_outcome houtcome nofun)

/-- the registers of a system call that asks for the pid of its process -/
def Registers.pidCall : Registers where
  rax := 1
  intno := 0x80
  rip := 0x100004

/-- A process was taken down while it was the current one, and a program was loaded into its slot.
A system call that is then delivered is taken for one of the new program, which so starts with
other registers than those of its start. -/
theorem activates_otherwise : ∃ (k₀ k : Kernel) (past : List (Kernel × Operation))
    (s s' : AddressSpace),
    Kernel.start {} { idleLimit := some ⟨4, by decide⟩ } = .started k₀ ∧ Session k₀ past k ∧
    past.map Prod.snd =
      [.syscall .pidCall, .setup 1 .bare, .teardown 1, .run 1, .setup 1 .bare] ∧
    k.control.activations =
      [(1, .pidCall, s'), (1, Registers.entry ProgramImage.bare.entry.value 0x300000, s)] ∧
    Registers.pidCall ≠ Registers.entry ProgramImage.bare.entry.value 0x300000 := by
  obtain ⟨k₀, k, past, s, h₀, h, hpast, hvalid, hconfig, hpoll, hcurrent, hruns, hsilent⟩ :=
    exists_reloaded
  have ho := h.orderly (.of_started h₀)
  have hnormal : k.Normal False :=
    ⟨Kernel.layout_of_config hconfig ▸ Layout.sparesNull_default, hcurrent ▸ hruns,
      by rw [hconfig]; exact nofun, False.elim⟩
  have hcall := Kernel.getPid_of_runs (r := .pidCall) hvalid ho hnormal
    (by rw [hpoll]; exact nofun) rfl
  have hgo := Operation.Completes.of_outcome hcall nofun
  have h' := h.operate (.syscall .pidCall) hnormal.runs hgo
  obtain ⟨-, hended, -⟩ := (Operation.syscall .pidCall).effect ho hnormal.runs hgo
  rw [hcall, hcurrent] at hended
  obtain ⟨p, s', hp, hrunnable, hs', hk⟩ := hended
  -- the registers of the call are those that the slot has
  have hlookup :
      ((Operation.syscall .pidCall).contexts k).lookup k.current = some (some .pidCall) :=
    Operation.lookup_getPid rfl (by rw [hcurrent]; rfl)
  rw [hcurrent] at hlookup
  have hgot := (h'.kept h₀ 1 p hp hrunnable (by rw [hs']; rfl)).symm.trans
    (context_of_some hlookup)
  refine ⟨k₀, _, _, s, s', h₀, h', congrArg _ hpast, ?_, by decide⟩
  rw [hk, Option.some.inj hgot]
  exact congrArg _ hsilent

end PagedKernel
