import PagedKernel.Kernel.State
import PagedKernel.Proofs.Process.Build
import PagedKernel.Proofs.Process.Table

/-!
# Valid kernels

* `Kernel.Valid`         the invariant of a kernel, between operations and in the middle of them
* `Kernel.Spares`        what an operation leaves alone: some processes with all their memory
* `Kernel.Confined`      an operation leaves a valid kernel, and all processes but some alone
* `Kernel.ends_onMachine`, `Kernel.ends_report`, …   how the steps of the kernel end

The memory of a process that is being loaded does not yet map what the kernel maps; such a process
is unfinished.
-/

namespace PagedKernel

namespace Kernel

variable {k k' k'' : Kernel} {unfinished others : Finset Pid} {pid : Nat}

/-! ## the invariant -/

/-- memory is sound for the processes of the table, and the table is in order -/
structure Valid (k : Kernel) (unfinished : Finset Pid) : Prop where
  sound : Sound k.layout k.space.root k.processes.roots [] k.memory
  distinct : k.processes.Distinct
  numbered : ∀ pid p, k.processes.get? pid = some p → p.pid = pid
  /-- a process that can run has an address space -/
  ready : ∀ pid p, k.processes.get? pid = some p → p.isRunnable = true → p.space.isSome = true
  /-- a process maps all that the kernel maps below its memory, and its stack -/
  complete : ∀ pid, pid ∉ unfinished → ∀ s, k.processes.space? pid = some s →
    Complete k.layout s.root k.memory
  reserved : k.processes.space? 0 = none
  current : k.current < slotCount
  shown : k.viewer.shown < slotCount

/-- `k'` has the processes `others` as `k` has them, and all that they map and the kernel maps -/
structure Spares (others : Finset Pid) (k k' : Kernel) : Prop where
  config : k'.config = k.config
  space : k'.space = k.space
  slots : ∀ q ∈ others, k'.processes.get? q = k.processes.get? q
  keeps : Keeps k.layout k.space.root (k.processes.rootsOf others) k.memory k'.memory

/-- the processes `others` have address spaces -/
def Loaded (k : Kernel) (others : Finset Pid) : Prop :=
  ∀ q ∈ others, (k.processes.space? q).isSome = true

theorem layout_of_config {config : KernelConfig} (h : k.config = config) :
    k.layout = config.layout :=
  congrArg KernelConfig.layout h

namespace Spares

theorem layout (h : Spares others k k') : k'.layout = k.layout :=
  layout_of_config h.config

theorem roots (h : Spares others k k') :
    k'.processes.rootsOf others = k.processes.rootsOf others :=
  ProcessTable.rootsOf_congr fun q hq => ProcessTable.space?_congr (h.slots q hq)

theorem refl : Spares others k k := ⟨rfl, rfl, fun _ _ => rfl, .refl⟩

theorem trans (h : Spares others k k') (h' : Spares others k' k'') : Spares others k k'' where
  config := h'.config.trans h.config
  space := h'.space.trans h.space
  slots q hq := (h'.slots q hq).trans (h.slots q hq)
  keeps := by
    have := h'.keeps
    rw [h.layout, h.space, h.roots] at this
    exact h.keeps.trans this

theorem of_eq (hconfig : k'.config = k.config) (hspace : k'.space = k.space)
    (hmemory : k'.memory = k.memory) (hprocesses : k'.processes = k.processes) :
    Spares others k k' := by
  refine ⟨hconfig, hspace, fun q _ => by rw [hprocesses], ?_⟩
  rw [hmemory]
  exact .refl

theorem loaded (h : Spares others k k') (hl : k.Loaded others) : k'.Loaded others := by
  intro q hq
  rw [ProcessTable.space?_congr (h.slots q hq)]
  exact hl q hq

theorem of_update {change : Process → Process} (hpid : pid ∉ others) :
    Spares others k { k with processes := k.processes.update pid change } := by
  refine ⟨rfl, rfl, fun q hq => ProcessTable.get?_update_of_ne change ?_, .refl⟩
  rintro rfl
  exact hpid hq

/-- memory changes where the others map nothing -/
theorem of_machine {m : Machine}
    (h : Keeps k.layout k.space.root (k.processes.rootsOf others) k.memory m.toMemory) :
    Spares others k { k with machine := m } :=
  ⟨rfl, rfl, fun _ _ => rfl, h⟩

end Spares

/-- what an operation leaves that `actors` take part in: a valid kernel that has all other processes
as before -/
structure Confined (actors : Finset Pid) (k k' : Kernel) : Prop where
  valid : k'.Valid ∅
  spares : ∀ others, Disjoint actors others → k.Loaded others → Spares others k k'

namespace Confined

variable {actors more : Finset Pid}

theorem refl (h : k.Valid ∅) : Confined actors k k := ⟨h, fun _ _ _ => .refl⟩

theorem trans (h : Confined actors k k') (h' : Confined actors k' k'') : Confined actors k k'' :=
  ⟨h'.valid, fun others hd hl =>
    (h.spares others hd hl).trans (h'.spares others hd ((h.spares others hd hl).loaded hl))⟩

theorem mono (h : Confined actors k k') (hsub : actors ⊆ more) : Confined more k k' :=
  ⟨h.valid, fun others hd hl => h.spares others (Finset.disjoint_of_subset_left hsub hd) hl⟩

/-- whatever was done, the kernel itself is as before -/
theorem kernel (h : Confined actors k k') : Spares ∅ k k' :=
  h.spares ∅ (Finset.disjoint_empty_right actors) fun q hq => absurd hq (Finset.notMem_empty q)

theorem config (h : Confined actors k k') : k'.config = k.config := h.kernel.config

theorem layout (h : Confined actors k k') : k'.layout = k.layout := h.kernel.layout

end Confined

namespace Valid

theorem mono (h : k.Valid ∅) : k.Valid unfinished :=
  { h with complete := fun pid _ => h.complete pid (Finset.notMem_empty pid) }

theorem of_eq (h : k.Valid unfinished) (hconfig : k'.config = k.config)
    (hspace : k'.space = k.space) (hmemory : k'.memory = k.memory)
    (hprocesses : k'.processes = k.processes) (hcurrent : k'.current < slotCount)
    (hshown : k'.viewer.shown < slotCount) : k'.Valid unfinished := by
  have hlayout : k'.layout = k.layout := congrArg KernelConfig.layout hconfig
  constructor
  · rw [hlayout, hspace, hmemory, hprocesses]
    exact h.sound
  · rw [hprocesses]
    exact h.distinct
  · rw [hprocesses]
    exact h.numbered
  · rw [hprocesses]
    exact h.ready
  · rw [hlayout, hmemory, hprocesses]
    exact h.complete
  · rw [hprocesses]
    exact h.reserved
  · exact hcurrent
  · exact hshown

theorem update (h : k.Valid unfinished) {change : Process → Process}
    (hspace : ∀ p, (change p).space = p.space) (hpid : ∀ p, (change p).pid = p.pid)
    (hready : ∀ p, k.processes.get? pid = some p → (change p).isRunnable = true →
      p.space.isSome = true) :
    Valid { k with processes := k.processes.update pid change } unfinished := by
  have hspaces : ∀ q, (k.processes.update pid change).space? q = k.processes.space? q :=
    fun q => ProcessTable.space?_update hspace
  have hslot : ∀ q p', (k.processes.update pid change).get? q = some p' →
      k.processes.get? q = some p' ∨
        q = pid ∧ ∃ p, k.processes.get? q = some p ∧ p' = change p := by
    intro q p' hp'
    rw [ProcessTable.get?_update] at hp'
    split at hp'
    · next hq =>
      obtain ⟨p, hp, rfl⟩ := Option.map_eq_some_iff.1 hp'
      exact .inr ⟨hq.symm, p, hp, rfl⟩
    · exact .inl hp'
  constructor
  · have hroots : (k.processes.update pid change).roots = k.processes.roots :=
      ProcessTable.roots_congr hspaces
    show Sound k.layout k.space.root (k.processes.update pid change).roots [] k.memory
    rw [hroots]
    exact h.sound
  · intro q q' s hs hs'
    exact h.distinct q q' s ((hspaces q).symm.trans hs) ((hspaces q').symm.trans hs')
  · intro q p' hp'
    rcases hslot q p' hp' with hold | ⟨-, p, hp, rfl⟩
    · exact h.numbered q p' hold
    · rw [hpid]
      exact h.numbered q p hp
  · intro q p' hp' hrun
    rcases hslot q p' hp' with hold | ⟨rfl, p, hp, rfl⟩
    · exact h.ready q p' hold hrun
    · rw [hspace]
      exact hready p hp hrun
  · intro q hq s hs
    exact h.complete q hq s ((hspaces q).symm.trans hs)
  · exact (hspaces 0).trans h.reserved
  · exact h.current
  · exact h.shown

/-- memory changes, and every finished process has what it needs -/
theorem machine (h : k.Valid unfinished) {m : Machine}
    (hsound : Sound k.layout k.space.root k.processes.roots [] m.toMemory)
    (hpages : ∀ pid, pid ∉ unfinished → ∀ s, k.processes.space? pid = some s →
      Complete k.layout s.root m.toMemory) :
    Valid { k with machine := m } unfinished :=
  { sound := hsound
    distinct := h.distinct
    numbered := h.numbered
    ready := h.ready
    complete := hpages
    reserved := h.reserved
    current := h.current
    shown := h.shown }

/-- a process has what it needs when all stays that it maps -/
theorem complete_of_keeps (h : k.Valid unfinished) {mem : Memory} {roots : Finset Frame}
    (hkeeps : Keeps k.layout k.space.root roots k.memory mem) {s : AddressSpace}
    (hpid : pid ∉ unfinished) (hs : k.processes.space? pid = some s) (hroot : s.root ∈ roots) :
    Complete k.layout s.root mem :=
  (h.complete pid hpid s hs).keeps hkeeps hroot

end Valid

/-! ## steps -/

section
variable {ε α : Type}

theorem ends_onMachine {x : EStateM ε Machine α} {Q : α → Kernel → Prop} {E : ε → Kernel → Prop} :
    Ends (onMachine x) k Q E ↔
      Ends x k.machine (fun a m => Q a { k with machine := m })
        fun e m => E e { k with machine := m } :=
  ends_within fun _ _ _ => rfl

theorem ends_inspect {question : Memory → Except Panic α} {Q : α → Kernel → Prop}
    {E : Panic → Kernel → Prop} {a : α} (h : question k.memory = .ok a) :
    Ends (inspect question) k Q E ↔ Q a k := by
  unfold Ends inspect
  rw [show question k.machine.toMemory = .ok a from h]

theorem ends_inspect_error {question : Memory → Except Panic α} {Q : α → Kernel → Prop}
    {E : Panic → Kernel → Prop} {p : Panic} (h : question k.memory = .error p) :
    Ends (inspect question) k Q E ↔ E p k := by
  unfold Ends inspect
  rw [show question k.machine.toMemory = .error p from h]

theorem ends_report {severity : Severity} {target message : String} {Q : Unit → Kernel → Prop}
    {E : Panic → Kernel → Prop}
    (h : ∀ m : Machine, m.toMemory = k.memory → Q () { k with machine := m }) :
    Ends (report severity target message) k Q E :=
  ends_onMachine.2 (Machine.ends_record fun m hm => h m hm)

theorem ends_process {Q : Process → Kernel → Prop} {E : Panic → Kernel → Prop} {p : Process}
    (h : k.processes.get? pid = some p) : Ends (process pid) k Q E ↔ Q p k :=
  ends_ofExcept (ProcessTable.get_of_get? h)

theorem ends_setProcess {change : Process → Process} {Q : Unit → Kernel → Prop}
    {E : Panic → Kernel → Prop} :
    Ends (setProcess pid change) k Q E ↔
      Q () { k with processes := k.processes.update pid change } := Iff.rfl

theorem ends_changeProcess {change : Process → Process} {Q : Unit → Kernel → Prop}
    {E : Panic → Kernel → Prop} (h : pid < slotCount) :
    Ends (changeProcess pid change) k Q E ↔
      Q () { k with processes := k.processes.update pid change } := by
  obtain ⟨p, hp⟩ := ProcessTable.exists_get? (t := k.processes) h
  unfold changeProcess
  rw [ends_bind, ends_process hp]
  exact ends_setProcess

theorem ends_tell {call : HostCall} {Q : Unit → Kernel → Prop} {E : Panic → Kernel → Prop} :
    Ends (tell call) k Q E ↔ Q () { k with host := k.host.record call } := Iff.rfl

end

end Kernel

end PagedKernel
