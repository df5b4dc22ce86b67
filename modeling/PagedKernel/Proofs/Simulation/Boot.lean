import PagedKernel.Proofs.Kernel.Boot
import PagedKernel.Proofs.Simulation.Steps
import PagedKernel.Simulation.Command

/-!
# Starting a simulation

There is always memory for the demonstration programs, so that every simulation starts, with all its
programs in step.

* `DemoProgram.cost_image`       what a demonstration program takes
* `Simulation.Unused`            no program has run yet
* `Simulation.exists_booted`     a simulation starts
-/

namespace PagedKernel

/-! ## the memory of a simulation -/

/-- a command line asks for the default machine with some amount of memory -/
theorem Options.exists_layout (o : Options) (h : ∀ n, o.memory = some n → n.toNat ≤ 2 ^ 48) :
    ∃ size, o.config.layout = Layout.sized size ∧ (Layout.sized size).Ordered ∧
      (Layout.sized size).SparesNull := by
  unfold config
  cases hmemory : o.memory with
  | none => exact ⟨_, rfl, Layout.ordered_default, Layout.sparesNull_default⟩
  | some n =>
    exact ⟨_, rfl, Layout.ordered_withPhysical (h n hmemory), Layout.sparesNull_withPhysical n⟩

/-! ## the demonstration programs -/

namespace DemoProgram

variable {size : UInt64}

/-- a demonstration program has a page of code and a page of data -/
theorem pageCount_image (p : DemoProgram) : p.image.pageCount = 2 := by
  cases p <;> decide +kernel

/-- a demonstration program takes fifteen frames besides the root of its space -/
theorem cost_image (p : DemoProgram) : p.image.cost (.sized size) = 15 := by
  rw [ProgramImage.cost, pageCount_image, Layout.firstPage_sized]
  rfl

theorem fits_image (p : DemoProgram) : p.image.Fits (.sized size) := by
  have hfits : ∀ s ∈ p.image.segments, AddressSpace.segmentStop? {} s ≠ .ok none ∧
      s.data.size ≤ s.size.toNat := by
    cases p <;> decide +kernel
  exact hfits

theorem get?_registry (p : DemoProgram) : registry.get? p.name = some p.image := by
  cases p <;> rfl

/-- the images that the kernel loads are those of the programs that the simulation plays -/
theorem chosen_registry (program : Option DemoProgram) :
    Kernel.chosen registry (program.map name) = .ok ((Simulation.started program).map image) := by
  cases program with
  | some p =>
    rw [Option.map_some, Kernel.chosen, get?_registry]
    rfl
  | none =>
    have hall : Simulation.started none = all := by decide +kernel
    rw [hall]
    rfl

theorem length_started (program : Option DemoProgram) :
    0 < (Simulation.started program).length ∧ (Simulation.started program).length ≤ 3 := by
  cases program with
  | some p => exact ⟨Nat.one_pos, Nat.le_add_left 1 2⟩
  | none => decide +kernel

end DemoProgram

/-! ## loading the programs -/

namespace Simulation

/-- no program has run yet: the slots with programs can run, and the others are vacant -/
def Unused (k : Kernel) (tasks : Pid → Option Task) : Prop :=
  ∀ q p, k.processes.get? q = some p →
    match tasks q with
    | some t => p.state = .runnable ∧ ∃ program, t = { program }
    | none => p.isVacant = true

variable {k k' : Kernel} {s : Simulation} {tasks : Pid → Option Task} {pid : Nat} {size : UInt64}

/-- a program is loaded into a vacant slot -/
theorem Unused.load (h : Unused k s.task?) (hpid : pid < slotCount) (program : DemoProgram)
    (hruns : k'.processes.Runs pid)
    (hothers : ∀ q ≠ pid, k'.processes.get? q = k.processes.get? q) :
    Unused k' (s.setTask pid (some { program })).task? := by
  intro q p hp
  obtain ⟨p', hslot, hrun⟩ := hruns
  rw [task?_setTask hpid]
  rcases ProcessTable.slot_cases hslot hothers hp with ⟨rfl, rfl⟩ | ⟨hq, hold⟩
  · rw [Function.update_self]
    exact ⟨eq_of_beq hrun, program, rfl⟩
  · rw [Function.update_of_ne hq]
    exact h q p hold

/-- the heap of a program that has not run -/
theorem bounded_heapStart {program : DemoProgram} : ({ program } : Task).Bounded where
  aligned := show heapStart.toNat % 4096 = 0 by decide
  above := UInt64.le_refl _
  below := show heapStart ≤ heapEnd by decide

theorem Unused.inStep (h : Unused k tasks) : InStep k tasks fun _ => none := by
  intro q p hp
  have hslot := h q p hp
  cases htask : tasks q with
  | none =>
    rw [htask] at hslot
    exact ⟨(Process.isVacant_iff.1 hslot).1, rfl⟩
  | some t =>
    rw [htask] at hslot
    obtain ⟨hrunnable, program, rfl⟩ := hslot
    exact .of_none hrunnable rfl bounded_heapStart rfl

/-- give the programs of a list the slots from `pid` on -/
def withTasksFrom (s : Simulation) (pid : Nat) (programs : List DemoProgram) : Simulation :=
  (programs.zipIdx pid).foldl (fun s (program, pid) => s.setTask pid (some { program })) s

theorem withTasksFrom_cons (program : DemoProgram) (later : List DemoProgram) :
    s.withTasksFrom pid (program :: later)
      = (s.setTask pid (some { program })).withTasksFrom (pid + 1) later := rfl

/-- programs are loaded into the slots from `pid` on, if there are frames for all of them -/
theorem ends_setupAll (programs : List DemoProgram) (hvalid : k.Valid ∅)
    (hlayout : k.layout = .sized size) (hunused : Unused k s.task?) (hpid : pid ≠ 0)
    (hvacant : ∀ q, pid ≤ q → s.task? q = none)
    (hslots : pid + programs.length ≤ slotCount) (hfree : 16 * programs.length ≤ k.freeCount) :
    Ends (Kernel.setupAll pid (programs.map DemoProgram.image)) k (fun _ k' => k'.Valid ∅ ∧
      k'.config = k.config ∧ k'.ticks = k.ticks ∧ k'.host = k.host ∧
      Unused k' (s.withTasksFrom pid programs).task?) Never := by
  induction programs generalizing k s pid with
  | nil => exact ends_pure.2 ⟨hvalid, rfl, rfl, rfl, hunused⟩
  | cons program later ih =>
    rw [List.length_cons] at hslots hfree
    have hlt : pid < slotCount := by omega
    obtain ⟨p, hp⟩ := ProcessTable.exists_get? (t := k.processes) hlt
    have hslot := hunused pid p hp
    rw [hvacant pid (Nat.le_refl _)] at hslot
    have hcost : program.image.cost k.layout = 15 := by rw [hlayout, program.cost_image]
    rw [List.map_cons, Kernel.setupAll, ends_bind, ends_onError]
    refine ((Kernel.ends_setup hvalid _).and (Control.ends_setup pid _)).mono (fun _ k₁ hk₁ => ?_)
      fun e k₁ he => ?_
    · obtain ⟨⟨hconfined, hruns, hticks, hhost, hcount⟩, -, -, space, hcontrol⟩ := hk₁
      have hothers : ∀ q ≠ pid, k₁.processes.get? q = k.processes.get? q := by
        intro q hq
        rw [show k₁.processes = _ from congrArg Control.processes hcontrol]
        exact ProcessTable.get?_update_of_ne _ hq
      rw [withTasksFrom_cons]
      refine (ih hconfined.valid (hconfined.layout.trans hlayout)
        (hunused.load hlt program hruns hothers) (Nat.succ_ne_zero _) (fun q hq => ?_) (by omega)
        (by omega)).mono (fun _ k' hk' => ?_) fun _ _ hn => hn
      · rw [task?_setTask hlt, Function.update_of_ne (Nat.ne_of_gt hq)]
        exact hvacant q (by omega)
      · obtain ⟨hvalid', hconfig, hticks', hhost', hunused'⟩ := hk'
        exact ⟨hvalid', hconfig.trans hconfined.config, hticks'.trans hticks, hhost'.trans hhost,
          hunused'⟩
    · cases e with
      | panic e => exact he.1.elim
      | error e =>
        have hless := (he.1.2.2 hpid ⟨p, hp, hslot⟩).1 (hlayout ▸ program.fits_image)
        omega

theorem withTasksFrom_fields (programs : List DemoProgram) :
    (s.withTasksFrom pid programs).kernel = s.kernel ∧
      (s.withTasksFrom pid programs).steps = s.steps ∧
      (s.withTasksFrom pid programs).isIdle = s.isIdle := by
  induction programs generalizing s pid with
  | nil => exact ⟨rfl, rfl, rfl⟩
  | cons program later ih =>
    rw [withTasksFrom_cons]
    exact ih

/-- programs of later slots do not touch those of earlier ones -/
theorem task?_withTasksFrom (programs : List DemoProgram)
    (hslots : pid + programs.length ≤ slotCount) {q : Nat} (hq : q < pid) :
    (s.withTasksFrom pid programs).task? q = s.task? q := by
  induction programs generalizing s pid with
  | nil => rfl
  | cons program later ih =>
    rw [List.length_cons] at hslots
    rw [withTasksFrom_cons, ih (by omega) (Nat.lt_succ_of_lt hq), task?_setTask (by omega),
      Function.update_of_ne (Nat.ne_of_lt hq)]

/-- the programs of a simulation do not depend on its kernel -/
theorem task?_withTasksFrom_kernel (programs : List DemoProgram) :
    (({ s with kernel := k } : Simulation).withTasksFrom pid programs).task?
      = (s.withTasksFrom pid programs).task? := by
  induction programs generalizing s pid with
  | nil => rfl
  | cons program later ih =>
    rw [withTasksFrom_cons, withTasksFrom_cons]
    exact ih (s := s.setTask pid (some { program }))

theorem task?_bare (q : Pid) : ({ kernel := k } : Simulation).task? q = none := by
  show ((Vector.replicate slotCount none)[q]?).join = none
  rw [Vector.getElem?_replicate]
  split <;> rfl

/-- a kernel whose programs have been loaded runs the first, and is in step -/
theorem ends_runFirst {programs : List DemoProgram} (hk : k.Unhindered) (hticks : k.ticks = 0)
    (hpos : 0 < programs.length) (hslots : 1 + programs.length ≤ slotCount)
    (hunused : Unused k (withTasks k programs).task?) :
    Ends (Kernel.run 1) k (fun _ k' => (withTasks k' programs).Consistent fun _ => none) Never := by
  obtain ⟨program, later, rfl⟩ := List.exists_cons_of_length_pos hpos
  have htask : (withTasks k (program :: later)).task? 1 = some { program } := by
    rw [List.length_cons] at hslots
    show (withTasksFrom { kernel := k } 1 (program :: later)).task? 1 = _
    rw [withTasksFrom_cons, task?_withTasksFrom later (by omega) (by omega),
      task?_setTask (by decide), Function.update_self]
  have hruns : k.processes.Runs 1 := by
    obtain ⟨p, hp⟩ : ∃ p, k.processes.get? 1 = some p := ProcessTable.exists_get? (by decide)
    have hslot := hunused 1 p hp
    rw [htask] at hslot
    exact (ProcessTable.runs_iff_state hp).2 hslot.1
  refine (hk.ends_run hruns).mono (fun d k' hhands => ?_) fun _ _ hn => hn
  have hkernel : (withTasks k' (program :: later)).kernel = k' :=
    (withTasksFrom_fields (program :: later)).1
  have hin := hunused.inStep.congr hhands.rests.processes hhands.rests.memory
  have hrun : d ≠ .idle := by
    rintro rfl
    exact hhands.handed.2 1 hruns
  refine ⟨?_, ?_, ?_, fun _ => ?_⟩ <;> rw [hkernel]
  · exact hhands.unhindered hk
  · rw [hhands.ticks, hticks]
    exact Nat.zero_le _
  · rw [show (withTasks k' (program :: later)).task? = _ from
      task?_withTasksFrom_kernel (s := { kernel := k }) (program :: later)]
    exact hin
  · exact hhands.running hrun

/-- a simulation starts on any machine with up to a tebibyte of memory, in step -/
theorem exists_booted (o : Options) (h : ∀ n, o.memory = some n → n.toNat ≤ 2 ^ 48) :
    ∃ s, boot o.config o.program = .started s ∧ s.Consistent (fun _ => none) ∧ s.steps = 0 ∧
      s.isIdle = false := by
  obtain ⟨size, hlayout, hordered, hspares⟩ := o.exists_layout h
  obtain ⟨hpos, hle⟩ := DemoProgram.length_started o.program
  have hframes := hordered.firstPage_le
  rw [Layout.firstPage_sized] at hframes
  have htables : tablesFor (Layout.sized size).frameCount + 48 + 131
      ≤ (Layout.sized size).frameCount := by
    unfold tablesFor
    split <;> omega
  rw [← hlayout] at htables hordered
  have hslots : 1 + (started o.program).length ≤ slotCount := by
    unfold slotCount
    omega
  obtain ⟨k, hstart, hfree⟩ := Kernel.exists_started_sized {} hlayout hordered
  obtain ⟨hvalid, hconfig, -⟩ := Kernel.started_valid hordered hstart
  obtain ⟨machine, space, heq⟩ := Kernel.eq_of_started hstart
  have hunused : Unused k ({ kernel := k } : Simulation).task? := by
    intro q p hp
    rw [task?_bare]
    exact Kernel.isVacant_of_started hstart hp
  have hboot : Ends (Kernel.boot DemoProgram.registry (o.program.map DemoProgram.name)) k
      (fun _ k' => (withTasks k' (started o.program)).Consistent fun _ => none) Never := by
    unfold Kernel.boot
    rw [ends_bind, DemoProgram.chosen_registry, ends_ofResult_ok, List.length_map]
    refine ends_ite.2 ⟨fun hmany => by omega, fun _ => ?_⟩
    refine (ends_setupAll (started o.program) hvalid
      ((congrArg KernelConfig.layout hconfig).trans hlayout) hunused (by decide)
      (fun q _ => task?_bare q) hslots (by omega)).bind fun _ k₁ hk₁ => ?_
    obtain ⟨hvalid₁, hconfig₁, hticks₁, hhost₁, hunused₁⟩ := hk₁
    have hconfigs : k₁.config = o.config := hconfig₁.trans hconfig
    have hk : k₁.Unhindered := by
      refine ⟨hvalid₁, ?_, ?_, ?_⟩
      · rw [Kernel.layout, hconfigs, hlayout]
        exact hspares
      · rw [hconfigs]
        exact nofun
      · rw [hhost₁, heq]
    have htasks : (withTasks k₁ (started o.program)).task? = _ :=
      task?_withTasksFrom_kernel (s := { kernel := k }) (started o.program)
    exact ends_runFirst hk (hticks₁.trans (by rw [heq])) hpos hslots (htasks ▸ hunused₁)
  obtain ⟨d, k', hx, hconsistent⟩ := hboot.exists_ok
  have hfields : (withTasks k' (started o.program)).steps = 0 ∧
      (withTasks k' (started o.program)).isIdle = false :=
    (withTasksFrom_fields (started o.program)).2
  refine ⟨_, ?_, hconsistent, hfields⟩
  unfold boot
  have hstart' : Kernel.start {} o.config = .started k := hstart
  rw [hstart']
  dsimp only
  rw [hx]

end Simulation

end PagedKernel
