import PagedKernel.Proofs.EndsAlike
import PagedKernel.Proofs.Kernel.Lifecycle
import PagedKernel.Proofs.Kernel.Schedule
import PagedKernel.Proofs.Placement.Accesses

/-!
# Kernels on machines of different size

Two kernels are twins if they differ in nothing but the frames that their processes were given.

* `ProcessTable.Resembles`   the slots of two tables differ in the roots of address spaces only
* `Kernel.Twins size k₁ k₂`  the kernels are twins; the second machine has `size` bytes of memory
* `Kernel.Lockstep`          a step that twins take together
* `Kernel.Twins.run`, `Kernel.Twins.schedule`, `Kernel.Twins.resume`   twins hand over control to
  the same process
-/

namespace PagedKernel

/-! ## slots -/

/-- a slot without the root of its address space -/
def Process.anonymous (p : Process) : Process := { p with space := p.space.map fun _ => default }

/-- a change that does not look at the address space -/
def Process.Blind (change : Process → Process) : Prop :=
  ∀ p space, change { p with space } = { change p with space }

namespace Process

variable {p p₁ p₂ : Process} {change : Process → Process}

theorem Blind.space (h : Blind change) (p : Process) : (change p).space = p.space :=
  (congrArg Process.space (h p p.space) :)

theorem Blind.anonymous (h : Blind change) (p : Process) :
    (change p).anonymous = change p.anonymous := by
  show { change p with space := (change p).space.map fun _ => default } = _
  rw [h.space]
  exact (h p _).symm

theorem isSome_of_anonymous (h : p₁.anonymous = p₂.anonymous) :
    p₁.space.isSome = p₂.space.isSome := by
  have hspace := congrArg (fun p => p.space.isSome) h
  dsimp only [Process.anonymous] at hspace
  rwa [Option.isSome_map, Option.isSome_map] at hspace

theorem isVacant_anonymous (p : Process) : p.anonymous.isVacant = p.isVacant := by
  unfold isVacant Process.anonymous
  cases p.space <;> rfl

end Process

namespace ProcessTable

/-- the slots of two tables differ in the roots of address spaces only -/
def Resembles {n : Nat} (t₁ t₂ : ProcessTable n) : Prop :=
  ∀ q : Nat, (t₁.get? q).map Process.anonymous = (t₂.get? q).map Process.anonymous

namespace Resembles

variable {n : Nat} {t₁ t₂ : ProcessTable n} {pid q : Nat} {p₁ p₂ : Process}
  {change : Process → Process}

/-- a slot of one table has its counterpart in the other -/
theorem exists_slot (h : t₁.Resembles t₂) (hp : t₁.get? pid = some p₁) :
    ∃ p₂, t₂.get? pid = some p₂ ∧ p₁.anonymous = p₂.anonymous := by
  have hslot := h pid
  rw [hp, Option.map_some] at hslot
  obtain ⟨p₂, hp₂, heq⟩ := Option.map_eq_some_iff.1 hslot.symm
  exact ⟨p₂, hp₂, heq.symm⟩

theorem isSome_space? (h : t₁.Resembles t₂) (q : Pid) :
    (t₁.space? q).isSome = (t₂.space? q).isSome := by
  have hslot := h q
  unfold space?
  cases hp₁ : t₁.get? q with
  | none =>
    rw [hp₁, Option.map_none, eq_comm, Option.map_eq_none_iff] at hslot
    rw [hslot]
  | some p₁ =>
    obtain ⟨p₂, hp₂, heq⟩ := h.exists_slot hp₁
    rw [hp₂]
    exact Process.isSome_of_anonymous heq

theorem update (h : t₁.Resembles t₂) (hchange : Process.Blind change) :
    (t₁.update pid change).Resembles (t₂.update pid change) := by
  intro q
  rw [get?_update, get?_update]
  split
  · rw [Option.map_map, Option.map_map]
    have hcomp : Process.anonymous ∘ change = change ∘ Process.anonymous :=
      funext fun p => hchange.anonymous p
    rw [hcomp, ← Option.map_map, ← Option.map_map, h q]
  · exact h q

theorem nextRunnable_eq (h : t₁.Resembles t₂) (after : Pid) :
    nextRunnable t₁ after = nextRunnable t₂ after := by
  unfold nextRunnable
  congr 1
  funext q
  have hslot := h q
  cases hp₁ : t₁.get? q with
  | none =>
    rw [hp₁, Option.map_none, eq_comm, Option.map_eq_none_iff] at hslot
    rw [hslot]
  | some p₁ =>
    obtain ⟨p₂, hp₂, heq⟩ := h.exists_slot hp₁
    have hruns : p₁.isRunnable = p₂.isRunnable :=
      (congrArg Process.isRunnable heq :)
    rw [hp₂]
    dsimp only
    rw [hruns]

theorem firstFree?_eq (h : t₁.Resembles t₂) : t₁.firstFree? = t₂.firstFree? :=
  firstFree?_congr Process.isVacant_anonymous (fun _ => rfl) h

end Resembles

end ProcessTable

/-! ## the view -/

theorem scanFindFrom_map {α β : Type} (slots : Nat) (after : Pid) (answer : Pid → Option α)
    (f : α → β) (steps : List Nat) :
    scanFindFrom slots after (fun q => (answer q).map f) steps
      = (scanFindFrom slots after answer steps).map (Option.map f) := by
  induction steps with
  | nil => rfl
  | cons step later ih =>
    unfold scanFindFrom
    cases scanAt slots after step with
    | error p => rfl
    | ok q =>
      rw [ok_bind, ok_bind]
      cases answer q with
      | some a => rfl
      | none => exact ih

/-- the same process is shown, whatever its root -/
theorem ProcessTable.Resembles.select_eq {n : Nat} {t₁ t₂ : ProcessTable n}
    (h : t₁.Resembles t₂) (v : Viewer) (ticks : UInt64) (hz : UInt32) :
    (v.select t₁ ticks hz).map Prod.snd = (v.select t₂ ticks hz).map Prod.snd := by
  -- whom the viewer finds, without the address space
  have hshown : ∀ q, (Viewer.displayable t₁ q).map Prod.fst
      = (Viewer.displayable t₂ q).map Prod.fst := by
    intro q
    have hfst : ∀ t : ProcessTable n, (Viewer.displayable t q).map Prod.fst
        = if (t.space? q).isSome then some q else none := by
      intro t
      unfold Viewer.displayable
      cases t.space? q <;> rfl
    rw [hfst, hfst, h.isSome_space?]
  have hscan : (scanFind n v.shown (Viewer.displayable t₁)).map (Option.map Prod.fst)
      = (scanFind n v.shown (Viewer.displayable t₂)).map (Option.map Prod.fst) := by
    unfold scanFind
    rw [← scanFindFrom_map, ← scanFindFrom_map]
    exact congrArg (fun answer => scanFindFrom n v.shown answer _) (funext hshown)
  have hselect : ∀ t : ProcessTable n, (v.select t ticks hz).map Prod.snd
      = (if v.isDue ticks hz then none else (Viewer.displayable t v.shown).map Prod.fst).elim
          (((scanFind n v.shown (Viewer.displayable t)).map (Option.map Prod.fst)).map
            fun found? => found?.elim { v with switchedAt := ticks } fun q => ⟨q, ticks⟩)
          fun _ => .ok v := by
    intro t
    unfold Viewer.select
    cases v.isDue ticks hz with
    | true =>
      cases scanFind n v.shown (Viewer.displayable t) with
      | error p => rfl
      | ok found? => cases found? <;> rfl
    | false =>
      cases Viewer.displayable t v.shown with
      | some x => rfl
      | none =>
        cases scanFind n v.shown (Viewer.displayable t) with
        | error p => rfl
        | ok found? => cases found? <;> rfl
  rw [hselect, hselect, hscan, hshown]

/-! ## twins -/

/-- the same configuration with another size of physical memory -/
def KernelConfig.resized (c : KernelConfig) (size : UInt64) : KernelConfig :=
  { c with layout := c.layout.resized size }

namespace Kernel

/-- two kernels that differ in nothing but the frames that their processes were given.  The second
machine has `size` bytes of memory. -/
structure Twins (size : UInt64) (k₁ k₂ : Kernel) : Prop where
  valid₁ : k₁.Valid ∅
  valid₂ : k₂.Valid ∅
  config : k₂.config = k₁.config.resized size
  sparesNull : k₁.layout.SparesNull
  slots : k₁.processes.Resembles k₂.processes
  current : k₁.current = k₂.current
  ticks : k₁.ticks = k₂.ticks
  viewer : k₁.viewer = k₂.viewer
  faultAddress : k₁.host.faultAddress = k₂.host.faultAddress
  abortAfter : k₁.host.abortAfter = k₂.host.abortAfter
  views : ∀ q s₁ s₂, k₁.processes.space? q = some s₁ → k₂.processes.space? q = some s₂ →
    ∀ n, k₁.layout.firstPage ≤ n → n < k₁.layout.endPage →
      k₁.memory.viewAt s₁.root n = k₂.memory.viewAt s₂.root n
  console : k₁.memory.data k₁.layout.consoleFrame = k₂.memory.data k₁.layout.consoleFrame

variable {size : UInt64} {k k' k₁ k₂ k₁' k₂' : Kernel} {pid : Nat} {s s₁ s₂ : AddressSpace}
  {p p₁ p₂ : Process}

theorem Valid.furnished (h : k.Valid ∅) (hs : k.processes.space? pid = some s) :
    Furnished k.layout k.space.root k.processes.roots s.root k.memory :=
  ⟨h.sound, ProcessTable.root_mem hs, (h.complete pid (Finset.notMem_empty pid) s hs).low⟩

namespace Twins

theorem layout (h : Twins size k₁ k₂) : k₂.layout = k₁.layout.resized size :=
  layout_of_config h.config

theorem alike (h : Twins size k₁ k₂) (hs₁ : k₁.processes.space? pid = some s₁)
    (hs₂ : k₂.processes.space? pid = some s₂) :
    Alike k₁.layout s₁.root s₂.root k₁.memory k₂.memory :=
  ⟨h.views pid s₁ s₂ hs₁ hs₂, h.console⟩

theorem furnished₂ (h : Twins size k₁ k₂) (hs₂ : k₂.processes.space? pid = some s₂) :
    Furnished (k₁.layout.resized size) k₂.space.root k₂.processes.roots s₂.root k₂.memory :=
  h.layout ▸ h.valid₂.furnished hs₂

/-- a process of one kernel has its twin in the other -/
theorem exists_space (h : Twins size k₁ k₂) (hs₁ : k₁.processes.space? pid = some s₁) :
    ∃ s₂, k₂.processes.space? pid = some s₂ := by
  rw [← Option.isSome_iff_exists, ← h.slots.isSome_space?, hs₁]
  rfl

theorem space?_eq_none (h : Twins size k₁ k₂) (hnone : k₁.processes.space? pid = none) :
    k₂.processes.space? pid = none := by
  rw [← Option.isNone_iff_eq_none, ← Option.not_isSome, ← h.slots.isSome_space?, hnone]
  rfl

/-- memory and slots stay, and what else twins have in common changes together -/
theorem of_rests (h : Twins size k₁ k₂) (h₁ : Rests k₁ k₁') (h₂ : Rests k₂ k₂')
    (current : k₁'.current = k₂'.current) (ticks : k₁'.ticks = k₂'.ticks)
    (viewer : k₁'.viewer = k₂'.viewer)
    (faultAddress : k₁'.host.faultAddress = k₂'.host.faultAddress)
    (abortAfter : k₁'.host.abortAfter = k₂'.host.abortAfter) : Twins size k₁' k₂' := by
  have hlayout : k₁'.layout = k₁.layout := layout_of_config h₁.config
  refine ⟨h₁.valid h.valid₁, h₂.valid h.valid₂, ?_, ?_, ?_, current, ticks, viewer, faultAddress,
    abortAfter, ?_, ?_⟩
  · rw [h₂.config, h₁.config, h.config]
  · rw [hlayout]
    exact h.sparesNull
  · rw [h₁.processes, h₂.processes]
    exact h.slots
  · rw [hlayout, h₁.processes, h₂.processes, h₁.memory, h₂.memory]
    exact h.views
  · rw [hlayout, h₁.memory, h₂.memory]
    exact h.console

theorem of_memory (h : Twins size k₁ k₂) {m₁ m₂ : Machine} (h₁ : m₁.toMemory = k₁.memory)
    (h₂ : m₂.toMemory = k₂.memory) :
    Twins size { k₁ with machine := m₁ } { k₂ with machine := m₂ } :=
  h.of_rests (.of_memory h.valid₁ h₁) (.of_memory h.valid₂ h₂) h.current h.ticks h.viewer
    h.faultAddress h.abortAfter

/-- a slot changes without a look at its address space -/
theorem update (h : Twins size k₁ k₂) {change : Process → Process} (hblind : Process.Blind change)
    (hpid : ∀ p, (change p).pid = p.pid)
    (hready₁ : ∀ p, k₁.processes.get? pid = some p → (change p).isRunnable = true →
      p.space.isSome = true)
    (hready₂ : ∀ p, k₂.processes.get? pid = some p → (change p).isRunnable = true →
      p.space.isSome = true) :
    Twins size { k₁ with processes := k₁.processes.update pid change }
      { k₂ with processes := k₂.processes.update pid change } := by
  have hspaces : ∀ (t : ProcessTable slotCount) q, (t.update pid change).space? q = t.space? q :=
    fun t q => ProcessTable.space?_update hblind.space
  refine ⟨h.valid₁.update hblind.space hpid hready₁, h.valid₂.update hblind.space hpid hready₂,
    h.config, h.sparesNull, h.slots.update hblind, h.current, h.ticks, h.viewer, h.faultAddress,
    h.abortAfter, fun q s₁ s₂ hs₁ hs₂ => ?_, h.console⟩
  exact h.views q s₁ s₂ ((hspaces _ q).symm.trans hs₁) ((hspaces _ q).symm.trans hs₂)

/-- an operation for `pid` on both kernels, after which both have the same in its slot and its
memory, and at the console -/
theorem of_serves (h : Twins size k₁ k₂) (h₁ : Serves pid k₁ k₁') (h₂ : Serves pid k₂ k₂')
    (hslot : (k₁'.processes.get? pid).map Process.anonymous
      = (k₂'.processes.get? pid).map Process.anonymous)
    (hviews : ∀ s₁ s₂, k₁'.processes.space? pid = some s₁ → k₂'.processes.space? pid = some s₂ →
      ∀ n, k₁.layout.firstPage ≤ n → n < k₁.layout.endPage →
        k₁'.memory.viewAt s₁.root n = k₂'.memory.viewAt s₂.root n)
    (hconsole : k₁'.memory.data k₁.layout.consoleFrame
      = k₂'.memory.data k₁.layout.consoleFrame) : Twins size k₁' k₂' := by
  have hlayout : k₁'.layout = k₁.layout := layout_of_config h₁.config
  refine ⟨h₁.valid, h₂.valid, ?_, ?_, fun q => ?_, ?_, ?_, ?_, ?_, ?_, ?_, ?_⟩
  · rw [h₂.config, h₁.config, h.config]
  · rw [hlayout]
    exact h.sparesNull
  · by_cases hq : q = pid
    · rw [hq]
      exact hslot
    · rw [h₁.get? hq, h₂.get? hq]
      exact h.slots q
  · rw [h₁.current, h₂.current, h.current]
  · rw [h₁.ticks, h₂.ticks, h.ticks]
  · rw [h₁.viewer, h₂.viewer, h.viewer]
  · rw [h₁.host, h₂.host, h.faultAddress]
  · rw [h₁.host, h₂.host, h.abortAfter]
  · rw [hlayout]
    intro q s₁ s₂ hs₁ hs₂ n hn hn'
    by_cases hq : q = pid
    · subst hq
      exact hviews s₁ s₂ hs₁ hs₂ n hn hn'
    · -- the others see what they saw
      have hnot : pid ∉ ({q} : Finset Pid) := fun hin => hq (Finset.mem_singleton.1 hin).symm
      rw [ProcessTable.space?_congr (h₁.get? hq)] at hs₁
      rw [ProcessTable.space?_congr (h₂.get? hq)] at hs₂
      have hroot₁ : s₁.root ∈ k₁.processes.rootsOf {q} :=
        ProcessTable.mem_rootsOf.2 ⟨q, Finset.mem_singleton_self q, hs₁⟩
      have hroot₂ : s₂.root ∈ k₂.processes.rootsOf {q} :=
        ProcessTable.mem_rootsOf.2 ⟨q, Finset.mem_singleton_self q, hs₂⟩
      have hkeeps₂ := (h₂.spares {q} hnot).keeps
      rw [h.layout] at hkeeps₂
      rw [(h₁.spares {q} hnot).keeps.viewAt hroot₁ hn hn', hkeeps₂.viewAt hroot₂ hn hn']
      exact h.views q s₁ s₂ hs₁ hs₂ n hn hn'
  · rw [hlayout]
    exact hconsole

end Twins

/-! ## steps that twins take together -/

/-- work on the memory of both kernels -/
theorem endAlike_onMachine {ε α β : Type} {lost : ε → Prop} {x : EStateM ε Machine α}
    {y : EStateM ε Machine β} {Q : α → β → Kernel → Kernel → Prop} {E : ε → Kernel → Kernel → Prop}
    (h : EndAlike lost x y k₁.machine k₂.machine
      (fun a b m₁ m₂ => Q a b { k₁ with machine := m₁ } { k₂ with machine := m₂ })
      fun e m₁ m₂ => E e { k₁ with machine := m₁ } { k₂ with machine := m₂ }) :
    EndAlike lost (onMachine x) (onMachine y) k₁ k₂ Q E :=
  .within (fun _ _ _ => rfl) (fun _ _ _ => rfl) h

/-- both computations end with the same answer or for the same reason, and leave twins; a run that
stops for a reason in `lost` is not looked at -/
def Lockstep {ε α : Type} (lost : ε → Prop) (size : UInt64) (x y : EStateM ε Kernel α)
    (k₁ k₂ : Kernel) : Prop :=
  EndAlike lost x y k₁ k₂ (fun a b k₁' k₂' => a = b ∧ Twins size k₁' k₂') fun _ => Twins size

namespace Lockstep

variable {ε α β : Type} {lost : ε → Prop} {L : ε → Prop}

theorem pure {a : α} (h : Twins size k₁ k₂) : Lockstep lost size (pure a) (pure a) k₁ k₂ :=
  EndAlike.pure ⟨rfl, h⟩

theorem bind {x y : EStateM ε Kernel α} {f g : α → EStateM ε Kernel β}
    (h : Lockstep lost size x y k₁ k₂)
    (hf : ∀ a k₁ k₂, Twins size k₁ k₂ → Lockstep lost size (f a) (g a) k₁ k₂) :
    Lockstep lost size (x >>= f) (y >>= g) k₁ k₂ := by
  refine EndAlike.bind h ?_
  rintro a _ k₁' k₂' ⟨rfl, h'⟩
  exact hf a k₁' k₂' h'

theorem lift {x y : Action Kernel α} (h : Lockstep NoneLost size x y k₁ k₂) :
    Lockstep (Lost L) size (liftM x : Attempt Kernel ε α) (liftM y) k₁ k₂ :=
  EndAlike.lift h

theorem fail {e : ε} (h : Twins size k₁ k₂) :
    Lockstep (Lost L) size (Attempt.fail e : Attempt Kernel ε α) (Attempt.fail e) k₁ k₂ :=
  EndAlike.fail h

/-- what follows a failure is not done -/
theorem exit {e : ε} {f g : β → Attempt Kernel ε α} (h : Twins size k₁ k₂) :
    Lockstep (Lost L) size ((Attempt.fail e : Attempt Kernel ε β) >>= f)
      ((Attempt.fail e : Attempt Kernel ε β) >>= g) k₁ k₂ :=
  .inr (.inr ⟨rfl, h⟩)

theorem liftExcept (x : Except Panic α) (h : Twins size k₁ k₂) :
    Lockstep (Lost L) size (liftM x : Attempt Kernel ε α) (liftM x) k₁ k₂ := by
  cases x with
  | ok a => exact pure h
  | error p => exact .inr (.inr ⟨rfl, h⟩)

/-- a question with the same answer on both machines -/
theorem inspect {q₁ q₂ : Memory → Except Panic α} (h : Twins size k₁ k₂)
    (hsame : q₁ k₁.memory = q₂ k₂.memory) :
    Lockstep NoneLost size (inspect q₁) (inspect q₂) k₁ k₂ := by
  have hsame : q₁ k₁.machine.toMemory = q₂ k₂.machine.toMemory := hsame
  unfold Lockstep EndAlike Kernel.inspect
  rw [hsame]
  cases q₂ k₂.machine.toMemory with
  | ok a => exact ⟨rfl, h⟩
  | error p => exact .inr (.inr ⟨rfl, h⟩)

end Lockstep

namespace Twins

variable {ε : Type} {L : ε → Prop}

/-- both kernels write to their logs, maybe different things -/
theorem report (h : Twins size k₁ k₂) (severity : Severity) (target m₁ m₂ : String) :
    Lockstep NoneLost size (report severity target m₁) (report severity target m₂) k₁ k₂ :=
  endAlike_onMachine ⟨rfl, h.of_memory rfl rfl⟩

/-- the slots of a pid, if there is one -/
theorem process (h : Twins size k₁ k₂) (pid : Pid) :
    EndAlike NoneLost (process pid) (process pid) k₁ k₂
      (fun p₁ p₂ k₁' k₂' => k₁ = k₁' ∧ k₂ = k₂' ∧ k₁.processes.get? pid = some p₁ ∧
        k₂.processes.get? pid = some p₂ ∧ p₁.anonymous = p₂.anonymous)
      fun _ => Twins size := by
  have hslot := h.slots pid
  unfold Kernel.process ProcessTable.get
  refine .bind_ok k₁ k₂ rfl rfl ?_
  cases hp₁ : k₁.processes.get? pid with
  | none =>
    rw [hp₁, Option.map_none, eq_comm, Option.map_eq_none_iff] at hslot
    rw [hslot]
    exact .inr (.inr ⟨rfl, h⟩)
  | some p₁ =>
    obtain ⟨p₂, hp₂, heq⟩ := h.slots.exists_slot hp₁
    rw [hp₂]
    exact .pure ⟨rfl, rfl, rfl, rfl, heq⟩

/-- both kernels change a slot -/
theorem setProcess (h : Twins size k₁ k₂) {change : Process → Process}
    (hblind : Process.Blind change) (hpid : ∀ p, (change p).pid = p.pid)
    (hready₁ : ∀ p, k₁.processes.get? pid = some p → (change p).isRunnable = true →
      p.space.isSome = true)
    (hready₂ : ∀ p, k₂.processes.get? pid = some p → (change p).isRunnable = true →
      p.space.isSome = true) :
    Lockstep NoneLost size (Kernel.setProcess pid change) (Kernel.setProcess pid change) k₁ k₂ :=
  ⟨rfl, h.update hblind hpid hready₁ hready₂⟩

theorem changeProcess (h : Twins size k₁ k₂) {change : Process → Process}
    (hblind : Process.Blind change) (hpid : ∀ p, (change p).pid = p.pid)
    (hready₁ : ∀ p, k₁.processes.get? pid = some p → (change p).isRunnable = true →
      p.space.isSome = true)
    (hready₂ : ∀ p, k₂.processes.get? pid = some p → (change p).isRunnable = true →
      p.space.isSome = true) :
    Lockstep NoneLost size (Kernel.changeProcess pid change) (Kernel.changeProcess pid change)
      k₁ k₂ := by
  refine EndAlike.bind (h.process pid) ?_
  rintro p₁ p₂ _ _ ⟨rfl, rfl, -⟩
  exact h.setProcess hblind hpid hready₁ hready₂

/-- nothing becomes runnable by the change -/
theorem changeProcess_of_runs (h : Twins size k₁ k₂) {change : Process → Process}
    (hblind : Process.Blind change) (hpid : ∀ p, (change p).pid = p.pid)
    (hruns : ∀ p, (change p).isRunnable = true → p.isRunnable = true) :
    Lockstep NoneLost size (Kernel.changeProcess pid change) (Kernel.changeProcess pid change)
      k₁ k₂ :=
  h.changeProcess hblind hpid (fun p hp hrun => h.valid₁.ready pid p hp (hruns p hrun))
    fun p hp hrun => h.valid₂.ready pid p hp (hruns p hrun)

/-- both kernels turn to their hosts -/
theorem tell (h : Twins size k₁ k₂) (call₁ call₂ : HostCall) :
    Lockstep NoneLost size (tell call₁) (tell call₂) k₁ k₂ :=
  ⟨rfl, h.of_rests ⟨rfl, rfl, rfl, rfl, h.valid₁.current, h.valid₁.shown⟩
    ⟨rfl, rfl, rfl, rfl, h.valid₂.current, h.valid₂.shown⟩ h.current h.ticks h.viewer
    h.faultAddress h.abortAfter⟩

theorem showMemory (h : Twins size k₁ k₂) :
    Lockstep NoneLost size showMemory showMemory k₁ k₂ := by
  have hshow : ∀ k : Kernel, k.Valid ∅ → Ends Kernel.showMemory k
      (fun _ k' => ∃ found viewer call,
        k.viewer.select k.processes k.ticks k.config.hz = .ok (found, viewer) ∧
        viewer.shown < slotCount ∧ k' = { k with viewer, host := k.host.record call }) Never :=
    fun k hk => hk.ends_showMemory fun found viewer view hselect hshown =>
      ⟨found, viewer, .showMemory (some view), hselect, hshown, rfl⟩
  refine .of_ends (hshow k₁ h.valid₁) (hshow k₂ h.valid₂) ?_ (fun _ _ _ _ hn _ => hn.elim)
    (fun _ _ _ _ hn _ => hn.elim) fun _ _ _ _ _ hn => hn.elim
  rintro _ _ _ _ ⟨found₁, v₁, call₁, hselect₁, hshown₁, rfl⟩
    ⟨found₂, v₂, call₂, hselect₂, hshown₂, rfl⟩
  have hsame := h.slots.select_eq k₁.viewer k₁.ticks k₁.config.hz
  rw [hselect₁, h.viewer, h.ticks, show k₁.config.hz = k₂.config.hz by rw [h.config]; rfl,
    hselect₂] at hsame
  exact ⟨rfl, h.of_rests ⟨rfl, rfl, rfl, rfl, h.valid₁.current, hshown₁⟩
    ⟨rfl, rfl, rfl, rfl, h.valid₂.current, hshown₂⟩ h.current h.ticks (Except.ok.inj hsame)
    h.faultAddress h.abortAfter⟩

theorem checkAbort (h : Twins size k₁ k₂) {L : Halt → Prop} :
    Lockstep (Lost L) size checkAbort checkAbort k₁ k₂ := by
  have hpoll : Lockstep NoneLost size pollAbort pollAbort k₁ k₂ := by
    have habort := h.abortAfter
    show k₁.host.pollAbort.1 = k₂.host.pollAbort.1 ∧
      Twins size { k₁ with host := k₁.host.pollAbort.2 } { k₂ with host := k₂.host.pollAbort.2 }
    rw [Host.pollAbort_eq, Host.pollAbort_eq, habort]
    exact ⟨rfl, h.of_rests ⟨rfl, rfl, rfl, rfl, h.valid₁.current, h.valid₁.shown⟩
      ⟨rfl, rfl, rfl, rfl, h.valid₂.current, h.valid₂.shown⟩ h.current h.ticks h.viewer
      h.faultAddress rfl⟩
  refine .bind (.lift hpoll) fun stop k₁ k₂ h => ?_
  cases stop with
  | true => exact .bind (.lift (h.report _ _ _ _)) fun _ _ _ h => .fail h
  | false => exact .pure h

/-! ## handing over control -/

theorem run (h : Twins size k₁ k₂) (pid : Pid) {L : Halt → Prop} :
    Lockstep (Lost L) size (run pid) (run pid) k₁ k₂ := by
  unfold Kernel.run
  refine .bind_ok k₁ k₂ rfl rfl ?_
  have hslot := h.slots pid
  cases hp₁ : k₁.processes.get? pid with
  | none =>
    rw [hp₁, Option.map_none, eq_comm, Option.map_eq_none_iff] at hslot
    rw [hslot]
    exact Lockstep.exit h
  | some p₁ =>
    obtain ⟨p₂, hp₂, heq⟩ := h.slots.exists_slot hp₁
    have hsame : p₁.isRunnable = p₂.isRunnable := (congrArg Process.isRunnable heq :)
    rw [hp₂, Option.filter_some, Option.filter_some, ← hsame]
    cases hrun : p₁.isRunnable with
    | false => exact Lockstep.exit h
    | true =>
      obtain ⟨s₁, hs₁⟩ := Option.isSome_iff_exists.1 (h.valid₁.ready pid p₁ hp₁ hrun)
      obtain ⟨s₂, hs₂⟩ := Option.isSome_iff_exists.1
        (h.valid₂.ready pid p₂ hp₂ (hsame.symm.trans hrun))
      have hlt := ProcessTable.lt_of_get? hp₁
      have h' : Twins size { k₁ with current := pid } { k₂ with current := pid } :=
        h.of_rests ⟨rfl, rfl, rfl, rfl, hlt, h.valid₁.shown⟩
          ⟨rfl, rfl, rfl, rfl, hlt, h.valid₂.shown⟩ rfl h.ticks h.viewer h.faultAddress h.abortAfter
      rw [if_pos rfl, if_pos rfl]
      dsimp only
      rw [Option.bind_some, Option.bind_some, hs₁, hs₂]
      refine .bind_ok k₁ k₂ rfl rfl ?_
      refine .bind_ok { k₁ with current := pid } { k₂ with current := pid } rfl rfl ?_
      -- the kernel does not lie at null, so its pages are where they should be
      have hspares₂ : k₂.layout.SparesNull := h.layout ▸ ⟨h.sparesNull.image, h.sparesNull.stack⟩
      refine EndAlike.bind (.of_ends
        (ends_checkKernelPages h'.valid₁ ((ProcessTable.space?_of_get? hp₁).trans hs₁))
        (ends_checkKernelPages h'.valid₂ ((ProcessTable.space?_of_get? hp₂).trans hs₂))
        (Q := fun _ _ k₁' k₂' => k₁' = { k₁ with current := pid } ∧
          k₂' = { k₂ with current := pid })
        (fun _ _ _ _ hk₁ hk₂ => ⟨hk₁.1, hk₂.1⟩) (fun _ _ _ _ he _ => absurd h.sparesNull he.1)
        (fun _ _ _ _ he _ => absurd h.sparesNull he.1) fun _ _ _ _ _ he => absurd hspares₂ he.1) ?_
      rintro _ _ _ _ ⟨rfl, rfl⟩
      refine EndAlike.bind (.lift (h'.process pid)) ?_
      rintro q₁ q₂ _ _ ⟨rfl, rfl, -⟩
      exact Lockstep.bind (.lift (h'.tell _ _)) fun _ _ _ h => .pure h

theorem waitFor (rounds : UInt32) (left : Nat) (h : Twins size k₁ k₂) {L : Halt → Prop} :
    Lockstep (Lost L) size (waitFor rounds left) (waitFor rounds left) k₁ k₂ := by
  induction left generalizing rounds k₁ k₂ with
  | zero => exact .inr (.inr ⟨rfl, h⟩)
  | succ left ih =>
    refine .bind h.checkAbort fun _ k₁ k₂ h => ?_
    refine EndAlike.bind_ok k₁ k₂ rfl rfl ?_
    dsimp only
    rw [h.config]
    -- the end of the round, whether memory has been shown before or not
    suffices hrest : ∀ k₁ k₂, Twins size k₁ k₂ → Lockstep (Lost L) size _ _ k₁ k₂ from
      EndAlike.ite Iff.rfl (fun _ => Lockstep.bind (.lift (h.report _ _ _ _)) fun _ _ _ h =>
        Lockstep.bind (.lift h.showMemory) fun _ k₁ k₂ h => hrest k₁ k₂ h) fun _ => hrest k₁ k₂ h
    intro k₁ k₂ h
    exact EndAlike.ite Iff.rfl
      (fun _ => Lockstep.bind (.lift (h.report _ _ _ _)) fun _ _ _ h => Lockstep.pure h)
      fun _ => ih (rounds + 1) h

theorem schedule (h : Twins size k₁ k₂) {L : Halt → Prop} :
    Lockstep (Lost L) size schedule schedule k₁ k₂ := by
  unfold Kernel.schedule
  refine .bind_ok k₁ k₂ rfl rfl ?_
  rw [← h.current, ← h.slots.nextRunnable_eq, ← h.abortAfter, h.config]
  refine Lockstep.bind (.liftExcept _ h) fun next? k₁ k₂ h => ?_
  cases next? with
  | some pid => exact h.run pid
  | none => exact h.waitFor _ _

theorem resume (h : Twins size k₁ k₂) {L : Halt → Prop} :
    Lockstep (Lost L) size resume resume k₁ k₂ := by
  unfold Kernel.resume
  refine .bind_ok k₁ k₂ rfl rfl ?_
  dsimp only
  rw [← h.current]
  refine EndAlike.bind (.lift (h.process _)) ?_
  rintro p₁ p₂ _ _ ⟨rfl, rfl, -, -, heq⟩
  have hsame : p₁.isRunnable = p₂.isRunnable := (congrArg Process.isRunnable heq :)
  exact .ite (by rw [hsame]) (fun _ => h.run _) fun _ => h.schedule

end Twins

end Kernel

end PagedKernel
