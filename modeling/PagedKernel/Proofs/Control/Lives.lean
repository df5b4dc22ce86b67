import PagedKernel.Proofs.Control.Sessions

/-!
# The lives of processes

A slot is free until a process is put into it.  The process can run until it breaks, and its slot is
free again when it is taken down or leaves.

* `Transition`            what an operation may make of the state of a slot
* `Turn.transition`       it makes nothing else of it
* `Session.unheld`        a slot without an address space is free, unless frames were miscounted
* `Session.retired`       a broken process stays broken, and does not run again
* `Session.lives`         all of this, in every state of a session
-/

namespace PagedKernel

variable {k₀ k k' : Kernel} {op : Operation} {past later : List (Kernel × Operation)} {pid q : Nat}
  {p p' : Process} {host : Host} {config : KernelConfig}

/-! ## one operation -/

/-- what an operation may make of the state of slot `q` -/
inductive Transition (k : Kernel) (op : Operation) (q : Pid) : ProcessState → ProcessState → Prop
  | stays (state) : Transition k op q state state
  | starts (hq : q ≠ 0) (hop : op.Loads k q) : Transition k op q .free .runnable
  | breaks (hq : q = k.current) (hop : op.Faults) : Transition k op q .runnable .broken
  | ends (state) (hstate : state ≠ .free) (hop : op.Frees k q) : Transition k op q state .free

theorem Operation.Faults.runnable (h : op.Faults) (hdue : op.Delivered k)
    (hp : k.processes.get? k.current = some p) : p.state = .runnable :=
  (ProcessTable.runs_iff_state hp).1 (h.runs hdue)

theorem Turn.transition (h : Turn k op q p p') (hdue : op.Delivered k)
    (hp : k.processes.get? q = some p) : Transition k op q p.state p'.state := by
  cases h with
  | untouched => exact .stays _
  | vacant r => exact .stays _
  | loaded s r hq hvacant hop =>
    rw [(Process.isVacant_iff.1 hvacant).1]
    exact .starts hq hop
  | replied r => exact .stays _
  | broke r hq hop =>
    subst hq
    rw [hop.runnable hdue hp]
    exact .breaks rfl hop
  | left hq hop =>
    by_cases hfree : p.state = .free
    · rw [hfree]
      exact .stays _
    · exact .ends _ hfree hop
  | stranded r => exact .stays _

/-- a slot without an address space becomes one that is free, or a frame is miscounted -/
theorem Turn.held {A : Prop} (h : Turn k op q p p') (hdue : op.Delivered k)
    (hp : k.processes.get? q = some p) (hbefore : p.space = none → p.state = .free ∨ A)
    (hspace : p'.space = none) :
    p'.state = .free ∨ A ∨ op.Miscounts k q ∧ p'.state = p.state := by
  have hsame : p.space = none → p.state = .free ∨ A ∨ op.Miscounts k q ∧ p.state = p.state :=
    fun h => (hbefore h).imp_right .inl
  cases h with
  | untouched => exact hsame hspace
  | vacant r => exact hsame hspace
  | loaded s r => cases hspace
  | replied r => exact hsame hspace
  | broke r hq hop =>
    subst hq
    have hrun := hop.runnable hdue hp
    rcases hbefore hspace with hfree | ha
    · cases hrun.symm.trans hfree
    · exact .inr (.inl ha)
  | left => exact .inl rfl
  | stranded r hop => exact .inr (.inr ⟨hop, rfl⟩)

theorem Turn.not_runs (h : Turn k op q p p') (hnot : p.state ≠ .runnable) :
    p'.state ≠ .runnable ∨ p.isVacant = true ∧ op.Loads k q := by
  cases h with
  | untouched => exact .inl hnot
  | vacant r => exact .inl hnot
  | loaded s r hq hvacant hop => exact .inr ⟨hvacant, hop⟩
  | replied r => exact .inl hnot
  | broke r => exact .inl nofun
  | left => exact .inl nofun
  | stranded r => exact .inl hnot

/-- a broken process stays so and keeps its address space, unless its slot is to be freed -/
theorem Turn.broken (h : Turn k op q p p') (hbroken : p.state = .broken) :
    p'.state = .broken ∧ p'.space = p.space ∨ op.Frees k q := by
  cases h with
  | untouched => exact .inl ⟨hbroken, rfl⟩
  | vacant r => exact .inl ⟨hbroken, rfl⟩
  | loaded s r hq hvacant =>
    cases hbroken.symm.trans (Process.isVacant_iff.1 hvacant).1
  | replied r => exact .inl ⟨hbroken, rfl⟩
  | broke r => exact .inl ⟨rfl, rfl⟩
  | left hq hop => exact .inr hop
  | stranded r hop => exact .inr hop.1

/-! ## address spaces -/

/-- throughout a session a slot without an address space is free, unless a frame was found to be
counted wrongly when that address space was to be given back -/
theorem Session.unheld (h₀ : Kernel.start host config = .started k₀) (h : Session k₀ past k) :
    ∀ q p, k.processes.get? q = some p → p.space = none →
      p.state = .free ∨ ∃ x ∈ past, x.2.Miscounts x.1 q := by
  induction h with
  | start =>
    intro q p hp _
    obtain ⟨machine, space, rfl⟩ := Kernel.eq_of_started h₀
    exact .inl (ProcessTable.get?_empty hp).2.1
  | @operate past k h op hdue hgo ih =>
    intro q p' hp' hspace
    obtain ⟨hevolves, -⟩ := op.effect (h.orderly (.of_started h₀)) hdue hgo
    obtain ⟨p, hp, hturn⟩ := hevolves.exists_turn hp'
    rcases hturn.held hdue hp (ih q p hp) hspace with hfree | ⟨x, hx, hmis⟩ | ⟨hmis, -⟩
    · exact .inl hfree
    · exact .inr ⟨x, List.mem_cons_of_mem _ hx, hmis⟩
    · exact .inr ⟨(k, op), List.mem_cons_self, hmis⟩
  | host _ host hcalls ih => exact ih

/-- frames of valid kernels are counted as they should be, so that no process is left without its
address space -/
theorem Operation.Miscounts.absurd (h : op.Miscounts k q) (hk : k.Valid ∅)
    (hk' : (op.perform k).Valid ∅) (hdue : op.Delivered k) (hp : k.processes.get? q = some p)
    (hp' : (op.perform k).processes.get? q = some p') (hstate : p'.state = p.state)
    (hspace : p'.space = none) : False := by
  obtain ⟨hfrees, hmis⟩ := h
  cases op with
  | teardown pid =>
    obtain ⟨e, k₁, he⟩ := hmis
    obtain ⟨-, hkind, -⟩ := (Kernel.ends_teardown hk).error he
    cases hkind
  | syscall r =>
    obtain ⟨p₀, hp₀, hrun⟩ := hdue
    obtain ⟨rfl, -⟩ := hfrees
    obtain rfl := Option.some.inj (hp.symm.trans hp₀)
    have hready := hk'.ready _ p' hp' (Process.isRunnable_iff.2
      (hstate.trans (Process.isRunnable_iff.1 hrun)))
    rw [hspace] at hready
    cases hready
  | _ => exact hmis

theorem Session.free_iff (h₀ : Kernel.start host config = .started k₀) (h : Session k₀ past k)
    (hl : config.layout.Ordered) (hp : k.processes.get? q = some p) :
    p.state = .free ↔ p.space = none := by
  refine ⟨(h.orderly (.of_started h₀)).free q p hp, ?_⟩
  induction h generalizing q p with
  | start =>
    obtain ⟨machine, space, rfl⟩ := Kernel.eq_of_started h₀
    exact fun _ => (ProcessTable.get?_empty hp).2.1
  | operate h op hdue hgo ih =>
    intro hspace
    obtain ⟨hevolves, -⟩ := op.effect (h.orderly (.of_started h₀)) hdue hgo
    obtain ⟨p₀, hp₀, hturn⟩ := hevolves.exists_turn hp
    rcases hturn.held (A := False) hdue hp₀ (fun hnone => .inl (ih hp₀ hnone)) hspace with
      hfree | hfalse | ⟨hmis, hstate⟩
    · exact hfree
    · exact hfalse.elim
    · exact (hmis.absurd (h.valid h₀ hl).1 ((h.operate op hdue hgo).valid h₀ hl).1 hdue hp₀ hp
        hstate hspace).elim
  | host _ host hcalls ih => exact ih hp

/-! ## broken processes -/

/-- slot `q` is freed and later taken anew -/
def Retaken (later : List (Kernel × Operation)) (q : Pid) : Prop :=
  ∃ x y : Kernel × Operation, [x, y].Sublist later ∧ y.2.Frees y.1 q ∧ x.2.Loads x.1 q

/-- control is not handed over to a process that cannot run -/
theorem Ended.silent {c c' : Control} {o : Outcome} (h : Ended c o c') (ho : o ≠ .panicked)
    (hnot : ¬ c.processes.Runs q) :
    c'.activations.filter (fun a => decide (a.1 = q))
      = c.activations.filter fun a => decide (a.1 = q) := by
  by_cases hrun : ∃ pid, o = .dispatched (.run pid)
  · obtain ⟨pid, rfl⟩ := hrun
    obtain ⟨p, s, hp, hrunnable, -, rfl⟩ := h
    refine List.filter_cons_of_neg ?_
    rw [decide_eq_true_eq]
    rintro rfl
    exact hnot ⟨p, hp, hrunnable⟩
  · rw [h.activations ho fun pid heq => hrun ⟨pid, heq⟩]

/-- what is left of a broken process `q` with the address space `space`: it is still broken and has
its address space, or its slot was to be freed -/
def Remains (later : List (Kernel × Operation)) (k : Kernel) (q : Pid)
    (space : Option AddressSpace) : Prop :=
  (∃ p, k.processes.get? q = some p ∧ p.state = .broken ∧ p.space = space) ∨
    ∃ y ∈ later, y.2.Frees y.1 q

theorem Retaken.cons {x : Kernel × Operation} (h : Retaken later q) : Retaken (x :: later) q := by
  obtain ⟨x, y, hsub, hfrees, hloads⟩ := h
  exact ⟨x, y, hsub.cons _, hfrees, hloads⟩

/-- of a broken process something is left, and it does not run, until its slot is taken anew -/
theorem Session.remains (ho : Orderly k.control) (hp : k.processes.get? q = some p)
    (hbroken : p.state = .broken) (h : Session k later k') (hnot : ¬ Retaken later q) :
    ¬ k'.processes.Runs q ∧ Remains later k' q p.space ∧
      k'.control.activations.filter (fun a => decide (a.1 = q))
        = k.control.activations.filter fun a => decide (a.1 = q) := by
  induction h with
  | start =>
    refine ⟨?_, .inl ⟨p, hp, hbroken, rfl⟩, rfl⟩
    rw [ProcessTable.runs_iff_state hp, hbroken]
    nofun
  | @operate later k' h op hdue hgo ih =>
    obtain ⟨hstill, hremains, hsilent⟩ := ih fun h => hnot h.cons
    obtain ⟨hevolves, hended, -⟩ := op.effect (h.orderly ho) hdue hgo
    -- it does not run, as else its slot would have been taken anew
    have hstill' : ¬ (op.perform k').processes.Runs q := by
      rintro ⟨p₂, hp₂, hrun⟩
      obtain ⟨p₁, hp₁, hturn⟩ := hevolves.exists_turn hp₂
      have hidle : p₁.state ≠ .runnable := mt (ProcessTable.runs_iff_state hp₁).2 hstill
      rcases hturn.not_runs hidle with hidle' | ⟨hvacant, hloads⟩
      · exact hidle' (Process.isRunnable_iff.1 hrun)
      · rcases hremains with ⟨p₃, hp₃, hbroken₃, -⟩ | ⟨y, hy, hfrees⟩
        · obtain rfl := Option.some.inj (hp₁.symm.trans hp₃)
          cases hbroken₃.symm.trans (Process.isVacant_iff.1 hvacant).1
        · exact hnot ⟨(k', op), y, List.cons_sublist_cons.2 (List.singleton_sublist.2 hy), hfrees,
            hloads⟩
    refine ⟨hstill', ?_, (hended.silent hgo hstill').trans hsilent⟩
    rcases hremains with ⟨p₁, hp₁, hbroken₁, hspace₁⟩ | ⟨y, hy, hfrees⟩
    · obtain ⟨p₂, hp₂, hturn⟩ := hevolves q p₁ hp₁
      rcases hturn.broken hbroken₁ with ⟨hbroken₂, hspace₂⟩ | hfrees
      · exact .inl ⟨p₂, hp₂, hbroken₂, hspace₂.trans hspace₁⟩
      · exact .inr ⟨(k', op), List.mem_cons_self, hfrees⟩
    · exact .inr ⟨y, List.mem_cons_of_mem _ hy, hfrees⟩
  | host _ host hcalls ih =>
    obtain ⟨hstill, hremains, hsilent⟩ := ih hnot
    exact ⟨hstill, hremains, by rw [control_host hcalls]; exact hsilent⟩

/-! ## all states -/

/-- the lives of the processes of `k`, after the operations `past` -/
structure Lives (past : List (Kernel × Operation)) (k : Kernel) : Prop where
  /-- the kernel's slot holds no process, all are numbered, one is the current one -/
  orderly : Orderly k.control
  unheld : ∀ q p, k.processes.get? q = some p → p.space = none →
    p.state = .free ∨ ∃ x ∈ past, x.2.Miscounts x.1 q
  steps : ∀ op : Operation, op.Delivered k → op.Completes k →
    ∀ q p, k.processes.get? q = some p →
      ∃ p', (op.perform k).processes.get? q = some p' ∧ Transition k op q p.state p'.state
  /-- a process that is broken stays so, with its address space, until its slot is freed -/
  broken : ∀ q p, k.processes.get? q = some p → p.state = .broken →
    ∀ later k', Session k later k' → (∀ y ∈ later, ¬ y.2.Frees y.1 q) →
      ∃ p', k'.processes.get? q = some p' ∧ p'.state = .broken ∧ p'.space = p.space
  /-- control is not handed over to it until its slot was freed and then taken anew -/
  silent : ∀ q p, k.processes.get? q = some p → p.state = .broken →
    ∀ later k', Session k later k' → ¬ Retaken later q →
      k'.control.activations.filter (fun a => decide (a.1 = q))
        = k.control.activations.filter fun a => decide (a.1 = q)

/-- the lives of processes in all states of a session.  On an ordered layout a slot is free exactly
when it has no address space. -/
theorem Session.lives (h₀ : Kernel.start host config = .started k₀) (h : Session k₀ past k) :
    Lives past k ∧ (config.layout.Ordered → ∀ q p, k.processes.get? q = some p →
      (p.state = .free ↔ p.space = none)) := by
  have ho := h.orderly (.of_started h₀)
  refine ⟨⟨ho, h.unheld h₀, fun op hdue hgo q p hp => ?_, fun q p hp hbroken later k' h' hnot => ?_,
    fun q p hp hbroken later k' h' hnot => (h'.remains ho hp hbroken hnot).2.2⟩,
    fun hl q p hp => h.free_iff h₀ hl hp⟩
  · obtain ⟨hevolves, -⟩ := op.effect ho hdue hgo
    obtain ⟨p', hp', hturn⟩ := hevolves q p hp
    exact ⟨p', hp', hturn.transition hdue hp⟩
  · have hnever : ¬ Retaken later q := by
      rintro ⟨x, y, hsub, hfrees, -⟩
      exact hnot y (hsub.subset (List.mem_cons_of_mem _ List.mem_cons_self)) hfrees
    rcases (h'.remains ho hp hbroken hnever).2.1 with hkept | ⟨y, hy, hfrees⟩
    · exact hkept
    · exact absurd hfrees (hnot y hy)

theorem lives_loaded : ∃ k₀ k : Kernel, Kernel.start {} {} = .started k₀ ∧
    Session k₀ [(k₀, .setup 1 .bare)] k ∧ k.processes.Runs 1 ∧
    Lives [(k₀, .setup 1 .bare)] k ∧ ∀ q p, k.processes.get? q = some p →
      (p.state = .free ↔ p.space = none) := by
  obtain ⟨k₀, k, h₀, -, h, -, -, hruns, -⟩ :=
    Session.exists_loaded {} {} Layout.ordered_default (by decide +kernel) (by decide +kernel)
  obtain ⟨hlives, hiff⟩ := Session.lives h₀ h
  exact ⟨k₀, k, h₀, h, hruns, hlives, hiff Layout.ordered_default⟩

/-- a small machine on which the memory of processes starts in the middle of a page -/
def Layout.crooked : Layout where
  physicalSize := 0xB000
  virtualSize := 0x3000
  processStart := 0x1800
  kernelImage := ⟨0, 0⟩
  kernelStackTop := 0x2000
  ioHole := ⟨0, 0⟩
  console := 0

/-- a program is loaded there and taken down again: what comes of it, and whether its slot could
still run and has an address space -/
def crookedTeardown : Option (Outcome × Outcome × ProcessState × Option AddressSpace) :=
  match Kernel.start {} { layout := .crooked } with
  | .started k₀ =>
    let k := (Operation.setup 1 .bare).perform k₀
    (((Operation.teardown 1).perform k).processes.get? 1).map fun p =>
      ((Operation.setup 1 .bare).outcome k₀, (Operation.teardown 1).outcome k, p.state, p.space)
  | .halted .. | .panicked .. => none

theorem crookedTeardown_eq : crookedTeardown = some (.succeeded, .failed, .runnable, none) := by
  decide +kernel

/-- On a layout with a boundary within a page a process cannot be taken down: it loses its address
space, and its slot is not free. -/
theorem lives_otherwise : ∃ k₀ k past p, Kernel.start {} { layout := .crooked } = .started k₀ ∧
    Session k₀ past k ∧ past.map Prod.snd = [.teardown 1, .setup 1 .bare] ∧
    k.processes.get? 1 = some p ∧ p.state ≠ .free ∧ p.space = none := by
  have heq := crookedTeardown_eq
  unfold crookedTeardown at heq
  split at heq
  · next k₀ h₀ =>
    obtain ⟨p, hp, hvalue⟩ := Option.map_eq_some_iff.1 heq
    obtain ⟨hsetup, hteardown, hstate, hspace⟩ :
        (Operation.setup 1 .bare).outcome k₀ = .succeeded ∧
        (Operation.teardown 1).outcome ((Operation.setup 1 .bare).perform k₀) = .failed ∧
        p.state = .runnable ∧ p.space = none := by
      simpa only [Prod.mk.injEq] using hvalue
    have hloaded := Session.start.operate (.setup 1 .bare) trivial (.of_outcome hsetup nofun)
    refine ⟨k₀, _, _, p, h₀,
      hloaded.operate (.teardown 1) trivial (.of_outcome hteardown nofun), rfl, hp, ?_, hspace⟩
    rw [hstate]
    exact nofun
  · cases heq
  · cases heq

end PagedKernel
