import PagedKernel.Proofs.Kernel.Boot
import PagedKernel.Proofs.Kernel.Entry

/-!
# Reachable kernels

A kernel is reachable if operations lead to it from one that has just started, in any order and with
any arguments, each succeeding or failing, while the host does what it likes between them.

* `Operation`               what can be asked of a kernel
* `Operation.perform`       the kernel that an operation leaves
* `Operation.actors`        the processes that an operation is performed for
* `Operation.confined`      an operation leaves a valid kernel, and the other processes alone
* `Kernel.Reachable`        the kernels that operations lead to
* `Kernel.StartedOn`        a kernel that has just started
* `Kernel.StartedOn.exists_loaded`   in it a program can be loaded if there are frames for it
* `Kernel.Reachable.valid`  reachable kernels are valid
-/

namespace PagedKernel

/-- the state that a computation leaves, whatever comes of it -/
def leave {ε σ α : Type} (x : EStateM ε σ α) (s : σ) : σ :=
  match x s with
  | .ok _ s' => s'
  | .error _ s' => s'

theorem leave_of_ok {ε σ α : Type} {x : EStateM ε σ α} {s s' : σ} {a : α} (h : x s = .ok a s') :
    leave x s = s' := by
  rw [leave, h]

theorem leave_of_error {ε σ α : Type} {x : EStateM ε σ α} {s s' : σ} {e : ε}
    (h : x s = .error e s') : leave x s = s' := by
  rw [leave, h]

theorem Ends.leave {ε σ α : Type} {x : EStateM ε σ α} {s : σ} {P : σ → Prop}
    (h : Ends x s (fun _ s' => P s') fun _ s' => P s') : P (leave x s) := by
  unfold Ends at h
  unfold PagedKernel.leave
  cases hx : x s with
  | ok a s' =>
    rw [hx] at h
    exact h
  | error e s' =>
    rw [hx] at h
    exact h

theorem Ends.leave_of_fails {ε σ α : Type} {x : Attempt σ ε α} {s : σ} {P : σ → Prop}
    (h : Ends x s (fun _ s' => P s') (Fails fun _ s' => P s')) : P (PagedKernel.leave x s) := by
  refine (h.mono (fun _ _ hs => hs) fun e s' he => ?_).leave
  cases e with
  | panic e => exact he.elim
  | error e => exact he

/-- what can be asked of a kernel -/
inductive Operation where
  | setup (pid : Pid) (image : ProgramImage)
  | boot (registry : ProgramRegistry) (command : Option String)
  | run (pid : Pid)
  | schedule
  | syscall (registers : Registers)
  | exception (registers : Registers)
  | fork (parent : Pid)
  | pageAlloc (pid : Pid) (va : VirtualAddress)
  | teardown (pid : Pid)
  | writeUser (pid : Pid) (va : VirtualAddress) (bytes : ByteArray)
  | readUser (pid : Pid) (va : VirtualAddress) (length : Nat)

/-- a program without segments -/
def ProgramImage.bare : ProgramImage where
  name := ""
  entry := ⟨0⟩
  segments := []

/-- a program of two segments: the page of the second is also one of the first, which is not
written -/
def ProgramImage.overlapping : ProgramImage where
  name := ""
  entry := ⟨0x100000⟩
  segments := [⟨⟨0x100000⟩, 0x1800, ⟨#[1, 2, 3, 4]⟩, false⟩, .globals ⟨0x101000⟩ ⟨#[5, 6]⟩]

theorem ProgramImage.wellFormed_overlapping : overlapping.WellFormed := by
  intro s hs
  rcases List.mem_cons.1 hs with rfl | hs
  · decide
  · obtain rfl := List.mem_singleton.1 hs
    decide

theorem ProgramImage.fits_overlapping {size : UInt64} (hl : (Layout.withPhysical size).Ordered) :
    overlapping.Fits (.withPhysical size) := by
  intro s hs
  refine ⟨?_, wellFormed_overlapping s hs⟩
  have hrange : s.InRange (.withPhysical size) := by
    rcases List.mem_cons.1 hs with rfl | hs
    · exact show (0x100000 : UInt64) ≤ 0x100000 ∧ 0x101800 + 4096 ≤ 0x300000 by decide
    · obtain rfl := List.mem_singleton.1 hs
      exact show (0x100000 : UInt64) ≤ 0x101000 ∧ 0x101002 + 4096 ≤ 0x300000 by decide
  obtain ⟨stop, hstop⟩ := AddressSpace.segmentStop_of_inRange hl hrange
  rw [hstop]
  nofun

theorem ProgramImage.cost_overlapping (size : UInt64) :
    overlapping.cost (.withPhysical size) = 19 := by
  have hcount : overlapping.pageCount = 3 := by decide
  have hfirst : (Layout.withPhysical size).firstPage = 256 := Layout.firstPage_sized
  rw [cost, hcount, hfirst]
  decide

namespace Operation

/-- the kernel that an operation leaves, whether it succeeds or fails -/
def perform (op : Operation) (k : Kernel) : Kernel :=
  match op with
  | setup pid image => leave (Kernel.setup pid image) k
  | boot registry command => leave (Kernel.boot registry command) k
  | run pid => leave (Kernel.run pid) k
  | schedule => leave Kernel.schedule k
  | syscall registers => leave (Kernel.syscall registers) k
  | exception registers => leave (Kernel.exception registers) k
  | fork parent => leave (Kernel.fork parent) k
  | pageAlloc pid va => leave (Kernel.pageAlloc pid va) k
  | teardown pid => leave (Kernel.teardown pid) k
  | writeUser pid va bytes => leave (Kernel.writeUser pid va bytes) k
  | readUser _ _ _ => k

/-- the processes that an operation is performed for: at most one -/
def actors (op : Operation) (k : Kernel) : Finset Pid :=
  match op with
  | syscall _ | exception _ => {k.current}
  | setup pid _ | fork pid | pageAlloc pid _ | teardown pid | writeUser pid _ _
  | readUser pid _ _ => {pid}
  | boot _ _ | run _ | schedule => ∅

variable {k : Kernel}

/-- an operation leaves a valid kernel, and all processes alone but the one it is performed for -/
theorem confined (h : k.Valid ∅) (op : Operation) :
    Kernel.Confined (op.actors k) k (op.perform k) := by
  have hsub : ∀ pid : Pid, ∅ ⊆ ({pid} : Finset Pid) := fun pid => Finset.empty_subset {pid}
  cases op with
  | setup pid image =>
    exact ((Kernel.ends_setup h image).mono (fun _ _ hk' => hk'.1.mono (hsub pid))
      (Fails.mono fun _ _ he => he.1.mono (hsub pid))).leave_of_fails
  | boot registry command => exact (Kernel.ends_boot h registry command).leave
  | run pid =>
    refine ((Kernel.ends_run h).mono (fun _ k' hk' => hk'.2.2.2.2.1.confined h)
      (Fails.mono fun e k' he => ?_)).leave_of_fails
    rcases he with ⟨-, -, rfl⟩ | ⟨-, -, hrests⟩
    · exact .refl h
    · exact hrests.confined h
  | schedule =>
    exact ((Kernel.ends_schedule h).mono (fun _ _ hk' => hk'.rests.confined h)
      fun _ _ he => he.rests.confined h).leave
  | syscall registers =>
    exact ((Kernel.ends_syscall h registers).mono (fun _ _ hk' => hk'.1)
      fun _ _ he => he.confined).leave
  | exception registers =>
    exact ((Kernel.ends_exception h registers).mono (fun _ _ hk' => hk'.1)
      fun _ _ he => he.confined).leave
  | fork parent =>
    exact ((Kernel.ends_fork h).mono (fun _ _ hk' => hk'.1.confined)
      (Fails.mono fun _ _ he => he.2.1.confined)).leave_of_fails
  | pageAlloc pid va =>
    exact ((Kernel.ends_pageAlloc h va).mono (fun _ _ hk' => hk'.serves.confined)
      (Fails.mono fun _ _ he => he.2.1.confined)).leave_of_fails
  | teardown pid =>
    refine ((Kernel.ends_teardown h).mono (fun _ _ hk' => hk'.1.confined)
      (Fails.mono fun e k' he => ?_)).leave_of_fails
    obtain ⟨-, -, rfl⟩ := he
    exact .refl h
  | writeUser pid va bytes =>
    exact ((Kernel.ends_writeUser h va bytes).mono (fun _ _ hk' => hk'.serves.confined)
      (Fails.mono fun _ _ he => he.1.serves.confined)).leave_of_fails
  | readUser pid va length => exact .refl h

end Operation

namespace Kernel

/-- the kernels that operations lead to from `k₀`; between operations the host may change -/
inductive Reachable (k₀ : Kernel) : Kernel → Prop where
  | start : Reachable k₀ k₀
  | operate {k : Kernel} (h : Reachable k₀ k) (op : Operation) : Reachable k₀ (op.perform k)
  | host {k : Kernel} (h : Reachable k₀ k) (host : Host) : Reachable k₀ { k with host := host }

variable {k₀ k : Kernel}

/-- operations keep a kernel valid, and its own address space as it was -/
theorem Reachable.confined (h : Reachable k₀ k) (h₀ : k₀.Valid ∅) :
    k.Valid ∅ ∧ Spares ∅ k₀ k := by
  induction h with
  | start => exact ⟨h₀, .refl⟩
  | operate _ op ih =>
    have hop := op.confined ih.1
    exact ⟨hop.valid, ih.2.trans hop.kernel⟩
  | host _ host ih =>
    exact ⟨ih.1.of_eq rfl rfl rfl rfl ih.1.current ih.1.shown, ih.2.trans (.of_eq rfl rfl rfl rfl)⟩

/-- on a machine with few frames, of which twelve are free, a process can be loaded and run -/
theorem exists_running (host : Host) (config : KernelConfig) (hl : config.layout.Ordered)
    (hnull : config.layout.SparesNull) (hsmall : config.layout.frameCount ≤ 512)
    (hfree : 12 ≤ (List.range config.layout.frameCount).countP config.layout.isUsable) :
    ∃ k₀ k, start host config = .started k₀ ∧ Reachable k₀ k ∧ k.config = config ∧
      k.processes.Runs 1 ∧ k.current = 1 ∧ k.ticks = 0 := by
  have htables := tablesFor_le_three hsmall
  obtain ⟨k₀, hstart, hspare⟩ := exists_started host hl (by omega)
  obtain ⟨hvalid, hconfig, -⟩ := started_valid hl hstart
  obtain ⟨machine, space, heq⟩ := eq_of_started hstart
  have hslot : ∃ p, k₀.processes.get? 1 = some p ∧ p.isVacant = true := by
    rw [heq]
    exact ⟨_, rfl, rfl⟩
  have hlayout : k₀.layout = config.layout := congrArg KernelConfig.layout hconfig
  -- the program needs eight frames, as many as are left
  have hsetup : Confined ∅ k₀ ((Operation.setup 1 .bare).perform k₀) ∧
      ((Operation.setup 1 .bare).perform k₀).processes.Runs 1 ∧
      ((Operation.setup 1 .bare).perform k₀).ticks = k₀.ticks := by
    refine Ends.leave (P := fun k₁ => Confined ∅ k₀ k₁ ∧ k₁.processes.Runs 1 ∧ k₁.ticks = k₀.ticks)
      ((ends_setup hvalid .bare).mono (fun _ _ h => ⟨h.1, h.2.1, h.2.2.1⟩) fun e k₁ he => ?_)
    cases e with
    | panic e => exact he.elim
    | error e =>
      have hfirst := hl.firstPage_le
      have hless := ((he.2.2 (by decide) hslot).1 (ProgramImage.fits_of_nil rfl)).1
      have hcost : ProgramImage.bare.cost k₀.layout ≤ 7 :=
        ProgramImage.cost_le_of_nil rfl (by rw [hlayout]; omega)
      omega
  generalize hk₁ : (Operation.setup 1 .bare).perform k₀ = k₁ at hsetup
  obtain ⟨hconfined, hruns, hticks⟩ := hsetup
  have hspares : k₁.layout.SparesNull := by
    rw [hconfined.layout, hlayout]
    exact hnull
  have hrun : ((Operation.run 1).perform k₁).current = 1 ∧ Rests k₁ ((Operation.run 1).perform k₁) ∧
      ((Operation.run 1).perform k₁).ticks = k₁.ticks := by
    refine ((ends_run hconfined.valid).mono (fun _ _ h => h.2.2.2) fun e k₂ he => ?_).leave
    cases e with
    | panic e => exact he.elim
    | error e =>
      rcases he with ⟨-, hnot, -⟩ | ⟨-, hnot, -⟩
      · exact absurd hruns hnot
      · exact absurd hspares hnot
  obtain ⟨hcurrent, hrests, hticks'⟩ := hrun
  refine ⟨k₀, _, hstart, hk₁ ▸ (Reachable.start.operate (.setup 1 .bare)).operate (.run 1), ?_, ?_,
    hcurrent, ?_⟩
  · rw [hrests.config, hconfined.config, hconfig]
  · rw [hrests.processes]
    exact hruns
  · rw [hticks', hticks, heq]

/-- `k₀` has just started on the default machine with about `n` bytes of memory -/
def StartedOn (n : UInt64) (k₀ : Kernel) : Prop :=
  ∃ host config, config.layout = Layout.withPhysical n ∧ Kernel.start host config = .started k₀

theorem StartedOn.exists_running (host : Host) (config : KernelConfig)
    (hlayout : config.layout = Layout.withPhysical 0x200000) :
    ∃ k₀ k, StartedOn 0x200000 k₀ ∧ Reachable k₀ k ∧ k.config = config ∧
      k.processes.Runs 1 ∧ k.current = 1 ∧ k.ticks = 0 := by
  have hl : config.layout.Ordered := hlayout ▸ Layout.ordered_withPhysical (by decide)
  have hnull : config.layout.SparesNull := hlayout ▸ Layout.sparesNull_withPhysical _
  obtain ⟨k₀, k, hstart, h⟩ := Kernel.exists_running host config hl hnull
    (by rw [hlayout]; decide +kernel) (by rw [hlayout]; decide +kernel)
  exact ⟨k₀, k, ⟨host, config, hlayout, hstart⟩, h⟩

variable {n : UInt64}

theorem StartedOn.valid (hn : n.toNat ≤ 2 ^ 48) (h : StartedOn n k₀) :
    k₀.Valid ∅ ∧ k₀.layout = Layout.withPhysical n ∧ ∀ pid, k₀.processes.space? pid = none := by
  obtain ⟨host, config, hlayout, hstart⟩ := h
  have hl : config.layout.Ordered := hlayout ▸ Layout.ordered_withPhysical hn
  obtain ⟨hvalid, hconfig, hnone⟩ := started_valid hl hstart
  exact ⟨hvalid, (congrArg KernelConfig.layout hconfig).trans hlayout, hnone⟩

/-- a machine of any size can be started, with most of its frames free -/
theorem StartedOn.exists_started (hn : n.toNat ≤ 2 ^ 48) :
    ∃ k₀, StartedOn n k₀ ∧ (Layout.withPhysical n).frameCount
      ≤ k₀.freeCount + (131 + tablesFor (Layout.withPhysical n).frameCount) := by
  let config : KernelConfig := { layout := .withPhysical n }
  have hsized : config.layout = .sized (Layout.withPhysical n).physicalSize := rfl
  obtain ⟨k₀, hstart, hfree⟩ := exists_started_sized {} hsized (Layout.ordered_withPhysical hn)
  exact ⟨k₀, ⟨{}, config, rfl, hstart⟩, hfree⟩

/-- in a kernel that has started a program can be loaded if it fits -/
theorem StartedOn.exists_loaded (image : ProgramImage) (hn : n.toNat ≤ 2 ^ 48)
    (h₀ : StartedOn n k₀) (hfits : image.Fits (.withPhysical n))
    (hfree : image.cost (.withPhysical n) < k₀.freeCount) :
    ∃ k, setup 1 image k₀ = .ok () k ∧ Reachable k₀ k ∧ Loads 1 image k₀ k ∧
      (∃ p, k.processes.get? 2 = some p ∧ p.isVacant = true) ∧
      k₀.freeCount ≤ k.freeCount + (image.cost (.withPhysical n) + 1) := by
  obtain ⟨hvalid, hlayout, -⟩ := h₀.valid hn
  obtain ⟨host, config, -, hstart⟩ := h₀
  have hvacant : ∀ pid, pid < slotCount → ∃ p, k₀.processes.get? pid = some p ∧
      p.isVacant = true := by
    intro pid hpid
    obtain ⟨p, hp⟩ := ProcessTable.exists_get? (t := k₀.processes) hpid
    exact ⟨p, hp, isVacant_of_started hstart hp⟩
  have hends : Ends (setup 1 image) k₀ (fun _ k => Loads 1 image k₀ k ∧
      k₀.freeCount ≤ k.freeCount + (image.cost k₀.layout + 1)) Never := by
    refine (ends_setup hvalid image).mono (fun _ k hk => ⟨hk.2.2.2.2.2, hk.2.2.2.2.1⟩)
      fun e k he => ?_
    cases e with
    | panic e => exact he.elim
    | error e =>
      have hless := ((he.2.2 (by decide) (hvacant 1 (by decide))).1 (hlayout ▸ hfits)).1
      rw [hlayout] at hless
      omega
  obtain ⟨_, k, hk, hloads, hcost⟩ := hends.exists_ok
  rw [hlayout] at hcost
  have hleave : (Operation.setup 1 image).perform k₀ = k := leave_of_ok hk
  refine ⟨k, hk, hleave ▸ Reachable.start.operate _, hloads, ?_, hcost⟩
  rw [hloads.serves.get? (show 2 ≠ 1 by decide)]
  exact hvacant 2 (by decide)

/-- on a machine that has the frames for it, the program of two segments can be loaded -/
theorem StartedOn.exists_overlapping (hn : n.toNat ≤ 2 ^ 48)
    (henough : tablesFor (Layout.withPhysical n).frameCount + 151
      ≤ (Layout.withPhysical n).frameCount) :
    ∃ k₀ k, StartedOn n k₀ ∧ setup 1 .overlapping k₀ = .ok () k ∧ Reachable k₀ k ∧
      Loads 1 .overlapping k₀ k ∧ k.layout = .withPhysical n ∧
      (∃ p, k.processes.get? 2 = some p ∧ p.isVacant = true) ∧
      (Layout.withPhysical n).frameCount
        ≤ k.freeCount + (151 + tablesFor (Layout.withPhysical n).frameCount) := by
  obtain ⟨k₀, h₀, hfree⟩ := exists_started hn
  have hcost := ProgramImage.cost_overlapping n
  obtain ⟨k, hsetup, h, hloads, hslot, hspent⟩ := h₀.exists_loaded .overlapping hn
    (ProgramImage.fits_overlapping (Layout.ordered_withPhysical hn)) (by omega)
  have hlayout : k.layout = k₀.layout := congrArg KernelConfig.layout hloads.serves.config
  exact ⟨k₀, k, h₀, hsetup, h, hloads, hlayout.trans (h₀.valid hn).2.1, hslot, by omega⟩

theorem Reachable.valid (h : Reachable k₀ k) (hn : n.toNat ≤ 2 ^ 48) (h₀ : StartedOn n k₀) :
    k.Valid ∅ :=
  (h.confined (h₀.valid hn).1).1

end Kernel

end PagedKernel
