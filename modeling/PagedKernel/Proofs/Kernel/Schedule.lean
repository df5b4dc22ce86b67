import PagedKernel.Kernel.Schedule
import PagedKernel.Proofs.Kernel.Valid
import PagedKernel.Proofs.Kernel.View

/-!
# Handing over control, in valid kernels

A process that can run is handed control: the kernel's pages are always mapped as they should be,
unless the layout puts the kernel into the first page.
If none can run the kernel waits, for as long as its limit says or until the host stops it.

* `Kernel.Rests`          memory and all processes are as they were
* `Host.StopsWithin h n`  one of the next `n` polls asks the kernel to stop
* `Kernel.ends_showMemory`, `Kernel.Valid.ends_showMemory`   a view is shown; in a valid kernel it
  can be listed
* `Kernel.ends_run`       a process is handed control
* `Kernel.ends_waitFor`   the empty rounds
* `Kernel.schedule_cases`, `Kernel.resume_cases`   what is done when control is to be handed over
* `Kernel.ends_schedule`, `Kernel.ends_resume`   the next process, or the current one
-/

namespace PagedKernel

/-- one of the next `n` polls asks the kernel to stop -/
def Host.StopsWithin (h : Host) (n : Nat) : Prop :=
  ∃ i < n, h.abortAfter = some i

namespace Host

variable {h h' : Host} {n : Nat}

theorem not_stopsWithin_zero : ¬ h.StopsWithin 0 := by
  rintro ⟨i, hi, -⟩
  exact Nat.not_lt_zero i hi

/-- a poll after which the kernel goes on -/
theorem pollAbort_of_ne (hne : h.abortAfter ≠ some 0) :
    h.pollAbort.1 = false ∧
      ∀ n, h.pollAbort.2.StopsWithin n ↔ h.StopsWithin (n + 1) := by
  have hpos : ∀ i, h.abortAfter = some i → i ≠ 0 := fun i hi hzero => hne (hzero ▸ hi)
  rw [pollAbort_eq]
  refine ⟨decide_eq_false hne, fun n => ⟨?_, ?_⟩⟩
  · rintro ⟨_, hlt, hleft⟩
    obtain ⟨i, hi, rfl⟩ := Option.map_eq_some_iff.1 hleft
    have := hpos i hi
    exact ⟨i, by omega, hi⟩
  · rintro ⟨i, hlt, hi⟩
    have := hpos i hi
    exact ⟨i - 1, by omega, congrArg (Option.map _) hi⟩

theorem pollAbort_of_eq (heq : h.abortAfter = some 0) : h.pollAbort.1 = true := by
  rw [pollAbort_eq]
  exact decide_eq_true heq

end Host

namespace Kernel

variable {k k' k'' : Kernel} {unfinished others : Finset Pid} {pid : Nat}

/-- memory and all processes are as they were -/
structure Rests (k k' : Kernel) : Prop where
  config : k'.config = k.config
  space : k'.space = k.space
  memory : k'.memory = k.memory
  processes : k'.processes = k.processes
  current : k'.current < slotCount
  shown : k'.viewer.shown < slotCount

namespace Rests

theorem refl (h : k.Valid unfinished) : Rests k k := ⟨rfl, rfl, rfl, rfl, h.current, h.shown⟩

theorem trans (h : Rests k k') (h' : Rests k' k'') : Rests k k'' :=
  ⟨h'.config.trans h.config, h'.space.trans h.space, h'.memory.trans h.memory,
    h'.processes.trans h.processes, h'.current, h'.shown⟩

theorem of_memory (h : k.Valid unfinished) {m : Machine} (hm : m.toMemory = k.memory) :
    Rests k { k with machine := m } :=
  ⟨rfl, rfl, hm, rfl, h.current, h.shown⟩

theorem valid (h : Rests k k') (hk : k.Valid unfinished) : k'.Valid unfinished :=
  hk.of_eq h.config h.space h.memory h.processes h.current h.shown

theorem spares (h : Rests k k') : Spares others k k' :=
  .of_eq h.config h.space h.memory h.processes

theorem confined {actors : Finset Pid} (h : Rests k k') (hk : k.Valid ∅) : Confined actors k k' :=
  ⟨h.valid hk, fun _ _ _ => h.spares⟩

end Rests

/-! ## the view and the host -/

/-- a view is shown, and that is all -/
theorem ends_showMemory (hshown : k.viewer.shown < slotCount) {Q : Unit → Kernel → Prop}
    {E : Panic → Kernel → Prop}
    (hQ : ∀ found viewer,
      k.viewer.select k.processes k.ticks k.config.hz = .ok (found, viewer) →
      viewer.shown < slotCount → (∀ x, found = some x → k.processes.space? x.1 = some x.2) →
      Q () { k with
        viewer := viewer
        host := k.host.record (.showMemory (MemoryView.summary
          ⟨k.ticks, found, ⟨k.layout.processStart, k.layout.virtualSize⟩⟩ k.memory).toOption) }) :
    Ends showMemory k Q E := by
  obtain ⟨found, viewer, hselect, hviewer, hspace⟩ :=
    k.viewer.select_cases k.processes k.ticks k.config.hz hshown (by decide)
  unfold showMemory
  rw [ends_bind, ends_get, ends_bind, ends_ofExcept hselect]
  exact hQ found viewer hselect hviewer hspace

/-- in a valid kernel the host can list what it is shown -/
theorem Valid.ends_showMemory (h : k.Valid unfinished) {Q : Unit → Kernel → Prop}
    {E : Panic → Kernel → Prop}
    (hQ : ∀ found viewer view,
      k.viewer.select k.processes k.ticks k.config.hz = .ok (found, viewer) →
      viewer.shown < slotCount →
      Q () { k with viewer := viewer, host := k.host.record (.showMemory (some view)) }) :
    Ends showMemory k Q E := by
  refine Kernel.ends_showMemory h.shown fun found viewer hselect hviewer hspace => ?_
  obtain ⟨view, hview⟩ := MemoryView.summary_ok k.memory
    ⟨k.ticks, found, ⟨k.layout.processStart, k.layout.virtualSize⟩⟩ fun x hx =>
      filterMapM_ok _ fun va _ => ⟨_, h.sound.forest.lookup_eq
        (Finset.mem_insert_of_mem (ProcessTable.root_mem (hspace x hx))) va⟩
  rw [hview]
  exact hQ found viewer view hselect hviewer

/-- memory is shown if `c`; then `x` goes on where nothing but the log, the viewer and the record of
the host is new -/
theorem ends_mayShow (hshown : k.viewer.shown < slotCount) {c : Prop} [Decidable c]
    {severity : Severity} {target message : String} {α : Type} {x : Attempt Kernel Halt α}
    {Q : α → Kernel → Prop} {E : Stop Halt → Kernel → Prop}
    (skipped : ¬ c → Ends x k Q E)
    (shown : c → ∀ (m : Machine) viewer view, m.toMemory = k.memory → viewer.shown < slotCount →
      Ends x { k with machine := m, viewer := viewer, host := k.host.record (.showMemory view) }
        Q E) :
    Ends (if c then liftM (report severity target message) >>= fun _ =>
      liftM showMemory >>= fun _ => x else x) k Q E := by
  refine ends_ite.2 ⟨fun hc => ?_, skipped⟩
  rw [ends_bind, ends_lift]
  refine ends_report fun m hm => ?_
  rw [ends_bind, ends_lift]
  exact ends_showMemory (k := { k with machine := m }) hshown fun _ viewer _ hviewer _ =>
    shown hc m viewer _ hm hviewer

theorem ends_checkAbort {Q : Unit → Kernel → Prop} {E : Stop Halt → Kernel → Prop}
    (go : k.host.abortAfter ≠ some 0 → Q () { k with host := k.host.pollAbort.2 })
    (stop : k.host.abortAfter = some 0 → ∀ m : Machine, m.toMemory = k.memory →
      E (.error .abortRequested) { k with machine := m, host := k.host.pollAbort.2 }) :
    Ends checkAbort k Q E := by
  unfold checkAbort
  rw [ends_bind, ends_lift]
  show Ends (if k.host.pollAbort.1 = true then _ else _) { k with host := k.host.pollAbort.2 } Q E
  by_cases heq : k.host.abortAfter = some 0
  · rw [if_pos (Host.pollAbort_of_eq heq), ends_bind, ends_lift]
    exact ends_report fun m hm => stop heq m hm
  · rw [if_neg (by rw [(Host.pollAbort_of_ne heq).1]; exact Bool.false_ne_true)]
    exact go heq

/-! ## handing over control -/

/-- a process maps the page of an aligned address that the kernel uses, unless that is null -/
theorem mapsKernelPage_eq (h : k.Valid ∅) {s : AddressSpace}
    (hs : k.processes.space? pid = some s) (va : VirtualAddress) {n : Nat}
    (hva : va.value.toNat = 4096 * n) (hn : n < k.layout.firstPage)
    (hconsole : n ≠ k.layout.consolePage) :
    mapsKernelPage s k.memory va = .ok (decide (0 < n)) := by
  have hl := h.sound.ordered
  have hpage := va.toNat_page
  have hnumber : va.page.number.toNat = n := by omega
  have hle := hl.firstPage_le
  have hbound := hl.frameCount_le
  have hlookup := h.sound.forest.lookup_eq
    (Finset.mem_insert_of_mem (ProcessTable.root_mem hs)) va
  rw [hnumber, (h.complete pid (Finset.notMem_empty pid) s hs).low n hn] at hlookup
  unfold mapsKernelPage
  by_cases hzero : 0 < n
  · have hkernel : k.layout.kernelPage n
        = some (Page.ofNumber (UInt64.ofNat n), .kernelReadWrite) := by
      rw [Layout.kernelPage, if_pos ⟨hzero, by omega⟩, Layout.kernelPermissions,
        if_pos ⟨hn, hconsole⟩]
    have hbase : (Page.ofNumber (UInt64.ofNat n) : Frame).base.value = va.value := by
      rw [← UInt64.toNat_inj, Page.toNat_base, Page.toNat_ofNumber (by omega), hva, Nat.mul_comm]
    rw [hlookup, hkernel, Option.map_some, ok_bind, decide_eq_true hzero]
    dsimp only
    rw [hbase, beq_self_eq_true, beq_self_eq_true]
    rfl
  · have hkernel : k.layout.kernelPage n = none := if_neg fun hin => hzero hin.1
    rw [hlookup, hkernel, Option.map_none, ok_bind, decide_eq_false hzero]
    rfl

/-- the check of a page that the kernel uses passes, unless that is the page of null -/
theorem ends_checkKernelPage (h : k.Valid ∅) {s : AddressSpace}
    (hs : k.processes.space? pid = some s) {w : UInt64} {n : Nat} (hw : w.toNat = 4096 * n)
    (hn : n < k.layout.consolePage) :
    Ends (checkKernelPage pid s ⟨w⟩) k (fun _ k' => k' = k ∧ 0 < n)
      (fun e k' => n = 0 ∧ e = .error (.corruptPageTable pid ⟨w⟩) ∧
        ∃ m : Machine, m.toMemory = k.memory ∧ k' = { k with machine := m }) := by
  have hlt := h.sound.ordered.consolePage_lt
  have hmaps := mapsKernelPage_eq h hs ⟨w⟩ hw (by omega) (by omega)
  unfold checkKernelPage
  rw [ends_bind, ends_lift, ends_inspect hmaps]
  refine ends_ite.2 ⟨fun hpos => ends_pure.2 ⟨rfl, of_decide_eq_true hpos⟩, fun hnot => ?_⟩
  rw [ends_bind, ends_lift]
  refine ends_report fun m hm => ends_fail.2 ⟨?_, rfl, m, hm, rfl⟩
  rw [decide_eq_true_iff] at hnot
  omega

/-- the pages of the kernel's image pass, if there are any and the first is not that of null -/
theorem ends_checkKernelImage (h : k.Valid ∅) {s : AddressSpace}
    (hs : k.processes.space? pid = some s) :
    Ends (forSteps k.layout.kernelImage.start k.layout.kernelImage.stop fun w =>
        checkKernelPage pid s ⟨w⟩) k
      (fun _ k' => k' = k ∧
        (k.layout.kernelImage.start < k.layout.kernelImage.stop → 0 < k.layout.kernelImage.start))
      (fun e k' => ¬ k.layout.SparesNull ∧ (∃ va, e = .error (.corruptPageTable pid va)) ∧
        ∃ m : Machine, m.toMemory = k.memory ∧ k' = { k with machine := m }) := by
  have hl := h.sound.ordered
  have hstart := hl.imageStart_aligned
  have hstop := hl.imageStop_aligned
  have htop := hl.stackTop_aligned
  have himage := hl.image_stack
  have hhole := UInt64.le_iff_toNat_le.1 hl.stack_hole
  have hconsole := UInt64.le_iff_toNat_le.1 hl.hole_console
  have hcon := hl.console_eq
  simp only [UInt64.lt_iff_toNat_lt, UInt64.toNat_zero]
  by_cases hle : k.layout.kernelImage.start.toNat ≤ k.layout.kernelImage.stop.toNat
  · refine (Ends.forStepsAligned (a := k.layout.kernelImage.start.toNat / 4096)
      (b := k.layout.kernelImage.stop.toNat / 4096) (by omega) (by omega) (by omega)
      (fun n t => t = k ∧ (k.layout.kernelImage.start.toNat / 4096 < n →
        0 < k.layout.kernelImage.start.toNat)) ⟨rfl, fun hlt => absurd hlt (Nat.lt_irrefl _)⟩
      fun n w t h₁ h₂ hw ht => ?_).mono ?_ fun _ _ he => he
    · obtain ⟨rfl, hpos⟩ := ht
      refine (ends_checkKernelPage h hs hw (by omega)).mono (fun _ t' ht' => ?_) fun e t' he => ?_
      · exact ⟨ht'.1, fun _ => by omega⟩
      · obtain ⟨hzero, he, hm⟩ := he
        refine ⟨fun hspares => ?_, ⟨_, he⟩, hm⟩
        have := hspares.image
        simp only [UInt64.lt_iff_toNat_lt, UInt64.le_iff_toNat_le, UInt64.toNat_zero] at this
        omega
    · rintro _ t ⟨ht, hpos⟩
      exact ⟨ht, fun hlt => hpos (by omega)⟩
  · have hcount : stepCount k.layout.kernelImage.start k.layout.kernelImage.stop = 0 := by
      unfold stepCount
      omega
    rw [forSteps, hcount]
    exact ends_pure.2 ⟨rfl, fun hlt => absurd (Nat.le_of_lt hlt) hle⟩

/-- every process maps the kernel as it should, unless the kernel lies at null -/
theorem ends_checkKernelPages (h : k.Valid ∅) {s : AddressSpace}
    (hs : k.processes.space? pid = some s) :
    Ends (checkKernelPages pid s) k (fun _ k' => k' = k ∧ k.layout.SparesNull)
      (fun e k' => ¬ k.layout.SparesNull ∧ (∃ va, e = .error (.corruptPageTable pid va)) ∧
        ∃ m : Machine, m.toMemory = k.memory ∧ k' = { k with machine := m }) := by
  have hl := h.sound.ordered
  have htop := hl.stackTop_aligned
  have himage := hl.image_stack
  have hhole := UInt64.le_iff_toNat_le.1 hl.stack_hole
  have hconsole := UInt64.le_iff_toNat_le.1 hl.hole_console
  have hcon := hl.console_eq
  obtain ⟨hstack, hstackNat⟩ := hl.kernelStackPage_eq
  unfold checkKernelPages
  rw [ends_bind, ends_get]
  dsimp only
  rw [ends_bind, ends_attemptExcept hstack]
  refine (ends_checkKernelImage h hs).bind ?_
  rintro _ t ⟨rfl, hpos⟩
  refine (ends_checkKernelPage (n := (t.layout.kernelStackTop.toNat - 4096) / 4096) h hs
    (by omega) (by omega)).mono (fun _ t' ht' => ?_) fun e t' he => ?_
  · refine ⟨ht'.1, ?_, ?_⟩
    · by_cases hle : t.layout.kernelImage.stop ≤ t.layout.kernelImage.start
      · exact .inl hle
      · exact .inr (hpos (UInt64.not_le.1 hle))
    · have hstackPos := ht'.2
      rw [UInt64.lt_iff_toNat_lt]
      simp only [UInt64.reduceToNat]
      omega
  · obtain ⟨hzero, he, hm⟩ := he
    refine ⟨fun hspares => ?_, ⟨_, he⟩, hm⟩
    have := UInt64.lt_iff_toNat_lt.1 hspares.stack
    simp only [UInt64.reduceToNat] at this
    omega

/-- a process is handed control if it can run, unless the kernel lies at null -/
theorem ends_run (h : k.Valid ∅) :
    Ends (run pid) k
      (fun d k' => d = .run pid ∧ k.processes.Runs pid ∧ k.layout.SparesNull ∧ k'.current = pid ∧
        Rests k k' ∧ k'.ticks = k.ticks)
      (Fails fun e k' => e = .notRunnable pid ∧ ¬ k.processes.Runs pid ∧ k' = k ∨
        (∃ va, e = .corruptPageTable pid va) ∧ ¬ k.layout.SparesNull ∧ Rests k k') := by
  unfold run
  rw [ends_bind, ends_get]
  dsimp only
  rw [ends_bind]
  by_cases hruns : k.processes.Runs pid
  · obtain ⟨p, hp, hrun⟩ := hruns
    obtain ⟨s, hspace⟩ := Option.isSome_iff_exists.1 (h.ready pid p hp hrun)
    have hs := (ProcessTable.space?_of_get? hp).trans hspace
    have hlt := ProcessTable.lt_of_get? hp
    have hvalid : Valid { k with current := pid } ∅ := h.of_eq rfl rfl rfl rfl hlt h.shown
    rw [hp, Option.filter_some, if_pos hrun, Option.bind_some, hspace, ends_orFail_some, ends_bind,
      ends_modify, ends_bind]
    refine (ends_checkKernelPages hvalid hs).mono (fun _ t ht => ?_) fun e t he => ?_
    · obtain ⟨rfl, hspares⟩ := ht
      rw [ends_bind, ends_lift, ends_process (k := { k with current := pid }) hp, ends_bind,
        ends_lift, ends_tell]
      exact ends_pure.2 ⟨rfl, ⟨p, hp, hrun⟩, hspares, rfl,
        ⟨rfl, rfl, rfl, rfl, hlt, h.shown⟩, rfl⟩
    · obtain ⟨hnull, ⟨va, rfl⟩, m, hm, rfl⟩ := he
      exact .inr ⟨⟨va, rfl⟩, hnull, rfl, rfl, hm, rfl, hlt, h.shown⟩
  · have hnone : ((k.processes.get? pid).filter Process.isRunnable).bind Process.space = none := by
      cases hp : k.processes.get? pid with
      | none => rfl
      | some p =>
        rw [Option.filter_some, if_neg fun hrun => hruns ⟨p, hp, hrun⟩]
        rfl
    rw [hnone]
    exact ends_orFail_none.2 (.inl ⟨rfl, hruns, rfl⟩)

/-! ## waiting -/

/-- a kernel has waited in vain, for `left` rounds at most -/
def Waited (k : Kernel) (left : Nat) (d : Dispatch) (k' : Kernel) : Prop :=
  Rests k k' ∧ d = .idle ∧ ¬ k.host.StopsWithin left

/-- a kernel was stopped while it waited, or nothing would have ended its waiting -/
def WaitFails (k : Kernel) (left : Nat) (e : Stop Halt) (k' : Kernel) : Prop :=
  Rests k k' ∧ (e = .error .abortRequested ∧ k.host.StopsWithin left ∨
    e = .panic .endless ∧ k.config.idleLimit = none)

/-- the end of an empty round: it was the last one if the limit is reached -/
theorem ends_endRound (rounds : UInt32) (left : Nat) (h : k.Valid ∅) (hrests : Rests k k')
    (hstops : k'.host.StopsWithin left ↔ k.host.StopsWithin (left + 1))
    (hleft : ∀ limit, k.config.idleLimit = some limit →
      rounds.toNat + left = limit.rounds.toNat)
    (hagain : (∀ limit, k.config.idleLimit = some limit → rounds.toNat < limit.rounds.toNat) →
      Ends (waitFor rounds left) k' (Waited k' left) (WaitFails k' left)) :
    Ends (if (k.config.idleLimit.any fun limit => limit.rounds ≤ rounds) = true then do
        report .debug "kernel::scheduler" ("idle after " ++ toString rounds.toNat ++ " rounds")
        return .idle
      else waitFor rounds left : Attempt Kernel Halt Dispatch) k'
      (Waited k (left + 1)) (WaitFails k (left + 1)) := by
  refine ends_ite.2 ⟨fun hdone => ?_, fun hmore => ?_⟩
  · obtain ⟨limit, hlimit, hle⟩ := (Option.any_eq_true _ _).1 hdone
    rw [decide_eq_true_iff, UInt32.le_iff_toNat_le] at hle
    have hlast : left = 0 := by
      have := hleft limit hlimit
      omega
    subst hlast
    rw [ends_bind, ends_lift]
    refine ends_report fun m hm => ends_pure.2 ⟨?_, rfl, ?_⟩
    · exact hrests.trans (.of_memory (hrests.valid h) hm)
    · rw [← hstops]
      exact Host.not_stopsWithin_zero
  · refine (hagain fun limit hlimit => ?_).mono (fun d k'' hk'' => ?_) fun e k'' he => ?_
    · have hgt : ¬ limit.rounds ≤ rounds := by
        intro hle
        refine hmore ?_
        rw [hlimit, Option.any_some]
        exact decide_eq_true hle
      rw [UInt32.le_iff_toNat_le] at hgt
      omega
    · rw [Waited, hstops] at hk''
      exact ⟨hrests.trans hk''.1, hk''.2⟩
    · rw [WaitFails, hstops, hrests.config] at he
      exact ⟨hrests.trans he.1, he.2⟩

/-- the empty rounds: they are over with the limit, if the host does not stop the kernel before -/
theorem ends_waitFor (rounds : UInt32) (left : Nat) (h : k.Valid ∅)
    (hleft : ∀ limit, k.config.idleLimit = some limit →
      rounds.toNat < limit.rounds.toNat ∧ rounds.toNat + left = limit.rounds.toNat) :
    Ends (waitFor rounds left) k (Waited k left) (WaitFails k left) := by
  induction left generalizing k rounds with
  | zero =>
    refine ends_toAttempt.2 (ends_panic.2 ⟨.refl h, .inr ⟨rfl, ?_⟩⟩)
    cases hlimit : k.config.idleLimit with
    | none => rfl
    | some limit =>
      obtain ⟨hlt, heq⟩ := hleft limit hlimit
      omega
  | succ left ih =>
    have hnext : ∀ limit, k.config.idleLimit = some limit →
        (rounds + 1).toNat + left = limit.rounds.toNat := by
      intro limit hlimit
      obtain ⟨hlt, heq⟩ := hleft limit hlimit
      have := limit.rounds.toNat_lt
      rw [UInt32.toNat_add]
      simp only [UInt32.reduceToNat]
      omega
    rw [waitFor, ends_bind]
    refine ends_checkAbort (fun hne => ?_) fun heq m hm => ?_
    · obtain ⟨-, hstops⟩ := Host.pollAbort_of_ne hne
      -- what is left of the round leaves the host's answers alone
      have hrest := fun (k₁ : Kernel) (hk₁ : Rests k k₁)
          (hhost : k₁.host.abortAfter = k.host.pollAbort.2.abortAfter) =>
        ends_endRound (rounds + 1) left h hk₁
          (by rw [← hstops, Host.StopsWithin, Host.StopsWithin, hhost]) hnext fun hlt =>
          ih (rounds + 1) (hk₁.valid h) fun limit hlimit => by
            rw [hk₁.config] at hlimit
            exact ⟨hlt limit hlimit, hnext limit hlimit⟩
      rw [ends_bind, ends_get]
      refine ends_mayShow (k := { k with host := k.host.pollAbort.2 }) h.shown (fun _ => ?_)
        fun _ m viewer view hm hshown => ?_
      · exact hrest _ ⟨rfl, rfl, rfl, rfl, h.current, h.shown⟩ rfl
      · exact hrest _ ⟨rfl, rfl, hm, rfl, h.current, hshown⟩ rfl
    · exact ⟨⟨rfl, rfl, hm, rfl, h.current, h.shown⟩, .inl ⟨rfl, 0, Nat.succ_pos left, heq⟩⟩

/-! ## choosing a process -/

/-- the polls that a waiting kernel makes at most -/
def idlePolls (k : Kernel) : Nat :=
  waitBound k.config.idleLimit k.host.abortAfter

theorem idlePolls_eq {limit : IdleLimit} (h : k.config.idleLimit = some limit) :
    (0 : UInt32).toNat < limit.rounds.toNat ∧
      (0 : UInt32).toNat + k.idlePolls = limit.rounds.toNat := by
  rw [idlePolls, h]
  exact ⟨limit.rounds_pos, Nat.zero_add _⟩

/-- the next process after the current one that can run is handed control, or the kernel waits -/
theorem schedule_cases (hcurrent : k.current < slotCount) :
    (∃ next, FirstAfter slotCount k.processes.Runs k.current next ∧
      nextRunnable k.processes k.current = .ok (some next) ∧ schedule k = run next k) ∨
    ((∀ pid, ¬ k.processes.Runs pid) ∧ schedule k = waitFor 0 k.idlePolls k) := by
  have hchoice : ∀ found, nextRunnable k.processes k.current = .ok found →
      (liftM (nextRunnable k.processes k.current) : Attempt Kernel Halt _) k = .ok found k := by
    intro found heq
    rw [heq]
    rfl
  rcases nextRunnable_first k.processes hcurrent (by decide) with
    ⟨next, hfirst, heq⟩ | ⟨hnone, heq⟩
  · exact .inl ⟨next, hfirst, heq, Eq.trans (bind_of_ok rfl) (bind_of_ok (hchoice _ heq))⟩
  · exact .inr ⟨hnone, Eq.trans (bind_of_ok rfl) (bind_of_ok (hchoice _ heq))⟩

/-- the current process goes on if it can run, and else the next one does -/
theorem resume_cases (hcurrent : k.current < slotCount) :
    (k.processes.Runs k.current ∧ resume k = run k.current k) ∨
    (¬ k.processes.Runs k.current ∧ resume k = schedule k) := by
  obtain ⟨p, hp⟩ := ProcessTable.exists_get? (t := k.processes) hcurrent
  have hslot : process k.current k = .ok p k := by
    show Action.ofExcept (k.processes.get k.current) k = _
    rw [ProcessTable.get_of_get? hp]
    rfl
  have hresume : resume k = (if p.isRunnable then run k.current else schedule) k :=
    Eq.trans (bind_of_ok rfl) (bind_of_ok (lift_of_ok hslot))
  have hiff := ProcessTable.runs_iff_isRunnable hp
  by_cases hruns : k.processes.Runs k.current
  · rw [if_pos (hiff.1 hruns)] at hresume
    exact .inl ⟨hruns, hresume⟩
  · rw [if_neg (mt hiff.2 hruns)] at hresume
    exact .inr ⟨hruns, hresume⟩

/-- whom control was handed to: the current process, which can run, or nobody as none can -/
def Handed (k : Kernel) : Dispatch → Prop
  | .run pid => k.current = pid ∧ k.processes.Runs pid
  | .idle => ∀ pid, ¬ k.processes.Runs pid

/-- control was handed over, or the kernel has waited in vain -/
structure Resumed (k : Kernel) (d : Dispatch) (k' : Kernel) : Prop where
  rests : Rests k k'
  handed : k'.Handed d
  polls : d = .idle → ¬ k.host.StopsWithin k.idlePolls

/-- control was not handed over: no process can run, and the host stopped the kernel or it would
have waited for ever; a kernel that lies at null apart -/
structure Stranded (k : Kernel) (e : Stop Halt) (k' : Kernel) : Prop where
  rests : Rests k k'
  nobody : k.layout.SparesNull → ∀ pid, ¬ k.processes.Runs pid
  cause : k.layout.SparesNull →
    e = .error .abortRequested ∧ k.host.StopsWithin k.idlePolls ∨
      e = .panic .endless ∧ k.config.idleLimit = none

theorem Stranded.not_busy {e : Stop Halt} (h : Stranded k e k') (hlayout : k.layout.SparesNull) :
    ¬ ∃ q, k'.processes.Runs q := by
  rintro ⟨q, hruns⟩
  rw [h.rests.processes] at hruns
  exact h.nobody hlayout q hruns

theorem Resumed.of_run {d : Dispatch} (hd : d = .run pid) (hruns : k.processes.Runs pid)
    (hcurrent : k'.current = pid) (hrests : Rests k k') : Resumed k d k' := by
  subst hd
  refine ⟨hrests, ⟨hcurrent, ?_⟩, nofun⟩
  rw [hrests.processes]
  exact hruns

theorem ends_run_of_runs (h : k.Valid ∅) (hruns : k.processes.Runs pid) :
    Ends (run pid) k (Resumed k) (Stranded k) := by
  refine (ends_run h).mono (fun d k' hk' => ?_) fun e k' he => ?_
  · obtain ⟨hd, -, -, hcurrent, hrests, -⟩ := hk'
    exact .of_run hd hruns hcurrent hrests
  · cases e with
    | panic e => exact he.elim
    | error e =>
      rcases he with ⟨-, hnot, -⟩ | ⟨-, hnull, hrests⟩
      · exact absurd hruns hnot
      · exact ⟨hrests, fun hspares => absurd hspares hnull, fun hspares => absurd hspares hnull⟩

theorem ends_schedule (h : k.Valid ∅) : Ends schedule k (Resumed k) (Stranded k) := by
  rcases schedule_cases h.current with ⟨next, hfirst, -, heq⟩ | ⟨hnone, heq⟩
  · exact (ends_congr heq).2 (ends_run_of_runs h hfirst.holds)
  · rw [ends_congr heq]
    have hwait := ends_waitFor 0 k.idlePolls h fun _ => idlePolls_eq
    refine hwait.mono (fun d k' hk' => ?_) fun e k' he => ⟨he.1, fun _ => hnone, fun _ => he.2⟩
    obtain ⟨hrests, rfl, hstops⟩ := hk'
    refine ⟨hrests, ?_, fun _ => hstops⟩
    rw [Handed, hrests.processes]
    exact hnone

theorem ends_resume (h : k.Valid ∅) : Ends resume k (Resumed k) (Stranded k) := by
  rcases resume_cases h.current with ⟨hruns, heq⟩ | ⟨-, heq⟩
  · exact (ends_congr heq).2 (ends_run_of_runs h hruns)
  · exact (ends_congr heq).2 (ends_schedule h)

end Kernel

end PagedKernel
