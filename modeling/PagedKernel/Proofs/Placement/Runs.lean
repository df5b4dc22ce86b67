import PagedKernel.Proofs.Control.Sessions
import PagedKernel.Proofs.Kernel.Isolation
import PagedKernel.Proofs.Kernel.Requests
import PagedKernel.Proofs.Placement.Calls

/-!
# Runs on machines of different size

The same is asked, in the same order, of two kernels that have started on machines of different
size.  As long as neither lacks a frame, both answer the same all the time, and no process can tell
on which machine it runs.

* `Kernel.Agrees`                two kernels in which each process has, and sees, the same
* `Operation.indifferent`        no operation cares for the size of the machine
* `Kernel.placement_invisible`   nor does a run
-/

namespace PagedKernel

namespace Kernel

/-- all slots of both kernels hold the same but for the roots of address spaces, and each process
maps the same pages, with the same permissions and the same bytes -/
structure Agrees (k₁ k₂ : Kernel) : Prop where
  current : k₁.current = k₂.current
  ticks : k₁.ticks = k₂.ticks
  viewer : k₁.viewer = k₂.viewer
  slots : ∀ pid : Pid,
    (k₁.processes.get? pid).map (fun p => (p.pid, p.state, p.registers, p.space.isSome))
      = (k₂.processes.get? pid).map fun p => (p.pid, p.state, p.registers, p.space.isSome)
  permissions : ∀ pid va, k₁.layout.isUserAddress va = true →
    k₁.permissionsAt pid va = k₂.permissionsAt pid va
  bytes : ∀ pid va, k₁.layout.isUserAddress va = true → k₁.byteAt pid va = k₂.byteAt pid va

variable {size : UInt64} {k k₁ k₂ : Kernel} {pid : Nat} {s : AddressSpace}

/-! ## what twins agree on -/

theorem Twins.agrees (h : Twins size k₁ k₂) : Agrees k₁ k₂ := by
  have hslots : ∀ t : ProcessTable slotCount, ∀ q : Pid,
      (t.get? q).map (fun p => (p.pid, p.state, p.registers, p.space.isSome))
        = ((t.get? q).map Process.anonymous).map fun p =>
          (p.pid, p.state, p.registers, p.space.isSome) := by
    intro t q
    rw [Option.map_map]
    congr 1
    funext p
    rw [Function.comp_apply, Process.anonymous, Option.isSome_map]
  have hviews : ∀ q va s₁ s₂, k₁.layout.isUserAddress va = true →
      k₁.processes.space? q = some s₁ → k₂.processes.space? q = some s₂ →
      k₁.memory.viewAt s₁.root va.page.number.toNat
        = k₂.memory.viewAt s₂.root va.page.number.toNat := by
    intro q va s₁ s₂ hva hs₁ hs₂
    obtain ⟨hn, hn'⟩ := (h.valid₁.sound.ordered.isUserAddress_iff va).1 hva
    exact h.views q s₁ s₂ hs₁ hs₂ _ hn hn'
  refine ⟨h.current, h.ticks, h.viewer, fun q => ?_, fun q va hva => ?_, fun q va hva => ?_⟩
  · rw [hslots, hslots, h.slots q]
  · cases hs₁ : k₁.processes.space? q with
    | none =>
      rw [permissionsAt, permissionsAt, Valid.lookup_of_none hs₁,
        Valid.lookup_of_none (h.space?_eq_none hs₁)]
    | some s₁ =>
      obtain ⟨s₂, hs₂⟩ := h.exists_space hs₁
      rw [h.valid₁.permissionsAt_eq hs₁, h.valid₂.permissionsAt_eq hs₂,
        hviews q va s₁ s₂ hva hs₁ hs₂]
  · cases hs₁ : k₁.processes.space? q with
    | none =>
      rw [byteAt, byteAt, Valid.lookup_of_none hs₁, Valid.lookup_of_none (h.space?_eq_none hs₁)]
      rfl
    | some s₁ =>
      obtain ⟨s₂, hs₂⟩ := h.exists_space hs₁
      have hva₂ : k₂.layout.isUserAddress va = true := h.layout ▸ hva
      rw [h.valid₁.byteAt_eq hs₁ hva, h.valid₂.byteAt_eq hs₂ hva₂, hviews q va s₁ s₂ hva hs₁ hs₂]

/-! ## steps -/

/-- kernels that have just started are twins -/
theorem Twins.of_started {host : Host} {config : KernelConfig}
    (h₁ : start host config = .started k₁) (h₂ : start host (config.resized size) = .started k₂)
    (hl : config.layout.Ordered) (hl' : (config.layout.resized size).Ordered)
    (hnull : config.layout.SparesNull) : Twins size k₁ k₂ := by
  obtain ⟨hvalid₁, -, hnone₁⟩ := started_valid hl h₁
  obtain ⟨hvalid₂, -, -⟩ := started_valid hl' h₂
  have hconsole : k₁.memory.data config.layout.consoleFrame
      = k₂.memory.data config.layout.consoleFrame :=
    (console_of_started hl h₁).trans (console_of_started hl' h₂).symm
  obtain ⟨machine₁, space₁, rfl⟩ := eq_of_started h₁
  obtain ⟨machine₂, space₂, rfl⟩ := eq_of_started h₂
  refine ⟨hvalid₁, hvalid₂, rfl, hnull, fun _ => rfl, rfl, rfl, rfl, rfl, rfl, ?_, hconsole⟩
  intro q s₁ s₂ hs₁
  cases (hnone₁ q).symm.trans hs₁

/-- both hosts have the same answers ready -/
theorem Twins.arrive (h : Twins size k₁ k₂) (r : Request) :
    Twins size (r.arrive k₁) (r.arrive k₂) :=
  h.of_rests ⟨rfl, rfl, rfl, rfl, h.valid₁.current, h.valid₁.shown⟩
    ⟨rfl, rfl, rfl, rfl, h.valid₂.current, h.valid₂.shown⟩ h.current h.ticks h.viewer rfl rfl

/-- steps that are taken together end with the same answer -/
theorem Lockstep.answer_eq {ε α : Type} {x : EStateM ε Kernel α}
    (h : Lockstep NoneLost size x x k₁ k₂) :
    answerOf x k₁ = answerOf x k₂ ∧ Twins size (leave x k₁) (leave x k₂) := by
  unfold Lockstep EndAlike at h
  unfold answerOf leave
  cases hx₁ : x k₁ <;> cases hx₂ : x k₂ <;> rw [hx₁, hx₂] at h
  · exact ⟨congrArg Except.ok h.1, h.2⟩
  · exact h.elim
  · exact h.elim
  · obtain ⟨rfl, htwins⟩ := (h.resolve_left id).resolve_left id
    exact ⟨rfl, htwins⟩

end Kernel

variable {size : UInt64} {k k₁ k₂ : Kernel} {pid : Nat}

/-- a computation that does not care for the size of the machine, as an operation -/
theorem Indifferent.operate {ε α : Type} {x : EStateM ε Kernel α} (hx : Indifferent size x)
    (told : Except ε α → Answer) :
    (∀ k : Kernel, k.Starved → (leave x k).Starved) ∧
      ∀ k₁ k₂, Kernel.Twins size k₁ k₂ → ¬ (leave x k₁).Starved → ¬ (leave x k₂).Starved →
        told (answerOf x k₁) = told (answerOf x k₂) ∧
          Kernel.Twins size (leave x k₁) (leave x k₂) := by
  refine ⟨fun k hs => ?_, fun k₁ k₂ h hfree₁ hfree₂ => ?_⟩
  · exact ((hx.lasting k).mono (fun _ _ h => h hs) fun _ _ h => h hs).leave
  · obtain ⟨hanswer, htwins⟩ :=
      (((hx.alike k₁ k₂ h).resolve_left hfree₁).resolve_left hfree₂).answer_eq
    exact ⟨congrArg told hanswer, htwins⟩

/-- no operation cares for the size of the machine, as long as no frame is lacking -/
theorem Operation.indifferent (op : Operation) (size : UInt64) :
    (∀ k : Kernel, k.Starved → (op.perform k).Starved) ∧
      ∀ k₁ k₂, Kernel.Twins size k₁ k₂ → ¬ (op.perform k₁).Starved → ¬ (op.perform k₂).Starved →
        op.answer k₁ = op.answer k₂ ∧ Kernel.Twins size (op.perform k₁) (op.perform k₂) := by
  cases op with
  | setup pid image =>
    exact (Indifferent.of_lockstep (Kernel.honest_setup image)
      fun _ _ h => h.setup pid image).operate .setup
  | boot registry command =>
    exact (Indifferent.of_lockstep (Kernel.honest_boot registry command)
      fun _ _ h => h.boot registry command).operate .dispatch
  | run pid =>
    exact (Indifferent.of_lockstep Kernel.honest_run fun _ _ h => h.run pid).operate .dispatch
  | schedule =>
    exact (Indifferent.of_lockstep Kernel.honest_schedule fun _ _ h => h.schedule).operate .dispatch
  | syscall registers => exact (Indifferent.syscall registers).operate .dispatch
  | exception registers =>
    exact (Indifferent.of_lockstep (Kernel.honest_exception registers)
      fun _ _ h => h.exception registers).operate .dispatch
  | fork parent =>
    exact (Indifferent.of_lockstep (Kernel.honest_fork parent)
      fun _ _ h => h.fork parent).operate .fork
  | pageAlloc pid va =>
    exact (Indifferent.of_lockstep (Kernel.honest_pageAlloc va)
      fun _ _ h => h.pageAlloc pid va).operate .pageAlloc
  | teardown pid =>
    exact (Indifferent.of_lockstep Kernel.honest_teardown
      fun _ _ h => h.teardown pid).operate .teardown
  | writeUser pid va bytes =>
    exact (Indifferent.of_lockstep (Kernel.honest_writeUser va bytes)
      fun _ _ h => h.writeUser pid va bytes).operate .writeUser
  | readUser pid va length =>
    exact ⟨fun _ hs => hs, fun _ _ h _ _ =>
      ⟨congrArg Answer.readUser (h.readUser_eq pid va length), h⟩⟩

/-! ## runs -/

namespace Kernel

/-- what the log has told of a lack it tells in the end -/
theorem starved_after (h : k.Starved) (rs : List Request) : (k.after rs).Starved := by
  induction rs generalizing k with
  | nil => exact h
  | cons r later ih => exact ih ((r.operation.indifferent 0).1 (r.arrive k) h)

/-- twins answer a row of requests alike, and are twins in the end -/
theorem Twins.after (h : Twins size k₁ k₂) (rs : List Request) (hfree₁ : ¬ (k₁.after rs).Starved)
    (hfree₂ : ¬ (k₂.after rs).Starved) :
    k₁.answers rs = k₂.answers rs ∧ Twins size (k₁.after rs) (k₂.after rs) := by
  induction rs generalizing k₁ k₂ with
  | nil => exact ⟨rfl, h⟩
  | cons r later ih =>
    obtain ⟨hanswer, htwins⟩ := (r.operation.indifferent size).2 _ _ (h.arrive r)
      (fun hs => hfree₁ (starved_after hs later)) fun hs => hfree₂ (starved_after hs later)
    obtain ⟨hanswers, hlast⟩ := ih htwins hfree₁ hfree₂
    refine ⟨?_, hlast⟩
    rw [answers, answers]
    exact congrArg₂ List.cons hanswer hanswers

/-- a program has been loaded with all the frames that it needs -/
theorem not_starved_of_succeeded {image : ProgramImage} (hfree : ¬ k.Starved)
    (h : (Operation.setup pid image).outcome k = .succeeded) :
    ¬ ((Operation.setup pid image).perform k).Starved := by
  show ¬ (leave (setup pid image) k).Starved
  have hhonest : Ends (setup pid image) k _ _ := honest_setup image k
  replace h : Outcome.of (fun _ => Outcome.succeeded) (setup pid image k) = .succeeded := h
  cases hrun : setup pid image k with
  | ok a k' =>
    rw [leave_of_ok hrun]
    exact mt (hhonest.ok hrun).1 hfree
  | error e k' =>
    rw [hrun] at h
    cases e <;> cases h

/-- on a machine of any size there are frames for a small program -/
theorem loads_of_started {n : UInt64} (hn : n.toNat ≤ 2 ^ 48) {host : Host} {config : KernelConfig}
    (hlayout : config.layout = .withPhysical n) (hstart : start host config = .started k) :
    ¬ (k.after [{ operation := .setup 1 .bare }]).Starved ∧
      (k.after [{ operation := .setup 1 .bare }]).processes.Runs 1 := by
  have hl : config.layout.Ordered := hlayout ▸ Layout.ordered_withPhysical hn
  obtain ⟨_, hstart', hfree⟩ := exists_started_sized host hlayout hl
  obtain rfl := Startup.started.inj (hstart.symm.trans hstart')
  obtain ⟨hvalid, hconfig, -⟩ := started_valid hl hstart
  have hfirst : config.layout.firstPage = 256 := by
    rw [hlayout]
    exact Layout.firstPage_sized
  have hframes := hl.firstPage_le
  have htables : tablesFor config.layout.frameCount + 139 ≤ config.layout.frameCount := by
    unfold tablesFor
    split <;> omega
  have hunstarved := not_starved_of_started hstart
  obtain ⟨p, hp⟩ := ProcessTable.exists_get? (t := k.processes) (show 1 < slotCount by decide)
  have hvacant := isVacant_of_started hstart hp
  have hbegin : (({ operation := .setup 1 .bare } : Request).arrive k).Valid ∅ :=
    hvalid.of_eq rfl rfl rfl rfl hvalid.current hvalid.shown
  have hsmall : k.layout.firstPage ≤ 512 := by
    rw [layout_of_config hconfig]
    omega
  obtain ⟨houtcome, -, -, s, hcontrol⟩ := setup_bare hbegin Nat.one_ne_zero ⟨p, hp, hvacant⟩ hsmall
    (show 8 ≤ k.freeCount by omega)
  refine ⟨not_starved_of_succeeded hunstarved houtcome, ?_⟩
  have hprocesses : (k.after [{ operation := .setup 1 .bare }]).processes
      = k.processes.update 1 (loadedBare k.layout s) := congrArg Control.processes hcontrol
  rw [hprocesses]
  exact ⟨_, ProcessTable.get?_update_self _ hp, rfl⟩

/-- kernels on machines of different size start, and whatever is asked of both they answer alike and
agree at every step, as long as neither has lacked a frame -/
theorem placement_invisible {n₁ n₂ : UInt64} (hn₁ : n₁.toNat ≤ 2 ^ 48) (hn₂ : n₂.toNat ≤ 2 ^ 48)
    (host : Host) (config : KernelConfig) :
    ∃ k₁ k₂, start host { config with layout := .withPhysical n₁ } = .started k₁ ∧
      start host { config with layout := .withPhysical n₂ } = .started k₂ ∧
      ∀ rs : List Request, ¬ (k₁.after rs).Starved → ¬ (k₂.after rs).Starved →
        k₁.answers rs = k₂.answers rs ∧
          ∀ done, done <+: rs → Agrees (k₁.after done) (k₂.after done) := by
  have hl₁ := Layout.ordered_withPhysical hn₁
  have hl₂ := Layout.ordered_withPhysical hn₂
  have hstarts : ∀ n : UInt64, (Layout.withPhysical n).Ordered →
      ∃ k, start host { config with layout := .withPhysical n } = .started k := fun n hl =>
    (exists_started_sized host rfl hl).imp fun _ h => h.1
  obtain ⟨k₁, h₁⟩ := hstarts n₁ hl₁
  obtain ⟨k₂, h₂⟩ := hstarts n₂ hl₂
  have htwins : Twins (Layout.withPhysical n₂).physicalSize k₁ k₂ :=
    .of_started h₁ h₂ hl₁ hl₂ (Layout.sparesNull_withPhysical n₁)
  refine ⟨k₁, k₂, h₁, h₂, fun rs hfree₁ hfree₂ => ⟨(htwins.after rs hfree₁ hfree₂).1, ?_⟩⟩
  rintro done ⟨later, rfl⟩
  have hsofar : ∀ k : Kernel, ¬ (k.after (done ++ later)).Starved → ¬ (k.after done).Starved := by
    intro k hfree hs
    rw [after, List.foldl_append] at hfree
    exact hfree (starved_after hs later)
  exact (htwins.after done (hsofar k₁ hfree₁) (hsofar k₂ hfree₂)).2.agrees

theorem placement_invisible_loaded : ∃ k₁ k₂ : Kernel, StartedOn 0x200000 k₁ ∧
    StartedOn 0x40000000 k₂ ∧
    k₁.answers [{ operation := .setup 1 .bare }] = k₂.answers [{ operation := .setup 1 .bare }] ∧
    (k₁.after [{ operation := .setup 1 .bare }]).processes.Runs 1 ∧
    Agrees (k₁.after [{ operation := .setup 1 .bare }])
      (k₂.after [{ operation := .setup 1 .bare }]) := by
  have hn₁ : (0x200000 : UInt64).toNat ≤ 2 ^ 48 := by decide
  have hn₂ : (0x40000000 : UInt64).toNat ≤ 2 ^ 48 := by decide
  obtain ⟨k₁, k₂, h₁, h₂, hall⟩ := placement_invisible hn₁ hn₂ {} {}
  obtain ⟨hfree₁, hruns⟩ := loads_of_started hn₁ rfl h₁
  obtain ⟨hfree₂, -⟩ := loads_of_started hn₂ rfl h₂
  obtain ⟨hanswers, hagrees⟩ := hall _ hfree₁ hfree₂
  exact ⟨k₁, k₂, ⟨{}, _, rfl, h₁⟩, ⟨{}, _, rfl, h₂⟩, hanswers, hruns, hagrees _ List.prefix_rfl⟩

end Kernel

end PagedKernel
