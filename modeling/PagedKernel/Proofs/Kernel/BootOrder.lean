import PagedKernel.Proofs.Control.Steps
import PagedKernel.Proofs.Kernel.Images
import PagedKernel.Proofs.Program.Registry

/-!
# The order of loading

The programs of a registry are loaded one after the other, each into the slot of its place.  The
first that cannot be set up ends it; those before it stay as they are, and nothing of it is left.

* `Kernel.Holds`           a slot holds a program that has not run yet
* `Kernel.Occupied`        the first slots hold programs, and all others are vacant
* `Kernel.LoadsInTurn`     programs are loaded one after the other
* `Kernel.StopsLoading`    one of them cannot be set up
* `Kernel.Booted`          all are loaded, and the first runs
* `Kernel.ends_setupAll_inTurn`, `Kernel.ends_boot_chosen`   one or the other happens
* `Kernel.boots_registered`   what is registered, and how it is booted
-/

namespace PagedKernel

namespace Kernel

variable {k k' k₀ : Kernel} {pid : Nat} {image : ProgramImage} {images done : List ProgramImage}

/-! ## what the slots hold -/

/-- slot `pid` holds a process that is about to start a program, with the memory of the program -/
structure Holds (pid : Pid) (image : ProgramImage) (k : Kernel) : Prop where
  slot : ∃ p, k.processes.get? pid = some p ∧ p.state = .runnable ∧
    p.registers = Registers.entry image.entry.value k.layout.virtualSize
  permissions : image.WellFormed → ∀ va, k.layout.isUserAddress va = true →
    k.permissionsAt pid va = .ok (image.allowed k.layout va.page.number.toNat)
  bytes : image.WellFormed → ∀ va, k.layout.isUserAddress va = true → k.byteAt pid va
    = (image.allowed k.layout va.page.number.toNat).map fun _ => image.shown va.value.toNat

theorem Loads.holds (h : Loads pid image k k') : Holds pid image k' := by
  have hlayout : k'.layout = k.layout := layout_of_config h.serves.config
  obtain ⟨p, hp, hrun, hregisters⟩ := h.slot
  refine ⟨⟨p, hp, hrun, ?_⟩, fun hwell => ?_, fun hwell => ?_⟩
  · rw [hlayout]
    exact hregisters
  · rw [hlayout]
    exact (h.presents hwell).permissions
  · rw [hlayout]
    exact (h.presents hwell).bytes

namespace Holds

theorem runs (h : Holds pid image k) : k.processes.Runs pid := by
  obtain ⟨p, hp, hrun, -⟩ := h.slot
  exact (ProcessTable.runs_iff_state hp).2 hrun

theorem exists_space (h : Holds pid image k) (hk : k.Valid ∅) :
    ∃ s, k.processes.space? pid = some s := by
  obtain ⟨p, hp, hrun⟩ := h.runs
  obtain ⟨s, hs⟩ := Option.isSome_iff_exists.1 (hk.ready pid p hp hrun)
  exact ⟨s, (ProcessTable.space?_of_get? hp).trans hs⟩

theorem loaded (h : Holds pid image k) (hk : k.Valid ∅) : k.Loaded {pid} := by
  intro q hq
  obtain rfl := Finset.mem_singleton.1 hq
  exact Option.isSome_iff_exists.2 (h.exists_space hk)

/-- a process that an operation spares still holds its program -/
theorem spares (h : Holds pid image k) (hk : k.Valid ∅) (hk' : k'.Valid ∅)
    (hspares : Spares {pid} k k') : Holds pid image k' := by
  have hl := hk.sound.ordered
  have hlayout := hspares.layout
  obtain ⟨s, hs⟩ := h.exists_space hk
  have hslot := hspares.slots pid (Finset.mem_singleton_self pid)
  have hs' := (ProcessTable.space?_congr hslot).trans hs
  have hroot : s.root ∈ k.processes.rootsOf {pid} :=
    ProcessTable.mem_rootsOf.2 ⟨pid, Finset.mem_singleton_self pid, hs⟩
  have hview : ∀ va, k.layout.isUserAddress va = true →
      k'.memory.viewAt s.root va.page.number.toNat
        = k.memory.viewAt s.root va.page.number.toNat := by
    intro va hva
    obtain ⟨h₁, h₂⟩ := (hl.isUserAddress_iff va).1 hva
    exact hspares.keeps.viewAt hroot h₁ h₂
  obtain ⟨p, hp, hrun, hregisters⟩ := h.slot
  constructor
  case slot => exact ⟨p, hslot.trans hp, hrun, by rw [hlayout]; exact hregisters⟩
  case permissions =>
    intro hwell va hva
    rw [hlayout] at hva ⊢
    rw [hk'.permissionsAt_eq hs', hview va hva, ← hk.permissionsAt_eq hs]
    exact h.permissions hwell va hva
  case bytes =>
    intro hwell va hva
    have hva' := hva
    rw [hlayout] at hva ⊢
    rw [hk'.byteAt_eq hs' hva', hview va hva, ← hk.byteAt_eq hs hva]
    exact h.bytes hwell va hva

end Holds

/-- the programs `images` are in the slots of their places, the first in slot 1, and all other slots
are vacant -/
structure Occupied (images : List ProgramImage) (k : Kernel) : Prop where
  holds : ∀ (i : Nat) image, images[i]? = some image → Holds (i + 1) image k
  vacant : ∀ (pid : Nat) p, pid = 0 ∨ images.length < pid → k.processes.get? pid = some p →
    p.state = .free ∧ p.space = none

namespace Occupied

theorem nil (h : ∀ pid p, k.processes.get? pid = some p → p.isVacant = true) : Occupied [] k :=
  ⟨nofun, fun pid p _ hp => Process.isVacant_iff.1 (h pid p hp)⟩

/-- the slots of the programs, and no others, can run -/
theorem runs_iff (h : Occupied images k) (pid : Nat) :
    k.processes.Runs pid ↔ 1 ≤ pid ∧ pid ≤ images.length := by
  constructor
  · rintro ⟨p, hp, hrun⟩
    by_contra hout
    obtain ⟨hfree, -⟩ := h.vacant pid p (by omega) hp
    rw [Process.isRunnable_iff, hfree] at hrun
    cases hrun
  · rintro ⟨hpos, hle⟩
    have hplace := List.getElem?_eq_getElem (show pid - 1 < images.length by omega)
    have hruns := (h.holds _ _ hplace).runs
    rw [Nat.sub_add_cancel hpos] at hruns
    exact hruns

/-- one more program is loaded, into the next slot -/
theorem loads (h : Occupied images k) (hk : k.Valid ∅)
    (hloads : Loads (images.length + 1) image k k') : Occupied (images ++ [image]) k' := by
  have hserves := hloads.serves
  constructor
  case holds =>
    intro i x hx
    rcases Nat.lt_or_ge i images.length with hlt | hge
    · rw [List.getElem?_append_left hlt] at hx
      refine (h.holds i x hx).spares hk hserves.valid (hserves.spares _ fun hin => ?_)
      have hsame : images.length + 1 = i + 1 := Finset.mem_singleton.1 hin
      omega
    · have hlast : i = images.length := by
        have hlen := (List.getElem?_eq_some_iff.1 hx).1
        rw [List.length_append, List.length_singleton] at hlen
        omega
      rw [hlast, List.getElem?_concat_length] at hx
      rw [hlast, ← Option.some.inj hx]
      exact hloads.holds
  case vacant =>
    intro pid p hpid hp
    rw [List.length_append, List.length_singleton] at hpid
    exact h.vacant pid p (by omega) ((hserves.get? (by omega)).symm.trans hp)

/-- nothing is done for any process, and no slot is taken -/
theorem confined (h : Occupied images k) (hk : k.Valid ∅) (hconfined : Confined ∅ k k')
    (hlives : ∀ q, (k'.processes.get? q).map Process.life
      = (k.processes.get? q).map Process.life) : Occupied images k' := by
  constructor
  case holds =>
    intro i image hi
    have hheld := h.holds i image hi
    exact hheld.spares hk hconfined.valid
      (hconfined.spares _ (Finset.disjoint_empty_left _) (hheld.loaded hk))
  case vacant =>
    intro pid p hpid hp
    have hlife := hlives pid
    rw [hp, Option.map_some] at hlife
    obtain ⟨p₀, hp₀, heq⟩ := Option.map_eq_some_iff.1 hlife.symm
    have hsame := Process.mk.inj heq
    obtain ⟨hfree, hnone⟩ := h.vacant pid p₀ hpid hp₀
    exact ⟨hsame.2.1.symm.trans hfree, hsame.2.2.1.symm.trans hnone⟩

end Occupied

/-! ## one program after the other -/

/-- programs are loaded one after the other, each into the slot of its place -/
inductive LoadsInTurn (k₀ : Kernel) : List ProgramImage → Kernel → Prop where
  | nil : LoadsInTurn k₀ [] k₀
  | concat {images : List ProgramImage} {k k' : Kernel} (h : LoadsInTurn k₀ images k)
      (image : ProgramImage) (hsetup : setup (images.length + 1) image k = .ok () k') :
      LoadsInTurn k₀ (images ++ [image]) k'

/-- one of `images` cannot be set up.  Those before it are loaded, and what was begun for it is
undone; control is handed to nobody. -/
inductive StopsLoading (k₀ : Kernel) (images : List ProgramImage) : Halt → Kernel → Prop where
  | mk {done later : List ProgramImage} {image : ProgramImage} {k k₁ k' : Kernel}
      {cause : SetupError} (split : images = done ++ image :: later)
      (turns : LoadsInTurn k₀ done k)
      (fails : setup (done.length + 1) image k = .error (.error cause) k₁)
      (occupied : Occupied done k') (undone : Undone k k')
      (activations : k'.control.activations = k₀.control.activations) :
      StopsLoading k₀ images (.setup (done.length + 1) cause) k'

theorem LoadsInTurn.eq_of_nil (h : LoadsInTurn k₀ images k) (hnil : images = []) : k = k₀ := by
  cases h with
  | nil => rfl
  | concat => exact absurd hnil (List.append_ne_nil_of_right_ne_nil _ (List.cons_ne_nil _ _))

/-- where there is but one program, it is the one that cannot be set up -/
theorem StopsLoading.setup_eq {e : Halt} (h : StopsLoading k₀ [image] e k') :
    ∃ cause k₁, setup 1 image k₀ = .error (.error cause) k₁ := by
  obtain ⟨split, turns, fails, -, -, -⟩ := h
  obtain ⟨rfl, htail⟩ | ⟨_, -, hrest⟩ := List.cons_eq_append_iff.1 split
  · obtain ⟨rfl, -⟩ := List.cons.inj htail
    obtain rfl := turns.eq_of_nil rfl
    exact ⟨_, _, fails⟩
  · cases (List.append_eq_nil_iff.1 hrest.symm).2

/-- programs are being loaded into a kernel that was `k₀`, and so far `images` have been -/
structure Loading (k₀ : Kernel) (images : List ProgramImage) (k : Kernel) : Prop where
  valid : k.Valid ∅
  turns : LoadsInTurn k₀ images k
  occupied : Occupied images k
  config : k.config = k₀.config
  host : k.host = k₀.host

namespace Loading

theorem next (h : Loading k₀ done k) (hsetup : setup (done.length + 1) image k = .ok () k')
    (hloads : Loads (done.length + 1) image k k') : Loading k₀ (done ++ [image]) k' where
  valid := hloads.serves.valid
  turns := h.turns.concat image hsetup
  occupied := h.occupied.loads h.valid hloads
  config := hloads.serves.config.trans h.config
  host := hloads.serves.host.trans h.host

theorem stops {later : List ProgramImage} {k₁ : Kernel} {cause : SetupError} {m : Machine}
    (h : Loading k₀ done k)
    (hsetup : setup (done.length + 1) image k = .error (.error cause) k₁)
    (hconfined : Confined ∅ k k₁) (hundone : Undone k k₁)
    (hretained : Control.Retained k.control k₁.control) (hm : m.toMemory = k₁.memory) :
    StopsLoading k₀ (done ++ image :: later) (.setup (done.length + 1) cause)
      { k₁ with machine := m } := by
  have hrests : Rests k₁ { k₁ with machine := m } := .of_memory hconfined.valid hm
  have hall := hconfined.trans (hrests.confined hconfined.valid)
  obtain ⟨t, -, hcontrol⟩ := hretained
  refine .mk rfl h.turns hsetup (h.occupied.confined h.valid hall hundone.lives)
    ⟨hundone.lives, fun f => ?_, fun f hf => ?_⟩ ?_
  · exact (congrArg (Memory.count · f) hm).trans (hundone.counts f)
  · exact (congrArg (Memory.data · f) hm).trans (hundone.bytes f hf)
  · have hcalls := (congrArg Control.activations hcontrol)
    exact hcalls.trans (congrArg (fun host => host.calls.filterMap HostCall.activation?) h.host)

end Loading

/-- all that are left are loaded as well, or one of them cannot be set up -/
theorem ends_setupAll_inTurn (images : List ProgramImage) (h : Loading k₀ done k) :
    Ends (setupAll (done.length + 1) images) k
      (fun _ k' => Loading k₀ (done ++ images) k')
      (Fails fun e k' => StopsLoading k₀ (done ++ images) e k') := by
  induction images generalizing done k with
  | nil =>
    rw [List.append_nil]
    exact ends_pure.2 h
  | cons image later ih =>
    rw [setupAll, ends_bind, ends_onError]
    refine ((ends_setup h.valid image).and (Control.ends_setup _ image)).mono_eq
      (fun _ k₁ hx hk₁ => ?_) fun e k₁ hx he => ?_
    · have hrest := ih (h.next hx hk₁.1.2.2.2.2.2)
      rw [List.length_append, List.length_singleton, List.append_assoc] at hrest
      exact hrest
    · cases e with
      | panic e => exact he.1.elim
      | error e =>
        obtain ⟨⟨hconfined, hundone, -⟩, hretained⟩ := he
        dsimp only
        rw [ends_bind, ends_lift]
        exact ends_report fun m hm => ends_fail.2
          (h.stops hx hconfined hundone hretained hm)

/-! ## booting -/

/-- all of `images` are loaded, one after the other, and control is handed to the first, once -/
structure Booted (k₀ : Kernel) (images : List ProgramImage) (d : Dispatch) (k : Kernel) :
    Prop where
  turns : ∃ k₁, LoadsInTurn k₀ images k₁ ∧ Rests k₁ k
  occupied : Occupied images k
  runs : ∀ pid : Nat, k.processes.Runs pid ↔ 1 ≤ pid ∧ pid ≤ images.length
  dispatch : d = .run 1
  current : k.current = 1
  activations : ∃ image s, images[0]? = some image ∧ k.processes.space? 1 = some s ∧
    k.control.activations = (1, Registers.entry image.entry.value k.layout.virtualSize, s)
      :: k₀.control.activations

/-- the first of the programs that were loaded is run -/
theorem Loading.ends_run (h : Loading k₀ images k) (hne : images ≠ [])
    (hnull : k₀.layout.SparesNull) :
    Ends (run 1) k (Booted k₀ images) fun _ _ => False := by
  obtain ⟨image, rest, rfl⟩ := List.exists_cons_of_ne_nil hne
  have hheld := h.occupied.holds 0 image rfl
  have hspares : k.layout.SparesNull := by
    rw [layout_of_config h.config]
    exact hnull
  refine ((Kernel.ends_run h.valid).and (Control.ends_run 1)).mono (fun d k' hk' => ?_)
    fun e k' he => ?_
  · obtain ⟨⟨rfl, -, -, hcurrent, hrests, -⟩, -, p, s, hp, hrun, hs, hcontrol⟩ := hk'
    have hoccupied := h.occupied.confined h.valid (hrests.confined h.valid) fun q => by
      rw [hrests.processes]
    obtain ⟨p', hp', -, hregisters⟩ := hheld.slot
    obtain rfl := Option.some.inj (hp.symm.trans hp')
    refine ⟨⟨k, h.turns, hrests⟩, hoccupied, hoccupied.runs_iff, rfl, hcurrent, image, s, rfl,
      ?_, ?_⟩
    · rw [hrests.processes]
      exact (ProcessTable.space?_of_get? hp).trans hs
    · have hcalls := congrArg Control.activations hcontrol
      have hhost : k.control.activations = k₀.control.activations :=
        congrArg (fun host => host.calls.filterMap HostCall.activation?) h.host
      have hlayout : k'.layout = k.layout := layout_of_config hrests.config
      rw [hcalls, hlayout, ← hregisters, ← hhost]
  · cases e with
    | panic e => exact he.1
    | error e =>
      rcases he.1 with ⟨-, hnot, -⟩ | ⟨-, hnot, -⟩
      · exact hnot hheld.runs
      · exact hnot hspares

/-- the programs that were chosen are loaded and the first is run, or one cannot be set up -/
theorem ends_boot_chosen {registry : ProgramRegistry} {command : Option String}
    (h : Loading k₀ [] k₀) (hnull : k₀.layout.SparesNull)
    (hchosen : chosen registry command = .ok images) (hne : images ≠ [])
    (hfew : images.length < slotCount) :
    Ends (boot registry command) k₀ (Booted k₀ images)
      (Fails fun e k' => StopsLoading k₀ images e k') := by
  unfold boot
  rw [ends_bind, hchosen, ends_ofResult_ok]
  refine ends_ite.2 ⟨fun hmany => absurd hfew (Nat.not_lt.2 hmany), fun _ => ?_⟩
  rw [ends_bind]
  refine (ends_setupAll_inTurn images h).mono (fun _ k₁ hk₁ => ?_) fun _ _ he => he
  exact (hk₁.ends_run hne hnull).mono (fun _ _ hk' => hk') fun _ _ he => he.elim

variable {host : Host} {config : KernelConfig} {r : ProgramRegistry}

/-- in a kernel that has started nothing is loaded yet -/
theorem loading_of_started (hl : config.layout.Ordered) (h : start host config = .started k) :
    Loading k [] k where
  valid := (started_valid hl h).1
  turns := .nil
  occupied := .nil fun _ _ hp => isVacant_of_started h hp
  config := rfl
  host := rfl

theorem boot_of_many (h : slotCount ≤ r.size) :
    boot r none k = .error (.error (.tooManyPrograms r.size)) k := by
  have hends : Ends (boot r none) k (fun _ _ => False)
      fun e k' => e = .error (.tooManyPrograms r.size) ∧ k' = k := by
    unfold boot
    rw [ends_bind]
    exact ends_ite.2 ⟨fun _ => ends_fail.2 ⟨rfl, rfl⟩, fun hfew => absurd h hfew⟩
  obtain ⟨_, _, hx, rfl, rfl⟩ := hends.exists_error
  exact hx

theorem boot_of_none (h : start host config = .started k) (hr : r.size = 0) :
    boot r none k = .error (.error (.notRunnable 1)) k := by
  obtain ⟨machine, space, rfl⟩ := eq_of_started h
  obtain ⟨programs⟩ := r
  obtain rfl := List.eq_nil_of_length_eq_zero hr
  rfl

theorem boot_of_unknown {name : String} (h : r.get? name = none) :
    boot r (some name) k = .error (.error (.unknownProgram name)) k := by
  have hchosen : chosen r (some name) = .error (.unknownProgram name) := by
    rw [chosen, h]
  unfold boot
  exact bind_of_error (by rw [hchosen]; rfl)

/-- A registry has for each name what was registered last under it, in the order in which the names
first came up.  A kernel that has just started loads the programs in that order, or the one that
the command names.  Too many programs, none, and a name that is not known are refused at once, with
nothing loaded.

Loading is described for machines of at most `2 ^ 48` bytes, on which every frame of memory has a
page of its own in the kernel's space. -/
theorem boots_registered (collected later : List ProgramImage) {n : UInt64}
    (hr : later.foldl ProgramRegistry.register (.ofList collected) = r)
    (hlayout : config.layout = .withPhysical n) (hstart : start host config = .started k) :
    r.Collects (collected ++ later) ∧
    (slotCount ≤ r.size → boot r none k = .error (.error (.tooManyPrograms r.size)) k) ∧
    (r.size = 0 → boot r none k = .error (.error (.notRunnable 1)) k) ∧
    (∀ name, r.get? name = none →
      boot r (some name) k = .error (.error (.unknownProgram name)) k) ∧
    (n.toNat ≤ 2 ^ 48 →
      (0 < r.size → r.size < slotCount →
        Ends (boot r none) k (Booted k r.programs)
          (Fails fun e k' => StopsLoading k r.programs e k')) ∧
      ∀ name image, r.get? name = some image →
        Ends (boot r (some name)) k (Booted k [image])
          (Fails fun e k' => StopsLoading k [image] e k')) := by
  refine ⟨hr ▸ ProgramRegistry.collects_foldl collected later, boot_of_many,
    boot_of_none hstart, fun _ => boot_of_unknown, fun hn => ?_⟩
  have hl : config.layout.Ordered := hlayout ▸ Layout.ordered_withPhysical hn
  have hloading := loading_of_started hl hstart
  have hnull : k.layout.SparesNull := by
    rw [layout_of_config (started_valid hl hstart).2.1, hlayout]
    exact Layout.sparesNull_withPhysical n
  refine ⟨fun hpos hfew => ?_, fun name image hname => ?_⟩
  · exact ends_boot_chosen hloading hnull rfl (List.ne_nil_of_length_pos hpos) hfew
  · have hchosen : chosen r (some name) = .ok [image] := by
      rw [chosen, hname]
    exact ends_boot_chosen hloading hnull hchosen (List.cons_ne_nil _ _)
      (show 1 < slotCount by decide)

/-- two programs, of which the first is registered again: its place stays, and it is what a command
that names it runs -/
theorem boots_registered_again : ∃ (k₀ k : Kernel) (r : ProgramRegistry) (init : ProgramImage),
    StartedOn 0x200000 k₀ ∧ r.programs.map ProgramImage.name = ["init", "shell"] ∧
    r.get? "init" = some init ∧ init.entry = ⟨0x1000⟩ ∧
    Ends (boot r none) k₀ (Booted k₀ r.programs)
      (Fails fun e k' => StopsLoading k₀ r.programs e k') ∧
    boot r (some "init") k₀ = .ok (.run 1) k ∧ Booted k₀ [init] (.run 1) k := by
  have hn : (0x200000 : UInt64).toNat ≤ 2 ^ 48 := by decide
  have hframes : (Layout.withPhysical 0x200000).frameCount = 512 := by decide +kernel
  let init : ProgramImage := { ProgramImage.bare with name := "init", entry := ⟨0x1000⟩ }
  let collected : List ProgramImage :=
    [{ ProgramImage.bare with name := "init" }, { ProgramImage.bare with name := "shell" }]
  obtain ⟨k₀, h₀, hspare⟩ := StartedOn.exists_started hn
  have htables := tablesFor_le_three (Nat.le_of_eq hframes)
  have hfirst : (Layout.withPhysical 0x200000).firstPage = 256 := Layout.firstPage_sized
  have hcost : init.cost (.withPhysical 0x200000) ≤ 7 :=
    ProgramImage.cost_le_of_nil rfl (by omega)
  obtain ⟨k₁, hsetup, -⟩ := h₀.exists_loaded init hn (ProgramImage.fits_of_nil rfl) (by omega)
  obtain ⟨host, config, hlayout, hstart⟩ := h₀
  obtain ⟨hcollects, -, -, -, hboots⟩ :=
    boots_registered collected [init] rfl hlayout hstart
  obtain ⟨hall, hone⟩ := hboots hn
  have hget := (hcollects.get? "init").trans (show _ = some init from rfl)
  -- the program can be set up, so that nothing stops its loading
  have hbooted : Ends (boot _ (some "init")) k₀ (Booted k₀ [init]) Never :=
    (hone "init" init hget).mono (fun _ _ hk => hk) fun e k' he => by
      cases e with
      | panic e => exact he
      | error e =>
        obtain ⟨_, _, hfails⟩ := he.setup_eq
        cases hsetup.symm.trans hfails
  obtain ⟨d, k, hx, hk⟩ := hbooted.exists_ok
  obtain rfl := hk.dispatch
  exact ⟨k₀, k, _, init, ⟨host, config, hlayout, hstart⟩, hcollects.names.trans rfl, hget, rfl,
    hall (by decide) (by decide), hx, hk⟩

end Kernel

end PagedKernel
