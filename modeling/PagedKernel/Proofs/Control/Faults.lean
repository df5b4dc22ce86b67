import PagedKernel.Proofs.Control.Lives
import PagedKernel.Proofs.Kernel.Accesses
import PagedKernel.Proofs.Kernel.Duplication
import PagedKernel.Proofs.Kernel.Images
import PagedKernel.Proofs.Paging.Accesses
import PagedKernel.Proofs.Simulation.Entries

/-!
# Faults of processes

An access that is refused is reported as what it is.  The report stops the process that made the
access, for good and alone: memory and the other processes stay as they are.

* `Kernel.Refuses`         the kernel refuses an access of a process
* `Kernel.Tells`           what the report says of the access
* `Kernel.Breaks`          the process is broken, and the next one runs
* `StaysBroken`            it does not run again until it is taken down
* `Kernel.SharesPage`      a page that a fork shares
* `Session.contained`      all of this, in every state of a session
-/

namespace PagedKernel

variable {k₀ k k' : Kernel} {op : Operation} {past later : List (Kernel × Operation)} {pid q : Nat}
  {p : Process} {s : AddressSpace} {a : Access} {fault : UserFault} {r : Registers}
  {host : Host} {config : KernelConfig}

/-! ## reports -/

namespace Kernel

/-- the kernel refuses an access of process `pid` and reports `fault`; this leaves `k'` -/
inductive Refuses (k : Kernel) (pid : Pid) : Access → UserFault → Kernel → Prop where
  | read (va length part fault) (h : k.readUser pid va length = .ok (part, some fault)) :
      Refuses k pid .userRead fault k
  | write (va bytes fault k') (h : writeUser pid va bytes k = .error (.error fault) k') :
      Refuses k pid .userWrite fault k'

/-- the report says of the access that a process made it, whether it was a write, and whether
anything is mapped there -/
structure Tells (k : Kernel) (pid : Pid) (a : Access) (fault : UserFault) : Prop where
  user : fault.code.user = true
  write : fault.code.write = a.write
  present : ∃ found, k.lookup pid fault.va = .ok found ∧ fault.code.present = found.isSome

theorem Denies.tells (h : k.Denies pid a fault) (ha : a.user = true) : k.Tells pid a fault := by
  obtain ⟨found, hfound, hcode⟩ := h.code
  obtain ⟨huser, hwrite, hpresent⟩ := FaultCode.ofAccess_flags a found.isSome
  rw [← hcode] at huser hwrite hpresent
  exact ⟨huser.trans ha, hwrite, found, hfound, hpresent⟩

theorem Refuses.tells (h : k.Refuses pid a fault k') (hk : k.Valid ∅)
    (hs : k.processes.space? pid = some s) : k.Tells pid a fault := by
  cases h with
  | read va length part fault h =>
    obtain ⟨part', refusal, hread, hrefusal⟩ := hk.readUser_ok hs va length
    obtain ⟨rfl, rfl⟩ := Prod.mk.inj (Except.ok.inj (h.symm.trans hread))
    exact (hk.denies hs hrefusal).tells rfl
  | write va bytes fault k' h =>
    exact (hk.denies hs ((hk.ends_writes hs va bytes).error h)).tells rfl

/-- a refused access leaves what a write leaves -/
theorem Refuses.writes (h : k.Refuses pid a fault k') (hk : k.Valid ∅) : Writes pid k k' := by
  cases h with
  | read va length part fault h => exact .refl hk
  | write va bytes fault k' h => exact ((ends_writeUser hk va bytes).error h).1

theorem Refuses.control (h : k.Refuses pid a fault k') : k'.control = k.control := by
  cases h with
  | read va length part fault h => rfl
  | write va bytes fault k' h => exact (Calm.writeUser pid va bytes k).error h

theorem Writes.lookup (h : Writes pid k k') (hk : k.Valid ∅)
    (hs : k.processes.space? pid = some s) (va : VirtualAddress) :
    k'.lookup pid va = k.lookup pid va := by
  rw [h.serves.valid.lookup_eq (h.processes ▸ hs), hk.lookup_eq hs, h.pages s hs]

/-! ## the process that made the access -/

/-- whom control goes to after slot `c`: the first process that can run, going round the table, or
nobody if none can -/
def Follows (t : ProcessTable slotCount) (c : Pid) : Dispatch → Prop
  | .run q => ∃ step, 0 < step ∧ step ≤ slotCount ∧ q = (c + step) % slotCount ∧ t.Runs q ∧
      ∀ s, 0 < s → s < step → ¬ t.Runs ((c + s) % slotCount)
  | .idle => ∀ q, ¬ t.Runs q

theorem follows_of_nextRunnable {t : ProcessTable slotCount} {c : Pid} (hc : c < slotCount)
    (h : nextRunnable t c = .ok (some q)) : Follows t c (.run q) := by
  rcases nextRunnable_first t hc (by decide) with ⟨next, hfirst, heq⟩ | ⟨-, heq⟩
  · obtain rfl := Option.some.inj (Except.ok.inj (h.symm.trans heq))
    exact hfirst
  · cases h.symm.trans heq

/-- the kernel when the processor has reported `fault` to the host -/
def reported (k : Kernel) (fault : UserFault) : Kernel :=
  { k with host := { k.host with faultAddress := fault.va } }

/-- the current process of `k` is broken and keeps its address space, and control goes to the next
one; nothing else happens to memory or to a process -/
structure Breaks (r : Registers) (k : Kernel) (d : Dispatch) (k' : Kernel) : Prop where
  broken : ∃ p, k.processes.get? k.current = some p ∧
    k'.processes.get? k.current = some { p with registers := r, state := .broken }
  others : ∀ q, q ≠ k.current → k'.processes.get? q = k.processes.get? q
  memory : k'.memory = k.memory
  handed : Control.HandsOver { k.control with processes := k'.processes } d k'.control
  follows : Follows k'.processes k.current d

theorem exists_breaks (h : k.Unhindered) (ho : Orderly k.control)
    (hruns : k.processes.Runs k.current) (hr : r.intno = Trap.pageFaultVector)
    (huser : (FaultCode.mk r.errcode).user = true) :
    ∃ d k', exception r k = .ok d k' ∧ Breaks r k d k' := by
  obtain ⟨d, k', heq, hmemory, hprocesses⟩ := (ends_userFault h hr huser).exists_ok
  have houtcome : (Operation.exception r).outcome k = .dispatched d :=
    congrArg (Outcome.of .dispatched) heq
  have hperform : (Operation.exception r).perform k = k' := leave_of_ok heq
  obtain ⟨-, hended, hmoves⟩ := (Operation.exception r).effect ho hruns (.of_dispatched houtcome)
  rw [houtcome, hperform] at hended hmoves
  refine ⟨d, k', heq, ?_, fun q hq => ?_, hmemory, hended, ?_⟩
  · obtain ⟨p, hp, -⟩ := hruns
    rw [hprocesses]
    exact ⟨p, hp, ProcessTable.get?_update_self _ hp⟩
  · rw [hprocesses]
    exact ProcessTable.get?_update_of_ne _ hq
  · cases d with
    | run q =>
      exact follows_of_nextRunnable ho.current (hmoves.next (.inr ⟨hr, huser⟩) q rfl)
    | idle => exact hended.2

end Kernel

/-! ## until it is taken down -/

/-- slot `q` holds a broken process with the address space `space` -/
def HoldsBroken (t : ProcessTable slotCount) (q : Pid) (space : Option AddressSpace) : Prop :=
  ∃ p, t.get? q = some p ∧ p.state = .broken ∧ p.space = space

theorem HoldsBroken.not_runs {t : ProcessTable slotCount} {space : Option AddressSpace}
    (h : HoldsBroken t q space) : ¬ t.Runs q := by
  obtain ⟨p, hp, hbroken, -⟩ := h
  rw [ProcessTable.runs_iff_state hp, hbroken]
  nofun

/-- an operation leaves a broken process broken, unless it takes it down -/
theorem Operation.holdsBroken {space : Option AddressSpace} (ho : Orderly k.control)
    (hdue : op.Delivered k) (hgo : op.Completes k) (h : HoldsBroken k.processes q space)
    (hnot : op ≠ .teardown q) : HoldsBroken (op.perform k).processes q space := by
  obtain ⟨p, hp, hbroken, hspace⟩ := id h
  obtain ⟨hevolves, -⟩ := op.effect ho hdue hgo
  obtain ⟨p', hp', hturn⟩ := hevolves q p hp
  rcases hturn.broken hbroken with ⟨hbroken', hspace'⟩ | hfrees
  · exact ⟨p', hp', hbroken', hspace'.trans hspace⟩
  · -- a process that leaves by a call can run
    cases op with
    | teardown pid =>
      obtain rfl : q = pid := hfrees
      exact absurd rfl hnot
    | syscall r =>
      obtain ⟨rfl, -⟩ := hfrees
      exact absurd hdue h.not_runs
    | _ => exact hfrees.elim

/-- until process `pid` is taken down it is broken, keeps the address space `space`, and control
does not go to it -/
def StaysBroken (k : Kernel) (pid : Pid) (space : Option AddressSpace) : Prop :=
  ∀ later k', Session k later k' → (∀ x ∈ later, x.2 ≠ .teardown pid) →
    HoldsBroken k'.processes pid space ∧
    (∀ x ∈ later, x.2.outcome x.1 ≠ .dispatched (.run pid)) ∧
    k'.control.activations.filter (fun a => decide (a.1 = pid))
      = k.control.activations.filter fun a => decide (a.1 = pid)

theorem StaysBroken.of_holdsBroken {space : Option AddressSpace} (ho : Orderly k.control)
    (hbroken : HoldsBroken k.processes q space) : StaysBroken k q space := by
  intro later k' h hnot
  induction h with
  | start => exact ⟨hbroken, fun _ hx => absurd hx List.not_mem_nil, rfl⟩
  | @operate later k₁ h op hdue hgo ih =>
    obtain ⟨hhere, hstays⟩ := List.forall_mem_cons.1 hnot
    obtain ⟨hbroken₁, hnobody, hsilent⟩ := ih hstays
    have ho₁ := h.orderly ho
    have hbroken₂ := Operation.holdsBroken ho₁ hdue hgo hbroken₁ hhere
    obtain ⟨-, hended, -⟩ := op.effect ho₁ hdue hgo
    refine ⟨hbroken₂, List.forall_mem_cons.2 ⟨fun hrun => ?_, hnobody⟩,
      (hended.silent hgo hbroken₂.not_runs).trans hsilent⟩
    rw [hrun] at hended
    exact hbroken₂.not_runs hended.runs
  | host _ host hcalls ih =>
    obtain ⟨hbroken₁, hnobody, hsilent⟩ := ih hnot
    exact ⟨hbroken₁, hnobody, by rw [control_host hcalls]; exact hsilent⟩

/-! ## pages that a fork shares -/

namespace Kernel

/-- process `pid` shares the page of `va`, or a fork would share it: it cannot be written, or
several pages map its frame, or another process maps the same there -/
structure SharesPage (k : Kernel) (pid : Pid) (va : VirtualAddress) (m : Mapping) : Prop where
  user : k.layout.isUserAddress va = true
  mapped : k.lookup pid va = .ok (some m)
  shared : m.permissions.writable = false ∨ 1 < k.memory.count m.frame ∨
    ∃ q ≠ pid, k.lookup q va = .ok (some m)

variable {va place : VirtualAddress} {m : Mapping} {i : Nat} {bytes : ByteArray}

theorem SharesPage.not_writable (h : k.SharesPage pid va m) (hk : k.Valid ∅)
    (hs : k.processes.space? pid = some s) : m.permissions.writable = false := by
  have hpage := hk.pageAt_of_lookup hs h.mapped
  have hroot := ProcessTable.root_mem hs
  obtain ⟨h₁, h₂⟩ := (hk.sound.ordered.isUserAddress_iff va).1 h.user
  rcases h.shared with hro | hmany | ⟨q, hq, hother⟩
  · exact hro
  · by_contra hw
    rw [Bool.not_eq_false] at hw
    have hone := hk.sound.count_writable hroot h₁ h₂ hpage hw
    omega
  · obtain ⟨-, s', hs', hroot', hpage'⟩ := hk.of_lookup hother
    obtain ⟨-, hsame | hro⟩ :=
      hk.sound.shared _ hroot _ hroot' _ _ _ _ _ h₁ h₂ h₁ h₂ hpage hpage'
    · have hspaces : s = s' := congrArg AddressSpace.mk hsame
      exact absurd (hk.distinct q pid s' hs' (hspaces ▸ hs)) hq
    · exact hro

/-- a write to such a page is refused, and its frame keeps its bytes -/
theorem SharesPage.writeUser (h : k.SharesPage pid place m) (hk : k.Valid ∅)
    (hs : k.processes.space? pid = some s) (hi : i < bytes.size)
    (hplace : place.value.toNat = (va.value.toNat + i) % 2 ^ 48) :
    ∃ fault k', writeUser pid va bytes k = .error (.error fault) k' ∧
      k'.memory.data m.frame = k.memory.data m.frame := by
  have hro := h.not_writable hk hs
  have hpage := hk.pageAt_of_lookup hs h.mapped
  have hroot := ProcessTable.root_mem hs
  obtain ⟨h₁, h₂⟩ := (hk.sound.ordered.isUserAddress_iff place).1 h.user
  have hrefuses : AddressSpace.refuses m.permissions .userWrite = true := by
    rw [AddressSpace.refuses, hro]
    exact Bool.or_true _
  have hdenied : ¬ AddressSpace.Granted k.memory s.root (.process .userWrite) va bytes.size := by
    intro hgranted
    obtain ⟨f, p, hpage', hgrant⟩ := hgranted i hi
    have hsame : (va.value.toNat + i) / 4096 % 2 ^ 36 = place.page.number.toNat := by
      rw [place.toNat_page, hplace]
      omega
    rw [← Memory.pageAt_mod, hsame, hpage] at hpage'
    cases hpage'
    rw [Memory.grants, hrefuses] at hgrant
    cases hgrant
  have hends := ((hk.ends_writes hs va bytes).and (ends_writeUser hk va bytes)).mono
    (fun _ _ hw => hdenied hw.1) fun _ _ he => he
  obtain ⟨e, k', heq, he⟩ := hends.exists_error
  cases e with
  | panic e => exact he.1.elim
  | error fault =>
    refine ⟨fault, k', heq, ?_⟩
    by_contra hchanged
    obtain ⟨s', hs', ⟨n, p, hn₁, hn₂, hpage', hw⟩ | hconsole⟩ := he.2.1.writable m.frame hchanged
    · obtain rfl := Option.some.inj (hs.symm.trans hs')
      obtain ⟨rfl, -⟩ := hk.sound.shared _ hroot _ hroot _ _ _ _ _ hn₁ hn₂ h₁ h₂ hpage' hpage
      cases hpage.symm.trans hpage'
      cases hro.symm.trans hw
    · have hmanages := (hk.sound.of_page hroot h₁ h₂ hpage).2.1
      rw [hconsole, AddressSpace.not_manages_console hk.sound] at hmanages
      cases hmanages

end Kernel

/-! ## all states -/

/-- what comes of an access of the current process that is refused, with the report `fault`, and
leaves `k'` -/
structure Contained (k : Kernel) (a : Access) (fault : UserFault) (k' : Kernel) : Prop where
  tells : k.Tells k.current a fault
  /-- the process maps what it mapped -/
  lookup : ∀ va, k'.lookup k.current va = k.lookup k.current va
  /-- nobody has run meanwhile -/
  control : k'.control = k.control
  /-- the trap that is raised then is dealt with, and the process does not run again -/
  delivered : ∀ r : Registers, r.intno = Trap.pageFaultVector → r.errcode = fault.code.bits →
    ∃ d k'', Kernel.exception r (k'.reported fault) = .ok d k'' ∧
      Kernel.Breaks r (k'.reported fault) d k'' ∧
      StaysBroken k'' k.current (k.processes.space? k.current)

theorem Kernel.Refuses.containment {k' : Kernel} (h : k.Refuses k.current a fault k')
    (hk : k.Unhindered) (ho : Orderly k.control) (hruns : k.processes.Runs k.current) :
    Contained k a fault k' := by
  have hvalid := hk.valid
  obtain ⟨s, hs⟩ := Option.isSome_iff_exists.1 (Kernel.isSome_space?_of_runs hvalid hruns)
  have htells := h.tells hvalid hs
  have hwrites := h.writes hvalid
  have hcontrol := h.control
  refine ⟨htells, hwrites.lookup hvalid hs, hcontrol, fun r hr hcode => ?_⟩
  have hserves := hwrites.serves
  have hreported : (k'.reported fault).Unhindered :=
    hk.of_config (hserves.valid.of_eq rfl rfl rfl rfl hserves.valid.current hserves.valid.shown)
      hserves.config ((congrArg Host.abortAfter hserves.host).trans hk.patient)
  have hsame : (k'.reported fault).control = k.control := hcontrol
  have hcurrent : (k'.reported fault).current = k.current := hserves.current
  have hprocesses : (k'.reported fault).processes = k.processes := hwrites.processes
  have huser : (FaultCode.mk r.errcode).user = true := by
    rw [hcode]
    exact htells.user
  have ho' : Orderly (k'.reported fault).control := hsame ▸ ho
  have hruns' : (k'.reported fault).processes.Runs (k'.reported fault).current := by
    rw [hprocesses, hcurrent]
    exact hruns
  obtain ⟨d, k'', heq, hbreaks⟩ := Kernel.exists_breaks hreported ho' hruns' hr huser
  refine ⟨d, k'', heq, hbreaks, .of_holdsBroken ?_ ?_⟩
  · have hperform : (Operation.exception r).perform (k'.reported fault) = k'' := leave_of_ok heq
    rw [← hperform]
    exact ho'.perform hruns' (.of_dispatched (congrArg (Outcome.of .dispatched) heq))
  · obtain ⟨p, hp, hbroken⟩ := hbreaks.broken
    rw [hcurrent] at hp hbroken
    rw [hprocesses] at hp
    exact ⟨_, hbroken, rfl, (ProcessTable.space?_of_get? hp).symm⟩

/-- Faults of processes are contained.  An access of the current process that is refused is reported
as what it is, and the trap stops that process alone.  A write to a page that a fork shares is
refused before a byte of the page is stored. -/
theorem Session.contained {size : UInt64} (h₀ : Kernel.start host config = .started k₀)
    (hlayout : config.layout = .withPhysical size) (hn : size.toNat ≤ 2 ^ 48)
    (hlimit : config.idleLimit ≠ none) (h : Session k₀ past k) (hpatient : k.host.abortAfter = none)
    (hruns : k.processes.Runs k.current) :
    (∀ a fault k', k.Refuses k.current a fault k' → Contained k a fault k') ∧
    ∀ (va place : VirtualAddress) (bytes : ByteArray) (i : Nat) (m : Mapping), i < bytes.size →
      place.value.toNat = (va.value.toNat + i) % 2 ^ 48 → k.SharesPage k.current place m →
      ∃ fault k', Kernel.writeUser k.current va bytes k = .error (.error fault) k' ∧
        k'.memory.data m.frame = k.memory.data m.frame ∧ Contained k .userWrite fault k' := by
  obtain ⟨hvalid, hconfig⟩ := h.valid h₀ (hlayout ▸ Layout.ordered_withPhysical hn)
  have hnull : k.layout.SparesNull := by
    rw [Kernel.layout_of_config hconfig, hlayout]
    exact Layout.sparesNull_withPhysical size
  have hk : k.Unhindered := ⟨hvalid, hnull, hconfig ▸ hlimit, hpatient⟩
  have ho := h.orderly (.of_started h₀)
  refine ⟨fun a fault k' hrefuses => hrefuses.containment hk ho hruns,
    fun va place bytes i m hi hplace hshares => ?_⟩
  obtain ⟨s, hs⟩ := Option.isSome_iff_exists.1 (Kernel.isSome_space?_of_runs hvalid hruns)
  obtain ⟨fault, k', hwrite, hdata⟩ := hshares.writeUser hvalid hs hi hplace
  have hrefuses := Kernel.Refuses.write va bytes fault k' hwrite
  exact ⟨fault, k', hwrite, hdata, hrefuses.containment hk ho hruns⟩

/-! ## a program and its child -/

theorem Kernel.Rests.lookup (h : Kernel.Rests k k') (pid : Pid) (va : VirtualAddress) :
    k'.lookup pid va = k.lookup pid va := by
  unfold Kernel.lookup
  rw [h.processes, h.memory]

theorem Kernel.SharesPage.of_rests {va : VirtualAddress} {m : Mapping}
    (h : k.SharesPage pid va m) (hrests : Kernel.Rests k k') : k'.SharesPage pid va m := by
  obtain ⟨huser, hmapped, hshared⟩ := h
  refine ⟨?_, (hrests.lookup pid va).trans hmapped, ?_⟩
  · rw [Kernel.layout_of_config hrests.config]
    exact huser
  · rw [hrests.memory]
    exact hshared.imp_right (Or.imp_right fun ⟨q, hq, hother⟩ =>
      ⟨q, hq, (hrests.lookup q va).trans hother⟩)

/-- what a process cannot write it shares with its child -/
theorem Kernel.Duplicates.sharesPage {parent child : Pid} {va : VirtualAddress} {m : Mapping}
    (h : Kernel.Duplicates parent child k k') (hk : k.Valid ∅) (hlayout : k'.layout = k.layout)
    (hva : k.layout.isUserAddress va = true) (hm : k.lookup parent va = .ok (some m))
    (hro : m.permissions.writable = false) : k'.SharesPage parent va m := by
  obtain ⟨hchild, -⟩ := h.shared va m hva hm hro
  refine ⟨hlayout ▸ hva, (h.kept va).trans hm, .inr (.inr ⟨child, ?_, hchild⟩)⟩
  rintro rfl
  obtain ⟨p, hp, hvacant, -⟩ := h.vacant
  obtain ⟨-, s, hs, -⟩ := hk.of_lookup hm
  rw [ProcessTable.space?_of_get? hp, (Process.isVacant_iff.1 hvacant).2] at hs
  cases hs

theorem Kernel.exists_of_permissionsAt {va : VirtualAddress} {perms : Permissions}
    (h : k.permissionsAt pid va = .ok (some perms)) :
    ∃ m, k.lookup pid va = .ok (some m) ∧ m.permissions = perms := by
  unfold Kernel.permissionsAt at h
  cases hm : k.lookup pid va with
  | error e =>
    rw [hm] at h
    cases h
  | ok found =>
    rw [hm] at h
    obtain ⟨m, rfl, hperms⟩ := Option.map_eq_some_iff.1 (Except.ok.inj h)
    exact ⟨m, rfl, hperms⟩

/-- a process can be duplicated while there are frames for all pages that it could have -/
theorem Kernel.Valid.exists_fork {parent : Pid} (h : k.Valid ∅)
    (hspace : k.processes.space? parent ≠ none) (hfirst : k.processes.firstFree? ≠ none)
    (hfree : AddressSpace.copyCost k.layout k.layout.endPage + 1 ≤ k.freeCount) :
    ∃ child k', Kernel.fork parent k = .ok child k' ∧ Kernel.Forks parent k k' ∧
      Kernel.Begets parent child k k' := by
  refine Ends.exists_ok ((Kernel.ends_fork h).mono (fun _ _ hk' => hk') fun e k' he => ?_)
  cases e with
  | panic e => exact he.elim
  | error e => exact absurd (he.1.2 hspace hfirst) (Nat.not_lt.2 hfree)

/-- on a machine with sixteen mebibytes a program can be loaded and forks -/
theorem Session.exists_child : ∃ (k₀ k : Kernel) (past : List (Kernel × Operation)) (m : Mapping),
    Kernel.start {} { layout := .withPhysical 0x1000000, idleLimit := some ⟨4, by decide⟩ }
      = .started k₀ ∧ Session k₀ past k ∧
    past.map Prod.snd = [.fork 1, .setup 1 .overlapping] ∧ k.processes.Runs 1 ∧
    k.SharesPage 1 ⟨0x100000⟩ m := by
  have hn : (0x1000000 : UInt64).toNat ≤ 2 ^ 48 := by decide
  have hl := Layout.ordered_withPhysical hn
  have hframes : (Layout.withPhysical 0x1000000).frameCount = 4096 := by decide +kernel
  have htables : tablesFor 4096 = 24 := by decide
  let config : KernelConfig :=
    { layout := .withPhysical 0x1000000, idleLimit := some ⟨4, by decide⟩ }
  have hsized : config.layout = .sized (Layout.withPhysical 0x1000000).physicalSize := rfl
  obtain ⟨k₀, hstart, hfree⟩ := Kernel.exists_started_sized {} hsized hl
  rw [show config.layout.frameCount = 4096 from hframes, htables] at hfree
  have h₀ : Kernel.StartedOn 0x1000000 k₀ := ⟨{}, config, rfl, hstart⟩
  have hlayout₀ := (h₀.valid hn).2.1
  have hcost := ProgramImage.cost_overlapping 0x1000000
  obtain ⟨k₁, hsetup, -, hloads, ⟨p, hp, hvacant⟩, hfree₁⟩ := h₀.exists_loaded .overlapping hn
    (ProgramImage.fits_overlapping hl) (by omega)
  have hup : (Operation.setup 1 .overlapping).outcome k₀ = .succeeded :=
    congrArg (Outcome.of fun _ => .succeeded) hsetup
  have h₁ := Session.start.operate (.setup 1 .overlapping) trivial (.of_succeeded hup)
  rw [show (Operation.setup 1 .overlapping).perform k₀ = k₁ from leave_of_ok hsetup] at h₁
  obtain ⟨hvalid₁, hconfig₁⟩ := h₁.valid hstart hl
  have hlayout₁ : k₁.layout = .withPhysical 0x1000000 := Kernel.layout_of_config hconfig₁
  -- its first page is not written
  have hro : k₁.permissionsAt 1 ⟨0x100000⟩ = .ok (some .userReadOnly) := by
    rw [(hloads.presents ProgramImage.wellFormed_overlapping).permissions ⟨0x100000⟩
      (by rw [hlayout₀]; decide), hlayout₀]
    decide
  obtain ⟨m, hm, hperms⟩ := Kernel.exists_of_permissionsAt hro
  -- there are frames enough for a copy
  obtain ⟨s, hadopts, -⟩ := hloads.memory
  have hcopy : AddressSpace.copyCost k₁.layout k₁.layout.endPage = 2051 := by
    rw [hlayout₁]
    decide +kernel
  obtain ⟨child, k₂, hfork, hforks, hbegets⟩ := hvalid₁.exists_fork
    (by rw [hadopts.space]; nofun) (ProcessTable.firstFree?_ne_none hp hvacant (by decide))
    (by omega)
  have hforked : (Operation.fork 1).outcome k₁ = .succeeded :=
    congrArg (Outcome.of fun _ => .succeeded) hfork
  have h₂ := h₁.operate (.fork 1) trivial (.of_succeeded hforked)
  rw [show (Operation.fork 1).perform k₁ = k₂ from leave_of_ok hfork] at h₂
  refine ⟨k₀, k₂, _, m, hstart, h₂, rfl, hforks.runs ?_, hbegets.duplicates.sharesPage hvalid₁
    (Kernel.layout_of_config hforks.config) (by rw [hlayout₁]; decide) hm
    (by rw [hperms]; decide)⟩
  obtain ⟨p₁, hp₁, hrunnable, -⟩ := hloads.slot
  exact (ProcessTable.runs_iff_state hp₁).2 hrunnable

/-- the program can then run, on a host that does not stop the kernel -/
theorem Session.exists_forked : ∃ (k₀ k : Kernel) (past : List (Kernel × Operation)) (m : Mapping),
    Kernel.start {} { layout := .withPhysical 0x1000000, idleLimit := some ⟨4, by decide⟩ }
      = .started k₀ ∧ Session k₀ past k ∧
    past.map Prod.snd = [.run 1, .fork 1, .setup 1 .overlapping] ∧ k.current = 1 ∧
    k.host.abortAfter = none ∧ k.processes.Runs 1 ∧ k.SharesPage 1 ⟨0x100000⟩ m := by
  obtain ⟨k₀, k₁, past, m, h₀, h₁, hpast, hruns₁, hshares₁⟩ := Session.exists_child
  have hn : (0x1000000 : UInt64).toNat ≤ 2 ^ 48 := by decide
  obtain ⟨hvalid₁, hconfig₁⟩ := h₁.valid h₀ (Layout.ordered_withPhysical hn)
  obtain ⟨houtcome, hrests, p, s, -, -, -, hk⟩ := Kernel.run_of_runs hvalid₁
    (Kernel.layout_of_config hconfig₁ ▸ Layout.sparesNull_withPhysical _) hruns₁
  have h₂ := h₁.operate (.run 1) trivial (.of_dispatched houtcome)
  have hcurrent : ((Operation.run 1).perform k₁).current = 1 := congrArg Control.current hk
  generalize (Operation.run 1).perform k₁ = k₂ at h₂ hrests hcurrent
  have hrests₃ : Kernel.Rests k₁ { k₂ with host := { calls := k₂.host.calls } } :=
    ⟨hrests.config, hrests.space, hrests.memory, hrests.processes, hrests.current, hrests.shown⟩
  refine ⟨k₀, _, _, m, h₀, h₂.host { calls := k₂.host.calls } rfl, congrArg _ hpast, hcurrent, rfl,
    ?_, hshares₁.of_rests hrests₃⟩
  rw [hrests₃.processes]
  exact hruns₁

/-- it writes to its first page, which it shares with its child -/
theorem contained_forked : ∃ (k₀ k : Kernel) (past : List (Kernel × Operation)) (m : Mapping),
    Kernel.start {} { layout := .withPhysical 0x1000000, idleLimit := some ⟨4, by decide⟩ }
      = .started k₀ ∧ Session k₀ past k ∧
    past.map Prod.snd = [.run 1, .fork 1, .setup 1 .overlapping] ∧ k.current = 1 ∧
    k.SharesPage 1 ⟨0x100000⟩ m ∧
    ∃ fault k', Kernel.writeUser 1 ⟨0x100000⟩ ⟨#[7]⟩ k = .error (.error fault) k' ∧
      k'.memory.data m.frame = k.memory.data m.frame ∧ Contained k .userWrite fault k' := by
  obtain ⟨k₀, k, past, m, h₀, h, hpast, hcurrent, hpatient, hruns, hshares⟩ :=
    Session.exists_forked
  obtain ⟨-, hwrites⟩ := Session.contained h₀ rfl (by decide) nofun h hpatient
    (hcurrent.symm ▸ hruns)
  rw [hcurrent] at hwrites
  exact ⟨k₀, k, past, m, h₀, h, hpast, hcurrent, hshares,
    hwrites ⟨0x100000⟩ ⟨0x100000⟩ ⟨#[7]⟩ 0 m (by decide) (by decide) hshares⟩

end PagedKernel
