import PagedKernel.Proofs.Kernel.Contents
import PagedKernel.Proofs.Kernel.Reachable

/-!
# Accesses of processes

What a process may read and write, and what it is told where it may not.

* `Kernel.Denies`               the report that the processor makes of an access that it refuses
* `Kernel.Valid.readUser_ok`    reading gives all bytes, or is denied
* `Kernel.Valid.ends_writes`    writing stores all bytes, or is denied
* `Kernel.ends_syscall_panic`   the text of a process that stops the machine is not read where the
  process may not read
* `Kernel.Reachable.bounded`    nothing is accessed above the address spaces

A walk reads the low 48 bits of an address.  Nobody checks the others, so that an address with any
of them set stands for the one without.
-/

namespace PagedKernel

open AddressSpace (Granted Denied)

namespace Kernel

variable {k k₀ : Kernel} {pid : Nat} {s : AddressSpace} {va : VirtualAddress} {a : Access}
  {n : Nat} {size : UInt64}

/-- the report of an access of `pid` that is refused: at the address of the fault nothing is mapped,
or what is mapped there does not allow the access -/
structure Denies (k : Kernel) (pid : Pid) (a : Access) (fault : UserFault) : Prop where
  refused : ∀ m, k.lookup pid fault.va = .ok (some m) → AddressSpace.refuses m.permissions a = true
  code : ∃ found, k.lookup pid fault.va = .ok found ∧ fault.code = .ofAccess a found.isSome

/-! ## reading and writing -/

theorem Valid.denies (h : k.Valid ∅) (hs : k.processes.space? pid = some s) {fault : UserFault}
    (hdenied : Denied k.memory s.root (.process a) va n fault) : k.Denies pid a fault := by
  obtain ⟨-, -, -, -, hres⟩ := hdenied
  refine ⟨fun m hm => ?_, _, h.lookup_eq hs fault.va, ?_⟩
  · rw [h.lookup_eq hs] at hm
    obtain ⟨⟨f, p⟩, hpage, rfl⟩ := Option.map_eq_some_iff.1 (Except.ok.inj hm)
    by_contra hrefuse
    have hgrant : Memory.grants p (.process a) = true := by
      rw [Memory.grants, Bool.not_eq_true', ← Bool.not_eq_true]
      exact hrefuse
    cases hres.symm.trans (Memory.resolved_of_granted hpage hgrant)
  · rw [Memory.code_of_resolved hres, Option.isSome_map]

/-- reading gives an answer: all bytes are granted, or the first that is not is told -/
theorem Valid.readUser_ok (h : k.Valid ∅) (hs : k.processes.space? pid = some s)
    (va : VirtualAddress) (length : Nat) :
    ∃ part refusal, k.readUser pid va length = .ok (part, refusal) ∧
      refusal.elim (Granted k.memory s.root (.process .userRead) va length)
        (Denied k.memory s.root (.process .userRead) va length) := by
  have hroot := ProcessTable.root_mem hs
  have hvalue := va.value.toNat_lt
  have hpage := va.toNat_page
  have hcopy := AddressSpace.copyFrom_ok h.sound.forest (Finset.mem_insert_of_mem hroot)
    (AddressSpace.runs_process h.sound hroot .userRead rfl) va length (by omega)
  rw [readUser, hs]
  exact hcopy

/-- writing stores bytes that are granted, or fails at the first that is not -/
theorem Valid.ends_writes (h : k.Valid ∅) (hs : k.processes.space? pid = some s)
    (va : VirtualAddress) (bytes : ByteArray) :
    Ends (writeUser pid va bytes) k
      (fun _ _ => Granted k.memory s.root (.process .userWrite) va bytes.size)
      (Fails fun fault _ => Denied k.memory s.root (.process .userWrite) va bytes.size fault) := by
  unfold writeUser
  rw [ends_bind, ends_get, ends_bind, hs, ends_orFail_some, ends_onMachine]
  refine (AddressSpace.ends_copyTo (m := k.machine) h.sound (ProcessTable.root_mem hs) bytes).mono
    (fun _ _ hm => hm.2) fun e m he => ?_
  cases e with
  | error fault => exact he.2
  | panic e => exact he

/-! ## above the address spaces -/

/-- no process is granted a byte at or above the end of its space, in the bits that a walk reads -/
theorem Valid.not_granted (h : k.Valid ∅) (hs : k.processes.space? pid = some s)
    {right : Privilege} {i : Nat} (hi : i < n)
    (habove : k.layout.virtualSize.toNat ≤ (va.value.toNat + i) % 2 ^ 48) :
    ¬ Granted k.memory s.root right va n := by
  intro hgranted
  obtain ⟨f, p, hpage, -⟩ := hgranted i hi
  have hend := h.sound.ordered.virtualSize_eq
  have hnone := h.sound.high s.root (ProcessTable.root_mem hs)
    ((va.value.toNat + i) / 4096 % 2 ^ 36) (by omega) (Nat.mod_lt _ (by decide))
  rw [Memory.pageAt_mod, hpage] at hnone
  cases hnone

/-- a text that would begin there is not read -/
theorem PanicText.eq_none {message : Option String} (htext : k.PanicText pid va message)
    (h : k.Valid ∅) (habove : k.layout.virtualSize.toNat ≤ va.value.toNat % 2 ^ 48) :
    message = none := by
  cases htext with
  | null => rfl
  | unloaded => rfl
  | read _ hs hread =>
    have hroot := ProcessTable.root_mem hs
    have hvalue := va.value.toNat_lt
    have hpage := va.toNat_page
    obtain ⟨fault, hdenied⟩ := AddressSpace.readText_denied h.sound.forest
      (Finset.mem_insert_of_mem hroot) (AddressSpace.runs_process h.sound hroot .userRead rfl) va
      (by omega) (h.not_granted hs Nat.one_pos habove)
    obtain rfl := Except.ok.inj (hdenied.symm.trans hread)
    rfl

/-- the text is that of a kernel with the same spaces and the same memory -/
theorem PanicText.of_eq {k' : Kernel} {message : Option String} (h : k'.PanicText pid va message)
    (hspace : k'.processes.space? pid = k.processes.space? pid) (hmem : k'.memory = k.memory) :
    k.PanicText pid va message := by
  cases h with
  | null h => exact .null h
  | unloaded h => exact .unloaded (hspace.symm.trans h)
  | read hnull hs h => exact .read hnull (hspace.symm.trans hs) (hmem ▸ h)

/-- to stop the machine as a process asks for ends with the text of the process -/
theorem ends_panicCall (h : k.Valid ∅) (hpid : pid < slotCount) :
    Ends (panicCall pid va) k (fun _ _ => False) fun e _ =>
      ∃ message, k.PanicText pid va message ∧ e = .error (.panicRequested pid message) := by
  unfold panicCall
  rw [ends_bind, ends_lift]
  refine ends_panicMessage h hpid fun message htext => ?_
  rw [ends_bind, ends_lift]
  exact ends_report fun _ _ => ends_fail.2 ⟨message, htext, rfl⟩

/-- a system call to stop the machine stops it, unless the platform asks for that before -/
theorem ends_syscall_panicCall (h : k.Valid ∅) {r : Registers} (hrax : r.rax = 3) :
    Ends (syscall r) k (fun _ _ => False) fun e _ =>
      if k.host.abortAfter = some 0 then e = .error .abortRequested
      else ∃ message, k.PanicText k.current ⟨r.rdi⟩ message ∧
        e = .error (.panicRequested k.current message) := by
  have hsaved := h.save r
  have hdecode : Syscall.decode r = .ok (.panic ⟨r.rdi⟩) := by
    rw [Syscall.decode, hrax]
    rfl
  unfold syscall
  rw [ends_bind, ends_lift, ends_save h, ends_bind, ends_lift]
  refine hsaved.ends_showMemory fun _ viewer view _ hshown => ?_
  rw [ends_bind]
  refine ends_checkAbort (fun hne => ?_) fun heq _ _ => (if_pos heq).mpr rfl
  rw [ends_bind]
  refine ends_decodeCall (fun call hcall m hm => ?_)
    fun _ hunknown => nomatch hdecode.symm.trans hunknown
  obtain rfl := Except.ok.inj (hdecode.symm.trans hcall)
  refine Ends.mono (ends_panicCall ?_ h.current) (fun _ _ hn => hn) fun e _ he => ?_
  · exact hsaved.of_eq rfl rfl hm rfl h.current hshown
  · obtain ⟨message, htext, rfl⟩ := he
    have hgoes : k.host.abortAfter ≠ some 0 := hne
    rw [if_neg hgoes]
    exact ⟨message, htext.of_eq (ProcessTable.space?_update fun _ => rfl) hm, rfl⟩

/-- a process that stops the machine with such a text stops it without one -/
theorem ends_syscall_panic (h : k.Valid ∅) {r : Registers} (hrax : r.rax = 3)
    (habove : k.layout.virtualSize.toNat ≤ r.rdi.toNat % 2 ^ 48) :
    Ends (syscall r) k (fun _ _ => False) fun e _ =>
      e = .error (if k.host.abortAfter = some 0 then .abortRequested
        else .panicRequested k.current none) := by
  refine (ends_syscall_panicCall h hrax).mono (fun _ _ hn => hn) fun e _ he => ?_
  split at he
  · next heq => rw [he, if_pos heq]
  · next hne =>
    obtain ⟨message, htext, rfl⟩ := he
    rw [if_neg hne, htext.eq_none h habove]

/-- what a process maps at an address it maps at all that have the same low 48 bits -/
theorem Valid.lookup_low (h : k.Valid ∅) (hs : k.processes.space? pid = some s)
    (va : VirtualAddress) :
    k.lookup pid va = (k.lookup pid ⟨va.value % 0x1000000000000⟩).map
      (Option.map fun m => { m with va }) := by
  have hpage : (⟨va.value % 0x1000000000000⟩ : VirtualAddress).page.number.toNat
      = va.page.number.toNat % 2 ^ 36 := by
    rw [Address.toNat_page, Address.toNat_page, UInt64.toNat_mod]
    simp only [UInt64.reduceToNat]
    omega
  rw [h.lookup_eq hs, h.lookup_eq hs, hpage, Memory.pageAt_mod]
  cases k.memory.pageAt s.root va.page.number.toNat <;> rfl

/-- what a process accesses lies, in the low 48 bits of its address, below the end of its space -/
theorem Reachable.bounded (h : Reachable k₀ k) (hn : size.toNat ≤ 2 ^ 48)
    (h₀ : StartedOn size k₀) (pid : Pid) (hloaded : (k.processes.space? pid).isSome = true)
    (va : VirtualAddress) :
    (∀ length, (∃ i < length, k.layout.virtualSize.toNat ≤ (va.value.toNat + i) % 2 ^ 48) →
      ∃ part fault, k.readUser pid va length = .ok (part, some fault) ∧
        k.Denies pid .userRead fault ∧ ∃ i < length, fault.va.value.toNat = va.value.toNat + i) ∧
    (∀ bytes : ByteArray,
      (∃ i < bytes.size, k.layout.virtualSize.toNat ≤ (va.value.toNat + i) % 2 ^ 48) →
      ∃ fault k', writeUser pid va bytes k = .error (.error fault) k' ∧
        k.Denies pid .userWrite fault ∧
        ∃ i < bytes.size, fault.va.value.toNat = va.value.toNat + i) ∧
    (∀ r : Registers, r.rax = 3 → k.layout.virtualSize.toNat ≤ r.rdi.toNat % 2 ^ 48 →
      ∃ k', syscall r k = .error (.error (if k.host.abortAfter = some 0 then .abortRequested
        else .panicRequested k.current none)) k') ∧
    k.lookup pid va = (k.lookup pid ⟨va.value % 0x1000000000000⟩).map
      (Option.map fun m => { m with va }) := by
  have hvalid := h.valid hn h₀
  obtain ⟨s, hs⟩ := Option.isSome_iff_exists.1 hloaded
  refine ⟨fun length ⟨i, hi, habove⟩ => ?_, fun bytes ⟨i, hi, habove⟩ => ?_,
    fun r hrax habove => ?_, hvalid.lookup_low hs va⟩
  · obtain ⟨part, refusal, hread, hrefusal⟩ := hvalid.readUser_ok hs va length
    cases refusal with
    | none => exact absurd hrefusal (hvalid.not_granted hs hi habove)
    | some fault =>
      obtain ⟨j, hj, hva, -⟩ := id hrefusal
      exact ⟨part, fault, hread, hvalid.denies hs hrefusal, j, hj, hva⟩
  · have hends := (hvalid.ends_writes hs va bytes).mono
      (fun _ _ hgranted => hvalid.not_granted hs hi habove hgranted) fun _ _ he => he
    obtain ⟨e, k', hwrite, he⟩ := hends.exists_error
    cases e with
    | panic e => exact he.elim
    | error fault =>
      obtain ⟨j, hj, hva, -⟩ := id he
      exact ⟨fault, k', hwrite, hvalid.denies hs he, j, hj, hva⟩
  · obtain ⟨e, k', hcall, rfl⟩ := (ends_syscall_panic hvalid hrax habove).exists_error
    exact ⟨k', hcall⟩

theorem isSome_space?_of_runs (h : k.Valid ∅) (hruns : k.processes.Runs pid) :
    (k.processes.space? pid).isSome = true := by
  obtain ⟨p, hp, hrun⟩ := hruns
  rw [ProcessTable.space?_of_get? hp]
  exact h.ready pid p hp hrun

/-- a run of bytes that begins in the stack of a process is denied above it -/
theorem bounded_running : ∃ k₀ k : Kernel, StartedOn 0x200000 k₀ ∧ Reachable k₀ k ∧
    k.processes.Runs 1 ∧ ∃ part fault,
      k.readUser 1 ⟨0x2ffff0⟩ 32 = .ok (part, some fault) ∧ k.Denies 1 .userRead fault ∧
        ∃ i < 32, fault.va.value.toNat = 0x2ffff0 + i := by
  obtain ⟨k₀, k, h₀, h, hconfig, hruns, -⟩ :=
    StartedOn.exists_running {} { layout := .withPhysical 0x200000 } rfl
  have hn : (0x200000 : UInt64).toNat ≤ 2 ^ 48 := by decide
  have habove : k.layout.virtualSize.toNat ≤ (0x2ffff0 + 16) % 2 ^ 48 := by
    rw [layout_of_config hconfig]
    decide
  exact ⟨k₀, k, h₀, h, hruns,
    (h.bounded hn h₀ 1 (isSome_space?_of_runs (h.valid hn h₀) hruns) ⟨0x2ffff0⟩).1 32
      ⟨16, by decide, habove⟩⟩

/-- with a bit above the low 48 set, the address of the stack still is that of the stack -/
theorem bounded_otherwise : ∃ k₀ k : Kernel, StartedOn 0x200000 k₀ ∧ Reachable k₀ k ∧
    k.processes.Runs 1 ∧ k.layout.virtualSize ≤ 0x10000002ff000 ∧
    ∃ part, k.readUser 1 ⟨0x10000002ff000⟩ 1 = .ok (part, none) := by
  obtain ⟨k₀, k, h₀, h, hconfig, hruns, -⟩ :=
    StartedOn.exists_running {} { layout := .withPhysical 0x200000 } rfl
  have hlayout := layout_of_config hconfig
  have hvalid := h.valid (by decide) h₀
  obtain ⟨s, hs⟩ := Option.isSome_iff_exists.1 (isSome_space?_of_runs hvalid hruns)
  have hend : k.layout.endPage = 768 := by
    rw [hlayout]
    decide
  have hfirst : k.layout.firstPage = 256 := by
    rw [hlayout]
    decide
  obtain ⟨⟨f, p⟩, hpage⟩ := Option.ne_none_iff_exists'.1
    (hvalid.complete 1 (Finset.notMem_empty _) s hs).stack
  have hread : Memory.grants p (.process .userRead) = true := by
    rcases hvalid.sound.perms s.root (ProcessTable.root_mem hs) _ f p (by omega) (by omega) hpage
      with rfl | rfl <;> decide
  have hgranted : Granted k.memory s.root (.process .userRead) ⟨0x10000002ff000⟩ 1 := by
    intro i hi
    obtain rfl := Nat.lt_one_iff.1 hi
    refine ⟨f, p, ?_, hread⟩
    rw [← Memory.pageAt_mod, ← hpage, hend]
    rfl
  obtain ⟨part, refusal, heq, hrefusal⟩ := hvalid.readUser_ok hs ⟨0x10000002ff000⟩ 1
  refine ⟨k₀, k, h₀, h, hruns, by rw [hlayout]; decide, part, ?_⟩
  cases refusal with
  | none => exact heq
  | some fault => exact absurd hrefusal.refused hgranted.not_refused

end Kernel

end PagedKernel
