import PagedKernel.Proofs.Kernel.Contents
import PagedKernel.Proofs.Kernel.Reachable

/-!
# Isolation of processes

What is done for one process leaves every other one as it was: its slot, all that it maps, and every
byte of its memory.

* `Kernel.Undisturbed`          a process has what it had
* `Kernel.Reachable.isolated`   all processes are undisturbed but the one an operation is done for
-/

namespace PagedKernel

namespace Kernel

/-- `q` has in `k'` what it had in `k` -/
structure Undisturbed (q : Pid) (k k' : Kernel) : Prop where
  /-- its state, its registers and its address space -/
  slot : k'.processes.get? q = k.processes.get? q
  /-- what it maps, with the permissions, in its own memory and below -/
  mapped : ∀ va, k'.lookup q va = k.lookup q va
  bytes : ∀ va, k.layout.isUserAddress va = true → k'.byteAt q va = k.byteAt q va

variable {k k' k₀ : Kernel} {q : Nat} {s : AddressSpace}

theorem Spares.lookup (h : Spares {q} k k') (hk : k.Valid ∅) (hk' : k'.Valid ∅)
    (hs : k.processes.space? q = some s) (va : VirtualAddress) :
    k'.lookup q va = k.lookup q va := by
  have hs' := (ProcessTable.space?_congr (h.slots q (Finset.mem_singleton_self q))).trans hs
  have hroot : s.root ∈ k.processes.rootsOf {q} :=
    ProcessTable.mem_rootsOf.2 ⟨q, Finset.mem_singleton_self q, hs⟩
  rw [hk'.lookup_eq hs', hk.lookup_eq hs, h.keeps.pageAt (Finset.mem_insert_of_mem hroot)]

theorem Spares.undisturbed (h : Spares {q} k k') (hk : k.Valid ∅) (hk' : k'.Valid ∅)
    (hs : k.processes.space? q = some s) : Undisturbed q k k' := by
  have hlookup := h.lookup hk hk' hs
  refine ⟨h.slots q (Finset.mem_singleton_self q), hlookup, fun va hva => ?_⟩
  unfold byteAt
  rw [hlookup va]
  cases hm : k.lookup q va with
  | error e => rfl
  | ok found =>
    cases found with
    | none => rfl
    | some m =>
      obtain ⟨hmva, s, hs, -, hpage⟩ := hk.of_lookup hm
      obtain ⟨h₁, h₂⟩ := (hk.sound.ordered.isUserAddress_iff va).1 hva
      have hroot : s.root ∈ k.processes.rootsOf {q} :=
        ProcessTable.mem_rootsOf.2 ⟨q, Finset.mem_singleton_self q, hs⟩
      have hsize : k'.memory.contents.size = k.memory.contents.size := by
        rw [hk'.sound.size, hk.sound.size, h.layout]
      exact Memory.byte?_congr hsize (h.keeps.pages _ hroot _ _ _ h₁ h₂ hpage) m.va.offset_lt

/-- an operation for `p` disturbs no other process, whether it succeeds or fails -/
theorem Reachable.isolated {n : UInt64} (h : Reachable k₀ k) (hn : n.toNat ≤ 2 ^ 48)
    (h₀ : StartedOn n k₀) (op : Operation) {p : Pid} (hop : op.actors k ⊆ {p}) (hq : q ≠ p)
    (hloaded : (k.processes.space? q).isSome = true) : Undisturbed q k (op.perform k) := by
  have hvalid := h.valid hn h₀
  obtain ⟨s, hs⟩ := Option.isSome_iff_exists.1 hloaded
  have hconfined := op.confined hvalid
  have hdisjoint : Disjoint (op.actors k) {q} := by
    rw [Finset.disjoint_singleton_right]
    exact fun hin => hq (Finset.mem_singleton.1 (hop hin))
  refine (hconfined.spares {q} hdisjoint fun q' hq' => ?_).undisturbed hvalid hconfined.valid hs
  rw [Finset.mem_singleton.1 hq']
  exact hloaded

theorem isolated_setup : ∃ k₀ k : Kernel, StartedOn 0x200000 k₀ ∧ k.processes.Runs 1 ∧
    ∀ image, Undisturbed 1 k ((Operation.setup 2 image).perform k) := by
  obtain ⟨k₀, k, h₀, h, -, hruns, -⟩ :=
    StartedOn.exists_running {} { layout := .withPhysical 0x200000 } rfl
  have hvalid := h.valid (by decide) h₀
  obtain ⟨p, hp, hrun⟩ := hruns
  refine ⟨k₀, k, h₀, ⟨p, hp, hrun⟩, fun image => ?_⟩
  refine h.isolated (by decide) h₀ (.setup 2 image) (p := 2) (Finset.Subset.refl _) (by decide) ?_
  rw [ProcessTable.space?_of_get? hp]
  exact hvalid.ready 1 p hp hrun

end Kernel

end PagedKernel
