import PagedKernel.Proofs.Kernel.Accesses
import PagedKernel.Proofs.Paging.Texts

/-!
# The text with which a process stops the machine

* `Kernel.reads_texts`   a text is read as it would be byte by byte, and whatever address a process
  names when it stops the machine, the machine stops with what there is to read
-/

namespace PagedKernel

namespace Kernel

/-- In a space that was built a text is read as it would be byte by byte: up to where it ends,
whatever lies behind, and without an end up to the first byte that may not be read.  On a machine
with at most `2 ^ 48` bytes of memory no address that a process names when it stops the machine
makes the kernel panic: it stops as the process asks, or as the platform did before. -/
theorem reads_texts :
    (∀ (m : Machine) (space : AddressSpace), space.Built m → ∀ va : VirtualAddress,
      va.value.toNat + 4096 < 2 ^ 64 →
      ∃ result, space.readText m.toMemory va = .ok result ∧ space.Reads m.toMemory va result) ∧
    ∀ (size : UInt64) (k₀ k : Kernel), size.toNat ≤ 2 ^ 48 → StartedOn size k₀ → Reachable k₀ k →
      ∀ r : Registers, r.rax = 3 → ∃ halt k', syscall r k = .error (.error halt) k' ∧
        if k.host.abortAfter = some 0 then halt = .abortRequested
        else ∃ message, k.PanicText k.current ⟨r.rdi⟩ message ∧
          halt = .panicRequested k.current message := by
  refine ⟨fun m space h va hend => h.tree.readText_spec hend,
    fun size k₀ k hsize h₀ h r hrax => ?_⟩
  obtain ⟨e, k', hcall, he⟩ := (ends_syscall_panicCall (h.valid hsize h₀) hrax).exists_error
  split at he
  · next heq =>
    subst he
    exact ⟨_, k', hcall, (if_pos heq).mpr rfl⟩
  · next hne =>
    obtain ⟨message, htext, rfl⟩ := he
    refine ⟨_, k', hcall, ?_⟩
    rw [if_neg hne]
    exact ⟨message, htext, rfl⟩

/-- a text that ends at once at the edge of a page, an address that is not mapped, a text that runs
over the edge, and the last address of all -/
theorem reads_texts_edge :
    (∃ (m : Machine) (space : AddressSpace), space.Built m ∧
      space.readText m.toMemory ⟨0x400fff⟩ = .ok (.ok (Utf8.text ByteArray.empty)) ∧
      ∃ fault, space.readText m.toMemory ⟨0x402000⟩ = .ok (.error fault)) ∧
    (∃ (m : Machine) (space : AddressSpace), space.Built m ∧
      space.readText m.toMemory ⟨0x400fff⟩ = .ok (.ok "Hi")) ∧
    ∃ k₀ k : Kernel, StartedOn 0x200000 k₀ ∧ Reachable k₀ k ∧ k.processes.Runs k.current ∧
      ∃ halt k', syscall { rax := 3, rdi := 0xFFFFFFFFFFFFFFFF } k = .error (.error halt) k' := by
  refine ⟨?_, ?_, ?_⟩
  · obtain ⟨m, space, f, g, hbuilt, -, -, -, hzero, -, hpages⟩ := AddressSpace.exists_pages
    have htree := hbuilt.tree
    have hfirst : m.pageAt space.root 0x400 = some (f, .userReadWrite) := hpages 0x400 (by decide)
    have hthird : m.pageAt space.root 0x402 = none := hpages 0x402 (by decide)
    have hstop : space.ReadsByte m.toMemory (Address.plus ⟨0x400fff⟩ 0) 0 := by
      refine (htree.readsByte_iff (by decide)).2
        ⟨htree.allows_iff.2 ⟨f, .userReadWrite, hfirst, by decide⟩, ?_⟩
      have hbyte := Memory.mappedByte_of_page (a := 0x400fff) hfirst
      rw [hzero, FrameData.zero, FrameData.byte_filled _ (by decide)] at hbyte
      exact hbyte
    have hnone (n : Nat) : ¬ space.TextEnds m.toMemory ⟨0x402000⟩ n := by
      have hnot : ¬ space.Allows m.toMemory .userRead (Address.plus ⟨0x402000⟩ 0) := by
        rw [htree.allows_iff]
        rintro ⟨h, p, hmapped, -⟩
        cases hthird.symm.trans hmapped
      intro h
      cases n with
      | zero => exact hnot (h.stop (by decide)).1
      | succ n =>
        obtain ⟨b, hb, -⟩ := h.before 0 (Nat.succ_pos n)
        exact hnot hb.1
    obtain ⟨result, hread, hreads⟩ := reads_texts.1 m space hbuilt ⟨0x400fff⟩ (by decide)
    have hempty (i : Nat) (hi : i < ByteArray.empty.size) : False := Nat.not_lt_zero i hi
    obtain rfl := hreads.eq_text (show ByteArray.empty.size < 4096 by decide)
      (fun i hi => (hempty i hi).elim) (fun i hi => (hempty i hi).elim) hstop
    obtain ⟨result', hread', hreads'⟩ := reads_texts.1 m space hbuilt ⟨0x402000⟩ (by decide)
    obtain ⟨fault, i, -, rfl⟩ := hreads'.denied hnone
    exact ⟨m, space, hbuilt, hread, fault, hread'⟩
  · obtain ⟨m, space, hbuilt, hbytes⟩ := AddressSpace.exists_text
    obtain ⟨result, hread, hreads⟩ := reads_texts.1 m space hbuilt ⟨0x400fff⟩ (by decide)
    have htext : result = .ok (Utf8.text ⟨#[0x48, 0x69]⟩) := by
      refine hreads.eq_text (by decide) (fun i hi => ?_) (by decide) (hbytes 2 (by decide))
      rcases Nat.lt_succ_iff_lt_or_eq.1 (show i < 1 + 1 from hi) with hfirst | rfl
      · obtain rfl := Nat.lt_one_iff.1 hfirst
        exact hbytes 0 (by decide)
      · exact hbytes 1 (by decide)
    have hdecoded : Utf8.text ⟨#[0x48, 0x69]⟩ = "Hi" := by decide +kernel
    rw [htext, hdecoded] at hread
    exact ⟨m, space, hbuilt, hread⟩
  · obtain ⟨k₀, k, h₀, h, -, hruns, hcurrent, -⟩ :=
      StartedOn.exists_running {} { layout := .withPhysical 0x200000 } rfl
    obtain ⟨halt, k', hcall, -⟩ := reads_texts.2 0x200000 k₀ k (by decide) h₀ h
      { rax := 3, rdi := 0xFFFFFFFFFFFFFFFF } rfl
    exact ⟨k₀, k, h₀, h, hcurrent ▸ hruns, halt, k', hcall⟩

end Kernel

end PagedKernel
