import PagedKernel.Proofs.Placement.Accesses
import PagedKernel.Proofs.Placement.Honest
import PagedKernel.Proofs.Process.Load

/-!
# A program that is loaded twice

The memory of a program is built on two machines in step.  Every page of it holds what the program
or the kernel put there before the process can see it, whatever its frame held before.

* `Alike.shows`            a page shows something else on both machines
* `Loading`                two processes whose memory is being built see the same
* `Loading.ends_loadSegment`, `Alike.ends_load`   and so they do in the end, unless a frame was
  lacking
-/

namespace PagedKernel

variable {l : Layout} {size : UInt64} {kr kr₁ kr₂ r r₁ r₂ f f₁ f₂ : Frame}
  {procs procs₁ procs₂ : Finset Frame} {mem mem' mem₁ mem₂ mem₁' mem₂' : Memory} {n : Nat}
  {p : Permissions} {m₁ m₂ : Machine}

/-! ## pages that show something else -/

theorem KeepsReserved.consoles (h₁ : KeepsReserved l mem₁ mem₁')
    (h₂ : KeepsReserved (l.resized size) mem₂ mem₂') (hl₁ : l.Ordered)
    (hl₂ : (l.resized size).Ordered)
    (h : mem₁.data l.consoleFrame = mem₂.data l.consoleFrame) :
    mem₁'.data l.consoleFrame = mem₂'.data l.consoleFrame :=
  (h₁ _ hl₁.isAllocatable_console).trans (h.trans (h₂ _ hl₂.isAllocatable_console).symm)

/-- a page shows something else, on both machines the same -/
theorem Alike.shows {x : Option (Permissions × FrameData)} (h : Alike l r₁ r₂ mem₁ mem₂)
    (hl₁ : l.Ordered) (hl₂ : (l.resized size).Ordered) (h₁ : Shows l r₁ n x mem₁ mem₁')
    (h₂ : Shows (l.resized size) r₂ n x mem₂ mem₂') : Alike l r₁ r₂ mem₁' mem₂' := by
  refine ⟨fun k hk hk' => ?_, h₁.reserved.consoles h₂.reserved hl₁ hl₂ h.console⟩
  rw [h₁.pages k hk hk', h₂.pages k hk hk', h.views k hk hk']

/-- an error of which all are for want of memory -/
theorem lost_of_fails {ε σ : Type} {L : ε → Prop} {E : ε → σ → Prop} {e : Stop ε} {s : σ}
    (h : Fails E e s) (hE : ∀ e, E e s → L e) : Lost L e := by
  cases e with
  | error e => exact hE e h
  | panic p => exact h.elim

theorem Fresh.furnished (h : Fresh l kr procs r mem) (hr : r ∈ procs) :
    Furnished l kr procs r mem :=
  ⟨h.sound, hr, h.complete⟩

/-! ## segments -/

/-- two processes whose memory is being built see the same -/
structure Loading (l : Layout) (size : UInt64) (kr₁ kr₂ : Frame) (procs₁ procs₂ : Finset Frame)
    (r₁ r₂ : Frame) (mem₁ mem₂ : Memory) : Prop where
  fresh₁ : Fresh l kr₁ procs₁ r₁ mem₁
  fresh₂ : Fresh (l.resized size) kr₂ procs₂ r₂ mem₂
  alike : Alike l r₁ r₂ mem₁ mem₂

namespace Loading

variable {s : Segment} {va : VirtualAddress}

theorem ends_mapSegmentPage
    (h : Loading l size kr₁ kr₂ procs₁ procs₂ r₁ r₂ m₁.toMemory m₂.toMemory) (hr₁ : r₁ ∈ procs₁)
    (hr₂ : r₂ ∈ procs₂) (hn : l.firstPage ≤ va.page.number.toNat)
    (hn' : va.page.number.toNat + 1 < l.endPage) {E : Stop MemoryError → Machine → Machine → Prop} :
    EndAlike (Lost MemoryError.IsShort) ((AddressSpace.mk r₁).mapSegmentPage s va)
      ((AddressSpace.mk r₂).mapSegmentPage s va) m₁ m₂
      (fun _ _ m₁' m₂' =>
        Loading l size kr₁ kr₂ procs₁ procs₂ r₁ r₂ m₁'.toMemory m₂'.toMemory) E := by
  refine .of_ends_lost (AddressSpace.ends_mapSegmentPage va h.fresh₁ hr₁ s hn hn')
    (AddressSpace.ends_mapSegmentPage va h.fresh₂ hr₂ s hn hn') ?_ ?_ ?_
  · rintro _ m₁' _ m₂' ⟨hfresh₁, -, -, -, -, hshows₁⟩ ⟨hfresh₂, -, -, -, -, hshows₂⟩
    rw [← h.alike.views _ hn (Nat.lt_of_succ_lt hn')] at hshows₂
    exact ⟨hfresh₁, hfresh₂,
      h.alike.shows h.fresh₁.sound.ordered h.fresh₂.sound.ordered hshows₁ hshows₂⟩
  · exact fun e m he => lost_of_fails he fun _ h => h.1.error ▸ trivial
  · exact fun e m he => lost_of_fails he fun _ h => h.1.error ▸ trivial

theorem ends_kernelWrite {lost : Stop UserFault → Prop} (va : VirtualAddress) (bytes : ByteArray)
    (h : Loading l size kr₁ kr₂ procs₁ procs₂ r₁ r₂ m₁.toMemory m₂.toMemory) (hr₁ : r₁ ∈ procs₁)
    (hr₂ : r₂ ∈ procs₂) (hn : l.firstPage ≤ va.page.number.toNat)
    (hn' : va.page.number.toNat < l.endPage) :
    EndAlike lost ((AddressSpace.mk r₁).kernelWrite va bytes)
      ((AddressSpace.mk r₂).kernelWrite va bytes) m₁ m₂
      (fun _ _ m₁' m₂' =>
        Loading l size kr₁ kr₂ procs₁ procs₂ r₁ r₂ m₁'.toMemory m₂'.toMemory)
      fun _ m₁' m₂' => Alike l r₁ r₂ m₁'.toMemory m₂'.toMemory := by
  have hs := h.fresh₁.sound
  have hvalue := va.value.toNat_lt
  have huser : ∀ n f p, l.firstPage ≤ n ∧ n ≤ l.endPage → m₁.pageAt r₁ n = some (f, p) →
      Memory.grants p .kernel = true → p.user = true := by
    intro n f p hrange hpage hg
    obtain ⟨-, hnext, -⟩ := AddressSpace.runs_kernel hs hr₁ n f p hrange hpage hg
    rcases hs.perms r₁ hr₁ n f p hrange.1 hnext.2 hpage with rfl | rfl <;> rfl
  have hstart : 0 < bytes.size → va.value.toNat + 0 < 2 ^ 64 ∧
      l.firstPage ≤ (va.value.toNat + 0) / 4096 ∧ (va.value.toNat + 0) / 4096 ≤ l.endPage := by
    intro _
    rw [Nat.add_zero, ← va.toNat_page]
    exact ⟨hvalue, hn, Nat.le_of_lt hn'⟩
  refine ((h.alike.ends_writeFrom va bytes (h.fresh₁.furnished hr₁) (h.fresh₂.furnished hr₂)
    (AddressSpace.runs_kernel hs hr₁) huser 0 hstart).and_ends
    (AddressSpace.ends_kernelWrite va h.fresh₁ hr₁ bytes hn hn')
    (AddressSpace.ends_kernelWrite va h.fresh₂ hr₂ bytes hn hn')).mono ?_ fun _ _ _ he => he.1
  exact fun _ _ _ _ hq => ⟨hq.2.1.1, hq.2.2.1, hq.1⟩

/-- a segment is loaded on both machines, or on none -/
theorem ends_loadSegment (s : Segment)
    (h : Loading l size kr₁ kr₂ procs₁ procs₂ r₁ r₂ m₁.toMemory m₂.toMemory) (hr₁ : r₁ ∈ procs₁)
    (hr₂ : r₂ ∈ procs₂) :
    EndAlike (Lost SetupError.IsShort) ((AddressSpace.mk r₁).loadSegment l s)
      ((AddressSpace.mk r₂).loadSegment (l.resized size) s) m₁ m₂
      (fun _ _ m₁' m₂' =>
        Loading l size kr₁ kr₂ procs₁ procs₂ r₁ r₂ m₁'.toMemory m₂'.toMemory)
      fun _ m₁' m₂' => Alike l r₁ r₂ m₁'.toMemory m₂'.toMemory := by
  have hl := h.fresh₁.sound.ordered
  have hend := hl.endPage_le
  obtain ⟨stop?, hstop, hrange⟩ := AddressSpace.segmentStop_cases hl s
  have hstop₂ : AddressSpace.segmentStop? (l.resized size) s = .ok stop? := hstop
  unfold AddressSpace.loadSegment
  rw [hstop, hstop₂]
  refine .bind_ok m₁ m₂ rfl rfl ?_
  cases stop? with
  | none => exact .inr (.inr ⟨rfl, h.alike⟩)
  | some stop =>
    obtain ⟨hin, hsum⟩ := hrange stop rfl
    obtain ⟨h₁, hlast⟩ := (Segment.inRange_iff hl).1 hin
    have hpage := s.va.toNat_page
    obtain ⟨last, halign, hlastValue⟩ := AddressSpace.alignUp_eq (x := stop) (by omega)
    have hpageLt : s.va.page.number.toNat < l.endPage := by omega
    refine .bind_ok m₁ m₂ rfl rfl ?_
    dsimp only
    rw [halign]
    refine .bind_ok m₁ m₂ rfl rfl ?_
    refine .bind (.forPages (b := (stop.toNat + 4095) / 4096)
      (fun (t₁ t₂ : Machine) => Loading l size kr₁ kr₂ procs₁ procs₂ r₁ r₂ t₁.toMemory t₂.toMemory)
      hlastValue (fun w t₁ t₂ hw hw' ht => ?_) h) fun _ _ t₁ t₂ ht => ?_
    · refine (ht.ends_mapSegmentPage hr₁ hr₂ (by omega) (by omega)
        (E := fun _ t₁ t₂ => Alike l r₁ r₂ t₁.toMemory t₂.toMemory)).mapError (fun _ he => he)
        (fun _ _ _ he => he) fun _ _ _ he => he
    · refine .bind ((ht.ends_kernelWrite s.va _ hr₁ hr₂ h₁ hpageLt).mapError (L := fun _ => False)
        (fun _ he => he.elim) (fun _ _ _ he => he) fun _ _ _ he => he)
        fun _ _ t₁' t₂' ht' => ?_
      exact (ht'.ends_kernelWrite s.va _ hr₁ hr₂ h₁ hpageLt).mapError (L := fun _ => False)
        (fun _ he => he.elim) (fun _ _ _ he => he) fun _ _ _ he => he

end Loading

/-! ## programs -/

/-- a program is loaded on both machines, or on none, and then both processes see the same -/
theorem Alike.ends_load (hs₁ : Sound l kr₁ procs₁ [] m₁.toMemory)
    (hs₂ : Sound (l.resized size) kr₂ procs₂ [] m₂.toMemory) (hr₁ : r₁ ∈ procs₁)
    (hr₂ : r₂ ∈ procs₂) (hnone₁ : ∀ n, m₁.pageAt r₁ n = none) (hnone₂ : ∀ n, m₂.pageAt r₂ n = none)
    (hconsole : m₁.data l.consoleFrame = m₂.data l.consoleFrame) (image : ProgramImage) :
    EndAlike (Lost SetupError.IsShort) ((AddressSpace.mk r₁).load (AddressSpace.mk kr₁) l image)
      ((AddressSpace.mk r₂).load (AddressSpace.mk kr₂) (l.resized size) image) m₁ m₂
      (fun _ _ m₁' m₂' => Alike l r₁ r₂ m₁'.toMemory m₂'.toMemory)
      fun _ m₁' m₂' => Alike l r₁ r₂ m₁'.toMemory m₂'.toMemory := by
  have hl₁ := hs₁.ordered
  have hl₂ := hs₂.ordered
  have hend := hl₁.endPage_le
  have hshare : EndAlike (Lost MemoryError.IsShort)
      ((AddressSpace.mk r₁).shareKernel (AddressSpace.mk kr₁) l)
      ((AddressSpace.mk r₂).shareKernel (AddressSpace.mk kr₂) (l.resized size)) m₁ m₂
      (fun _ _ m₁' m₂' => Loading l size kr₁ kr₂ procs₁ procs₂ r₁ r₂ m₁'.toMemory m₂'.toMemory)
      fun _ m₁' m₂' => Alike l r₁ r₂ m₁'.toMemory m₂'.toMemory := by
    refine .of_ends_lost (AddressSpace.ends_shareKernel hs₁ hr₁ hnone₁)
      (AddressSpace.ends_shareKernel hs₂ hr₂ hnone₂) ?_ ?_ ?_
    · rintro _ m₁' _ m₂' ⟨hfresh₁, -, -, hempty₁, hreserved₁, -⟩
        ⟨hfresh₂, -, -, hempty₂, hreserved₂, -⟩
      refine ⟨hfresh₁, hfresh₂, fun n hn hn' => ?_,
        hreserved₁.consoles hreserved₂ hl₁ hl₂ hconsole⟩
      rw [Memory.viewAt_of_none (hempty₁ n hn (by omega)),
        Memory.viewAt_of_none (hempty₂ n hn (by omega))]
    · exact fun e m he => lost_of_fails he fun _ h => h.1.error ▸ trivial
    · exact fun e m he => lost_of_fails he fun _ h => h.1.error ▸ trivial
  unfold AddressSpace.load
  refine .bind (hshare.mapError (fun _ he => he) (fun _ _ _ he => he) fun _ _ _ he => he)
    fun _ _ t₁ t₂ ht => ?_
  refine .bind (.forM (fun (t₁ t₂ : Machine) =>
      Loading l size kr₁ kr₂ procs₁ procs₂ r₁ r₂ t₁.toMemory t₂.toMemory) image.segments
    (fun s _ t₁ t₂ ht => ht.ends_loadSegment s hr₁ hr₂) ht) fun _ _ t₁ t₂ ht => ?_
  refine .of_ends_lost (AddressSpace.ends_mapStack ht.fresh₁ hr₁)
    (AddressSpace.ends_mapStack ht.fresh₂ hr₂) ?_ ?_ ?_
  · exact fun _ _ _ _ hm₁ hm₂ => ht.alike.shows hl₁ hl₂ hm₁.2.2.2.2.2.1 hm₂.2.2.2.2.2.1
  · exact fun e m he => lost_of_fails he fun _ h => h.1 ▸ trivial
  · exact fun e m he => lost_of_fails he fun _ h => h.1 ▸ trivial

end PagedKernel
