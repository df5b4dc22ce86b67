import PagedKernel.Process.Space
import PagedKernel.Proofs.Respects

/-!
# The log is not read

What is done to memory is the same whatever the log says, and comes to the same.

* `Machine.SameMemory`                two machines that differ in nothing but their logs
* `AddressSpace.respects_load`, …     loading, copying, changing and giving back a process
-/

namespace PagedKernel

variable {ε α : Type}

namespace Machine

/-- two machines that differ in nothing but their logs -/
def SameMemory (m₁ m₂ : Machine) : Prop := m₁.toMemory = m₂.toMemory

theorem respects_inspect (question : Memory → Except Panic α) :
    Respects SameMemory (inspect question) := by
  intro m₁ m₂ h
  unfold Together EndAlike inspect
  rw [show m₁.toMemory = m₂.toMemory from h]
  cases question m₂.toMemory with
  | ok a => exact ⟨rfl, h⟩
  | error p => exact .inr (.inr ⟨rfl, h⟩)

theorem respects_update (change : Memory → Memory) : Respects SameMemory (update change) :=
  .modify fun _ _ h => congrArg change h

theorem respects_record (severity : Severity) (target message : String) :
    Respects SameMemory (record severity target message) :=
  .modify fun _ _ h => h

/-- what is read of a machine is not its log -/
theorem respects_read {f : Machine → EStateM ε Machine α}
    (hsame : ∀ mem log log', f ⟨mem, log⟩ = f ⟨mem, log'⟩)
    (hf : ∀ m, Respects SameMemory (f m)) : Respects SameMemory (get >>= f) := by
  refine .read ?_ hf
  rintro ⟨mem, log⟩ ⟨_, log'⟩ ⟨⟩
  exact hsame mem log log'

theorem respects_setFrame (f : Frame) (change : FrameData → FrameData) :
    Respects SameMemory (setFrame f change) :=
  respects_read (fun _ _ _ => rfl) fun _ => .ite (respects_update _) (.stop _)

theorem respects_copyFrame (f g : Frame) : Respects SameMemory (copyFrame f g) :=
  (respects_inspect _).bind fun _ => respects_setFrame _ _

theorem respects_store (pa : PhysicalAddress) (bytes : ByteArray) :
    Respects SameMemory (store pa bytes) :=
  respects_read (fun _ _ _ => rfl) fun _ => .ite (respects_update _) (.stop _)

theorem respects_allocate : Respects SameMemory allocate := by
  refine respects_read (fun _ _ _ => rfl) fun m => ?_
  cases m.ledger.firstFree? with
  | some f => exact (respects_update _).bind fun _ => .pure _
  | none => exact (respects_record _ _ _).bind fun _ => .pure _

theorem respects_allocateClear : Respects SameMemory allocateClear := by
  refine respects_allocate.bind fun f? => ?_
  cases f? with
  | some f => exact (respects_setFrame _ _).bind fun _ => .pure _
  | none => exact .pure _

theorem respects_retain (f : Frame) : Respects SameMemory (retain f) :=
  respects_read (fun _ _ _ => rfl) fun _ => .bind (.ofResult _) fun _ =>
    .lift (respects_update _)

theorem respects_release (f : Frame) : Respects SameMemory (release f) :=
  .ite (.pure _) <| respects_read (fun _ _ _ => rfl) fun _ => .bind (.ofResult _) fun _ =>
    .lift (respects_update _)

end Machine

namespace AddressSpace

open Machine

variable {space : AddressSpace} {layout : Layout}

theorem respects_allocate : Respects SameMemory allocate :=
  respects_allocateClear.bind fun _ => .pure _

/-! ## mapping pages -/

theorem respects_descend (va : VirtualAddress) (table : Frame) (level : Level) :
    Respects SameMemory (descend va table level) := by
  refine .bind (.lift (respects_inspect _)) fun entry => .ite (.pure _) ?_
  refine .bind (.lift respects_allocateClear) fun next? => ?_
  cases next? with
  | some next =>
    exact .bind (.liftExcept _) fun _ => .bind (.lift (respects_setFrame _ _)) fun _ => .pure _
  | none => exact .fail _

theorem respects_descendAll (va : VirtualAddress) (levels : List Level) (table : Frame) :
    Respects SameMemory (levels.foldlM (descend va) table) := by
  induction levels generalizing table with
  | nil => exact .pure table
  | cons level below ih => exact (respects_descend va table level).bind ih

theorem respects_map (va : VirtualAddress) (f : Frame) (p : Permissions) :
    Respects SameMemory (space.map va f p) := by
  refine .ite ((respects_descendAll _ _ _).bind fun _ => .bind (.liftExcept _) fun _ =>
    .lift (respects_setFrame _ _)) (.bind (.lift (respects_inspect _)) fun found? => ?_)
  cases found? with
  | some found => exact .lift (respects_setFrame _ _)
  | none => exact .pure _

theorem respects_claimFrame : Respects SameMemory claimFrame :=
  .bind (.lift Machine.respects_allocate) fun _ => .orFail _ _

theorem respects_mapOrRelease (va : VirtualAddress) (f : Frame) (p : Permissions) :
    Respects SameMemory (space.mapOrRelease va f p) :=
  (respects_map va f p).onError fun _ => .bind ((respects_release f).mapError _) fun _ => .fail _

theorem respects_mapClear (va : VirtualAddress) (p : Permissions) :
    Respects SameMemory (space.mapClear va p) :=
  respects_claimFrame.bind fun f => .bind (.lift (respects_setFrame f _)) fun _ =>
    respects_mapOrRelease va f p

/-! ## loading a program -/

theorem respects_writeFrom (va : VirtualAddress) (bytes : ByteArray) (right : Privilege)
    (done : Nat) : Respects SameMemory (space.writeFrom va bytes right done) := by
  induction hleft : bytes.size - done using Nat.strongRecOn generalizing done with
  | ind left ih =>
    rw [writeFrom]
    split
    · next hlt =>
      refine .bind (.liftExcept _) fun place => .bind (.lift (respects_inspect _)) fun found =>
        .bind (.ofResult _) fun pa => .bind (.lift (respects_store _ _)) fun _ => ?_
      have hpos := pageChunk_pos place (bytes.size - done) (by omega)
      exact ih _ (by omega) _ rfl
    · exact .pure _

theorem respects_mapSegmentPage (s : Segment) (va : VirtualAddress) :
    Respects SameMemory (space.mapSegmentPage s va) := by
  refine .bind (.lift (respects_inspect _)) fun found? => ?_
  cases found? with
  | some m => exact .ite ((respects_map va _ _).mapError _) (.pure _)
  | none => exact respects_mapClear va _

theorem respects_loadSegment (s : Segment) :
    Respects SameMemory (space.loadSegment layout s) :=
  .bind (.liftExcept _) fun _ => .bind (.orFail _ _) fun _ => .bind (.liftExcept _) fun _ =>
    .bind (.forPages (fun va => (respects_mapSegmentPage s va).mapError _) _ _) fun _ =>
      .bind ((respects_writeFrom _ _ _ _).mapError _) fun _ =>
        (respects_writeFrom _ _ _ _).mapError _

theorem respects_shareKernel (kernelSpace : AddressSpace) :
    Respects SameMemory (space.shareKernel kernelSpace layout) := by
  refine .forPages (fun va => .bind (.lift (respects_inspect _)) fun found? => ?_) _ _
  cases found? with
  | some m => exact (respects_map va _ _).mapError _
  | none => exact .pure _

theorem respects_load (kernelSpace : AddressSpace) (image : ProgramImage) :
    Respects SameMemory (space.load kernelSpace layout image) :=
  .bind ((respects_shareKernel kernelSpace).mapError _) fun _ =>
    .bind (.forM (fun s => respects_loadSegment s) _) fun _ =>
      .bind (respects_claimFrame.mapError _) fun f =>
        .bind (.lift (respects_setFrame f _)) fun _ => .bind (.liftExcept _) fun va =>
          (respects_mapOrRelease va f _).mapError _

/-! ## copying, changing and giving back -/

theorem respects_copyPage (m : Mapping) : Respects SameMemory (space.copyPage layout m) :=
  .ite ((respects_map _ _ _).mapError _) <|
    .ite (respects_claimFrame.bind fun f => .bind (.lift (respects_copyFrame _ f)) fun _ =>
        respects_mapOrRelease _ f _)
      (.bind ((respects_retain _).mapError _) fun _ => respects_mapOrRelease _ _ _)

theorem respects_copyInto (target : AddressSpace) :
    Respects SameMemory (space.copyInto target layout) := by
  refine .forPages (fun va => .bind (.lift (respects_inspect _)) fun found? => ?_) _ _
  cases found? with
  | some m => exact respects_copyPage m
  | none => exact .pure _

theorem respects_replace (va : VirtualAddress) : Respects SameMemory (space.replace va) := by
  refine .bind (.lift (respects_inspect _)) fun old => .bind (respects_mapClear va _) fun _ => ?_
  cases old with
  | some m => exact (respects_release m.frame).mapError _
  | none => exact .pure _

theorem respects_free : Respects SameMemory (space.free layout) := by
  unfold free
  refine .bind (.forPages (fun va => .bind (.lift (respects_inspect _)) fun found? => ?_) _ _)
    fun _ => .bind (.lift (respects_inspect _)) fun tables => .bind ?_ fun _ => respects_release _
  · cases found? with
    | some m => exact respects_release m.frame
    | none => exact .pure _
  · refine Respects.forM (fun t => ?_) tables
    exact respects_release t.frame

end AddressSpace

end PagedKernel
