import PagedKernel.Proofs.EndsAlike
import PagedKernel.Process.Space

/-!
# Machines that ran out of frames

When a frame is asked for and none is free, the log says so.  A machine whose log never says so has
always had a frame to hand out.

* `Machine.Starved`     the log tells of a frame that could not be handed out
* `Honest P bad x`      a computation that leaves `P` alone if it succeeds, and has made it hold if
  it stops for a reason in `bad`
* `Tells L x`           a computation that fails as `L` says only if the log tells of it
* `AddressSpace.tells_load`, …   so do all that are done to the memory of a process
-/

namespace PagedKernel

/-- what the log says when no frame is free -/
def outOfFrames : Record := ⟨.trace, "kernel_alloc::phys_mapper", "out of physical frames"⟩

/-- a frame was asked for when none was free -/
def Machine.Starved (m : Machine) : Prop := outOfFrames ∈ m.log

/-! ## want of memory -/

/-- an operation failed as no frame was free -/
def MemoryError.IsShort : MemoryError → Prop
  | .outOfMemory => True
  | .frame _ => False

/-- a program could not be loaded as no frame was free -/
def SetupError.IsShort : SetupError → Prop
  | .memory e => e.IsShort
  | _ => False

/-- a process could not be duplicated as no frame was free -/
def ForkError.IsShort : ForkError → Prop
  | .memory e => e.IsShort
  | _ => False

/-- there was no page as no frame was free -/
def PageAllocError.IsShort : PageAllocError → Prop
  | .memory e => e.IsShort
  | _ => False

/-! ## honest computations -/

/-- a computation that leaves `P` alone if it succeeds.  If it stops it does not take `P` back, and
has made it hold if the reason is in `bad`. -/
def Honest {ε σ α : Type} (P : σ → Prop) (bad : ε → Prop) (x : EStateM ε σ α) : Prop :=
  ∀ s, Ends x s (fun _ s' => P s' ↔ P s) fun e s' => P s ∨ bad e → P s'

namespace Honest

variable {ε ε' σ α β : Type} {P : σ → Prop} {bad : ε → Prop}

theorem pure (a : α) : Honest P bad (pure a : EStateM ε σ α) := fun _ => ends_pure.2 Iff.rfl

theorem get : Honest P bad (get : EStateM ε σ σ) := fun _ => ends_get.2 Iff.rfl

theorem modify {f : σ → σ} (h : ∀ s, P (f s) ↔ P s) :
    Honest P bad (modify f : EStateM ε σ PUnit) := fun s => ends_modify.2 (h s)

theorem stop {e : ε} (h : ¬ bad e) : Honest P bad (fun s => .error e s : EStateM ε σ α) :=
  fun _ hs => hs.resolve_right h

theorem bind {x : EStateM ε σ α} {f : α → EStateM ε σ β} (hx : Honest P bad x)
    (hf : ∀ a, Honest P bad (f a)) : Honest P bad (x >>= f) := fun s =>
  ends_bind.2 <| (hx s).mono
    (fun a t ht => (hf a t).mono (fun _ _ h => h.trans ht) fun _ _ h hs => h (hs.imp ht.2 id))
    fun _ _ h => h

theorem ite {c : Prop} [Decidable c] {x y : EStateM ε σ α} (hx : Honest P bad x)
    (hy : Honest P bad y) : Honest P bad (if c then x else y) := by
  by_cases hc : c
  · rw [if_pos hc]
    exact hx
  · rw [if_neg hc]
    exact hy

/-- a pure answer, or a pure panic -/
theorem ofExcept (x : Except Panic α) : Honest P NoneLost (Action.ofExcept x : Action σ α) := by
  cases x with
  | ok a => exact pure a
  | error p => exact stop id

section

variable {L : ε → Prop} {L' : ε' → Prop}

theorem lift {x : Action σ α} (hx : Honest P NoneLost x) :
    Honest P (Lost L) (liftM x : Attempt σ ε α) := fun s => ends_lift.2 (hx s)

theorem liftExcept (x : Except Panic α) : Honest P (Lost L) (liftM x : Attempt σ ε α) := by
  cases x with
  | ok a => exact pure a
  | error p => exact stop id

theorem fail {e : ε} (h : ¬ L e) : Honest P (Lost L) (Attempt.fail e : Attempt σ ε α) := stop h

/-- what follows a failure is not done -/
theorem exit {e : ε} {f : β → Attempt σ ε α} (h : ¬ L e) :
    Honest P (Lost L) ((Attempt.fail e : Attempt σ ε β) >>= f) := stop h

theorem ofResult {r : Except ε α} (h : ∀ e, ¬ L e) :
    Honest P (Lost L) (Attempt.ofResult r : Attempt σ ε α) := by
  cases r with
  | ok a => exact pure a
  | error e => exact fail (h e)

theorem orFail (x : Option α) {e : ε} (h : ¬ L e) :
    Honest P (Lost L) (Attempt.orFail x e : Attempt σ ε α) := by
  cases x with
  | some a => exact pure a
  | none => exact fail h

theorem mapError {x : Attempt σ ε α} {f : ε → ε'} (hx : Honest P (Lost L) x)
    (h : ∀ e, L' (f e) → L e) : Honest P (Lost L') (x.mapError f) := fun s => by
  refine ends_mapError.2 ((hx s).mono (fun _ _ h => h) fun e t ht => ?_)
  cases e with
  | error e => exact fun hs => ht (hs.imp id (h e))
  | panic p => exact ht

/-- an error that is told otherwise, after something has been put in order -/
theorem rethrow {x : Attempt σ ε α} {tidy : ε → Attempt σ ε' PUnit} {f : ε → ε'}
    (hx : Honest P (Lost L) x) (htidy : ∀ e, Honest P (Lost L') (tidy e))
    (h : ∀ e, L' (f e) → L e) :
    Honest P (Lost L') (x.onError fun e => tidy e >>= fun _ => Attempt.fail (f e)) := fun s => by
  refine ends_onError.2 ((hx s).mono (fun _ _ h => h) fun e t ht => ?_)
  cases e with
  | error e =>
    refine ends_bind.2 ((htidy e t).mono (fun _ t' ht' => ends_fail.2 fun hs => ?_) ?_)
    · exact ht'.2 (ht (hs.imp id (h e)))
    · exact fun e' t' ht' hs => ht' (hs.imp (fun hs => ht (.inl hs)) id)
  | panic p => exact ht

end

theorem forM {γ : Type} {act : γ → EStateM ε σ PUnit} (h : ∀ c, Honest P bad (act c))
    (xs : List γ) : Honest P bad (xs.forM act) := by
  induction xs with
  | nil => exact pure _
  | cons c rest ih => exact (h c).bind fun _ => ih

theorem forSteps {act : UInt64 → EStateM ε σ Unit} (h : ∀ w, Honest P bad (act w))
    (start stop : UInt64) : Honest P bad (PagedKernel.forSteps start stop act) := by
  rw [forSteps_eq]
  exact forM h _

theorem forPages {act : VirtualAddress → EStateM ε σ Unit} (h : ∀ w, Honest P bad (act w))
    (va stop : VirtualAddress) : Honest P bad (va.forPages stop act) :=
  forSteps (fun w => h ⟨w⟩) _ _

end Honest

/-! ## memory -/

/-- a computation on a machine that fails as `L` says only if the log tells of it -/
abbrev Tells {ε α : Type} (L : ε → Prop) (x : Attempt Machine ε α) : Prop :=
  Honest Machine.Starved (Lost L) x

namespace Machine

theorem honest_inspect {α : Type} (question : Memory → Except Panic α) :
    Honest Starved NoneLost (inspect question) := by
  intro m
  unfold Ends inspect
  cases question m.toMemory with
  | ok a => exact Iff.rfl
  | error p => exact fun hs => hs.resolve_right id

theorem honest_update (change : Memory → Memory) : Honest Starved NoneLost (update change) :=
  .modify fun _ => Iff.rfl

theorem honest_record (severity : Severity) {target : String} (message : String)
    (h : target ≠ outOfFrames.target) :
    Honest Starved NoneLost (record severity target message) := by
  refine .modify fun m => ?_
  rw [Starved, Starved, Array.mem_push]
  exact or_iff_left fun heq => h (congrArg Record.target heq).symm

theorem honest_setFrame (f : Frame) (change : FrameData → FrameData) :
    Honest Starved NoneLost (setFrame f change) :=
  .bind .get fun _ => .ite (honest_update _) (.stop id)

theorem honest_copyFrame (f g : Frame) : Honest Starved NoneLost (copyFrame f g) :=
  (honest_inspect _).bind fun _ => honest_setFrame _ _

theorem honest_store (pa : PhysicalAddress) (bytes : ByteArray) :
    Honest Starved NoneLost (store pa bytes) :=
  .bind .get fun _ => .ite (honest_update _) (.stop id)

theorem tells_retain (f : Frame) : Tells (fun _ => False) (retain f) :=
  .bind .get fun _ => .bind (.ofResult fun _ => id) fun _ => .lift (honest_update _)

theorem tells_release (f : Frame) : Tells (fun _ => False) (release f) :=
  .ite (.pure _) (.bind .get fun _ => .bind (.ofResult fun _ => id) fun _ =>
    .lift (honest_update _))

/-- the log tells that no frame was handed out exactly when none was -/
theorem ends_allocate_starved (m : Machine) :
    Ends allocate m (fun f? m' => m'.Starved ↔ m.Starved ∨ f? = none) Never := by
  unfold allocate
  rw [ends_bind, ends_get]
  cases m.ledger.firstFree? with
  | some f => exact (or_iff_left (Option.some_ne_none f)).symm
  | none => exact ⟨fun _ => .inr rfl, fun _ => Array.mem_push_self⟩

theorem ends_allocateClear_starved (m : Machine) :
    Ends allocateClear m (fun f? m' => m'.Starved ↔ m.Starved ∨ f? = none) fun _ m' =>
      m.Starved → m'.Starved := by
  unfold allocateClear
  refine ends_bind.2 ((ends_allocate_starved m).mono (fun f? m' h => ?_) fun _ _ hn => hn.elim)
  cases f? with
  | none => exact ends_pure.2 h
  | some f =>
    refine ends_bind.2 ((honest_setFrame f _ m').mono (fun _ m'' h' => ends_pure.2 (h'.trans h))
      fun _ m'' h' hs => ?_)
    exact h' (.inl (h.2 (.inl hs)))

/-- who asks for a frame and gets none fails for want of memory -/
theorem tells_of_allocate {ε α γ : Type} {L : ε → Prop} {e : ε}
    {f : Option γ → Attempt Machine ε α} {x : Action Machine (Option γ)}
    (hx : ∀ m, Ends x m (fun f? m' => m'.Starved ↔ m.Starved ∨ f? = none) fun _ m' =>
      m.Starved → m'.Starved)
    (some : ∀ frame, Tells L (f (some frame))) (none : f none = Attempt.fail e) :
    Tells L ((liftM x : Attempt Machine ε (Option γ)) >>= f) := by
  intro m
  refine ends_bind.2 (ends_lift.2 ((hx m).mono (fun f? m' h => ?_) fun p m' h hs =>
    h (hs.resolve_right id)))
  cases f? with
  | some frame =>
    rw [or_iff_left (Option.some_ne_none frame)] at h
    exact (some frame m').mono (fun _ _ h' => h'.trans h) fun _ _ h' hs => h' (hs.imp h.2 id)
  | none =>
    rw [none]
    exact ends_fail.2 fun _ => h.2 (.inr rfl)

end Machine

namespace AddressSpace

open Machine

theorem ends_allocate_starved (m : Machine) :
    Ends allocate m (fun space? m' => m'.Starved ↔ m.Starved ∨ space? = none) fun _ m' =>
      m.Starved → m'.Starved := by
  unfold allocate
  refine ends_bind.2 ((ends_allocateClear_starved m).mono (fun f? m' h => ends_pure.2 ?_)
    fun _ _ h => h)
  rw [h, Option.map_eq_none_iff]

/-! ## mapping pages -/

theorem tells_descend (va : VirtualAddress) (table : Frame) (level : Level) :
    Tells (fun _ => True) (descend va table level) :=
  .bind (.lift (honest_inspect _)) fun _ => .ite (.pure _) <|
    tells_of_allocate ends_allocateClear_starved (fun _ =>
      .bind (.liftExcept _) fun _ => .bind (.lift (honest_setFrame _ _)) fun _ => .pure _) rfl

theorem tells_descendAll (va : VirtualAddress) (levels : List Level) (table : Frame) :
    Tells (fun _ => True) (levels.foldlM (descend va) table) := by
  induction levels generalizing table with
  | nil => exact .pure table
  | cons level below ih => exact (tells_descend va table level).bind ih

theorem tells_map (space : AddressSpace) (va : VirtualAddress) (f : Frame) (p : Permissions) :
    Tells (fun _ => True) (space.map va f p) := by
  refine .ite ((tells_descendAll _ _ _).bind fun _ => .bind (.liftExcept _) fun _ =>
    .lift (honest_setFrame _ _)) (.bind (.lift (honest_inspect _)) fun found? => ?_)
  cases found? with
  | some found => exact .lift (honest_setFrame _ _)
  | none => exact .pure _

variable {space : AddressSpace} {layout : Layout}

theorem tells_claimFrame : Tells MemoryError.IsShort claimFrame :=
  tells_of_allocate (fun m => (Machine.ends_allocate_starved m).mono (fun _ _ h => h)
    fun _ _ hn => hn.elim) (fun f => .pure f) rfl

theorem tells_mapOrRelease (va : VirtualAddress) (f : Frame) (p : Permissions) :
    Tells MemoryError.IsShort (space.mapOrRelease va f p) :=
  (space.tells_map va f p).rethrow (fun _ => (tells_release f).mapError fun _ => id)
    fun _ _ => trivial

theorem tells_mapClear (va : VirtualAddress) (p : Permissions) :
    Tells MemoryError.IsShort (space.mapClear va p) :=
  tells_claimFrame.bind fun f => .bind (.lift (honest_setFrame f _)) fun _ =>
    tells_mapOrRelease va f p

/-! ## loading a program -/

theorem tells_writeFrom (va : VirtualAddress) (bytes : ByteArray) (right : Privilege) (done : Nat) :
    Tells (fun _ => False) (space.writeFrom va bytes right done) := by
  induction hleft : bytes.size - done using Nat.strongRecOn generalizing done with
  | ind left ih =>
    rw [writeFrom]
    split
    · next hlt =>
      refine .bind (.liftExcept _) fun place => .bind (.lift (honest_inspect _)) fun found =>
        .bind (.ofResult fun _ => id) fun pa => .bind (.lift (honest_store _ _)) fun _ => ?_
      have hpos := pageChunk_pos place (bytes.size - done) (by omega)
      exact ih _ (by omega) _ rfl
    · exact .pure _

theorem tells_mapSegmentPage (s : Segment) (va : VirtualAddress) :
    Tells MemoryError.IsShort (space.mapSegmentPage s va) := by
  refine .bind (.lift (honest_inspect _)) fun found? => ?_
  cases found? with
  | some m => exact .ite ((space.tells_map va _ _).mapError fun _ _ => trivial) (.pure _)
  | none => exact tells_mapClear va _

theorem tells_loadSegment (s : Segment) :
    Tells SetupError.IsShort (space.loadSegment layout s) :=
  .bind (.liftExcept _) fun _ => .bind (.orFail _ id) fun _ => .bind (.liftExcept _) fun _ =>
    .bind (.forPages (fun va =>
        .mapError (f := SetupError.memory) (tells_mapSegmentPage s va) fun _ => id) _ _) fun _ =>
      .bind ((tells_writeFrom _ _ _ _).mapError fun _ => id) fun _ =>
        (tells_writeFrom _ _ _ _).mapError fun _ => id

theorem tells_shareKernel (kernelSpace : AddressSpace) :
    Tells MemoryError.IsShort (space.shareKernel kernelSpace layout) := by
  refine .forPages (fun va => .bind (.lift (honest_inspect _)) fun found? => ?_) _ _
  cases found? with
  | some m => exact (space.tells_map va _ _).mapError fun _ _ => trivial
  | none => exact .pure _

theorem tells_load (kernelSpace : AddressSpace) (image : ProgramImage) :
    Tells SetupError.IsShort (space.load kernelSpace layout image) :=
  .bind ((tells_shareKernel kernelSpace).mapError fun _ => id) fun _ =>
    .bind (.forM (fun s => tells_loadSegment s) _) fun _ =>
      .bind (tells_claimFrame.mapError fun _ => id) fun f =>
        .bind (.lift (honest_setFrame f _)) fun _ => .bind (.liftExcept _) fun va =>
          (tells_mapOrRelease va f _).mapError fun _ => id

/-! ## copying and giving back -/

theorem tells_copyPage (m : Mapping) : Tells MemoryError.IsShort (space.copyPage layout m) :=
  .ite ((space.tells_map _ _ _).mapError fun _ _ => trivial) <|
    .ite (tells_claimFrame.bind fun f => .bind (.lift (honest_copyFrame _ f)) fun _ =>
        tells_mapOrRelease _ f _)
      (.bind ((tells_retain _).mapError fun _ => id) fun _ => tells_mapOrRelease _ _ _)

theorem tells_copyInto (target : AddressSpace) :
    Tells MemoryError.IsShort (space.copyInto target layout) := by
  refine .forPages (fun va => .bind (.lift (honest_inspect _)) fun found? => ?_) _ _
  cases found? with
  | some m => exact tells_copyPage m
  | none => exact .pure _

theorem tells_replace (va : VirtualAddress) : Tells MemoryError.IsShort (space.replace va) := by
  refine .bind (.lift (honest_inspect _)) fun old => .bind (tells_mapClear va _) fun _ => ?_
  cases old with
  | some m => exact (tells_release m.frame).mapError fun _ => id
  | none => exact .pure _

theorem tells_free : Tells (fun _ => False) (space.free layout) := by
  unfold free
  refine .bind (.forPages (fun va => .bind (.lift (honest_inspect _)) fun found? => ?_) _ _)
    fun _ => .bind (.lift (honest_inspect _)) fun tables => .bind ?_ fun _ => tells_release _
  · cases found? with
    | some m => exact tells_release m.frame
    | none => exact .pure _
  · refine Honest.forM (fun t => ?_) tables
    exact tells_release t.frame

end AddressSpace

end PagedKernel
