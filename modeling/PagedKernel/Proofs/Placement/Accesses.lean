import PagedKernel.Proofs.EndsAlike
import PagedKernel.Proofs.Process.Copy

/-!
# Processes that see the same

On machines of different size a process is given different frames.  What it can find out about its
memory is the same on both, as long as its pages allow the same and hold the same.

* `Layout.resized`                a layout with another size of physical memory
* `Furnished l kr procs r mem`    the process of `r` maps all that the kernel maps
* `Alike l r₁ r₂ mem₁ mem₂`       two processes see the same of their pages and of the console
* `Paired l r₁ r₂ mem₁ mem₂ f₁ f₂`   what one process uses `f₁` for the other uses `f₂` for
* `Alike.readFrom`, `Alike.readText`   they read the same
* `Alike.ends_writeFrom`          they may write the same, and see the same then
-/

namespace PagedKernel

variable {l : Layout} {size : UInt64} {kr kr₁ kr₂ r r₁ r₂ f f₁ f₂ : Frame}
  {procs procs₁ procs₂ : Finset Frame} {mem mem' mem₁ mem₂ mem₁' mem₂' : Memory} {n : Nat}
  {p : Permissions}

/-! ## layouts of another size -/

/-- the same layout with another size of physical memory -/
def Layout.resized (l : Layout) (size : UInt64) : Layout := { l with physicalSize := size }

/-- below the memory of the processes the kernel maps the same on machines of all sizes -/
theorem Layout.kernelPage_resized (hl : l.Ordered) (hl' : (l.resized size).Ordered)
    (hn : n < l.firstPage) : (l.resized size).kernelPage n = l.kernelPage n := by
  have h₁ := hl.firstPage_le
  have h₂ : l.firstPage ≤ (l.resized size).frameCount := hl'.firstPage_le
  have hiff : 0 < n ∧ n < (l.resized size).frameCount ↔ 0 < n ∧ n < l.frameCount :=
    ⟨fun h => ⟨h.1, by omega⟩, fun h => ⟨h.1, by omega⟩⟩
  unfold kernelPage
  exact if_congr hiff rfl rfl

/-! ## a process that maps the kernel's part -/

/-- memory is sound, and the process of `r` maps all that the kernel maps below it -/
structure Furnished (l : Layout) (kr : Frame) (procs : Finset Frame) (r : Frame) (mem : Memory) :
    Prop where
  sound : Sound l kr procs [] mem
  root : r ∈ procs
  low : ∀ n < l.firstPage, mem.pageAt r n = l.kernelPage n

namespace Furnished

/-- what a process may use lies in memory, and is no table -/
theorem of_user (h : Furnished l kr procs r mem) (hpage : mem.pageAt r n = some (f, p))
    (hu : p.user = true) :
    mem.hasFrame f = true ∧ ∀ r' ∈ insert kr procs, ¬ mem.IsTable r' f := by
  rw [← Memory.pageAt_mod] at hpage
  obtain ⟨hin, hlt⟩ := AddressSpace.hasFrame_of_page h.sound h.root (Nat.mod_lt _ (by decide)) hpage
  refine ⟨hin, ?_⟩
  by_cases hlow : n % 2 ^ 36 < l.firstPage
  · obtain ⟨-, hf⟩ := AddressSpace.console_of_user h.sound h.root hlow hpage hu
    exact AddressSpace.not_isTable_of_writable h.sound h.root (.inr hf)
  · exact (h.sound.of_page h.root (Nat.le_of_not_lt hlow) hlt hpage).2.2

/-- a frame is written that is no table -/
theorem touched (h : Furnished l kr procs r mem)
    (hf : ∀ r' ∈ insert kr procs, ¬ mem.IsTable r' f) (ht : Touched (fun g => g = f) mem mem') :
    Furnished l kr procs r mem' ∧ ∀ n, mem'.pageAt r n = mem.pageAt r n := by
  have hok : ∀ g, g = f → ∀ r' ∈ insert kr procs, ¬ mem.IsTable r' g := by
    rintro g rfl
    exact hf
  have hpages : ∀ n, mem'.pageAt r n = mem.pageAt r n := by
    refine fun n => Memory.pageAt_congr (fun t htable => ht.data t ?_) n
    exact fun heq => hok t heq r (Sound.root_mem h.root) htable
  exact ⟨⟨h.sound.touched ht hok, h.root, fun n hn => (hpages n).trans (h.low n hn)⟩, hpages⟩

end Furnished

/-! ## two processes -/

theorem Machine.inspect_of_ok {ε α : Type} {m : Machine} {question : Memory → Except Panic α}
    {a : α} (h : question m.toMemory = .ok a) :
    (liftM (inspect question) : Attempt Machine ε α) m = .ok a m := by
  show (inspect question).toAttempt m = _
  unfold Action.toAttempt inspect
  rw [h]

/-- two processes see the same of their pages and of the console -/
structure Alike (l : Layout) (r₁ r₂ : Frame) (mem₁ mem₂ : Memory) : Prop where
  views : ∀ n, l.firstPage ≤ n → n < l.endPage → mem₁.viewAt r₁ n = mem₂.viewAt r₂ n
  console : mem₁.data l.consoleFrame = mem₂.data l.consoleFrame

/-- what one process uses `f₁` for the other uses `f₂` for, and they hold the same -/
structure Paired (l : Layout) (r₁ r₂ : Frame) (mem₁ mem₂ : Memory) (f₁ f₂ : Frame) : Prop where
  pages : ∀ n, l.firstPage ≤ n → n < l.endPage →
    (mem₁.frameAt r₁ n = some f₁ ↔ mem₂.frameAt r₂ n = some f₂)
  console : f₁ = l.consoleFrame ↔ f₂ = l.consoleFrame
  data : mem₁.data f₁ = mem₂.data f₂

/-- a frame that a process maps is mapped at one page, and is not the console -/
theorem Furnished.frameAt_iff (h : Furnished l kr procs r mem) (h₁ : l.firstPage ≤ n)
    (h₂ : n < l.endPage) (hpage : mem.pageAt r n = some (f, p)) :
    (∀ k, l.firstPage ≤ k → k < l.endPage → (mem.frameAt r k = some f ↔ k = n)) ∧
      f ≠ l.consoleFrame := by
  refine ⟨fun k hk hk' => ⟨fun hx => ?_, fun hkn => hkn ▸ Memory.frameAt_of_pageAt hpage⟩, ?_⟩
  · obtain ⟨q, hx⟩ := Memory.pageAt_of_frameAt hx
    exact (h.sound.shared _ h.root _ h.root _ _ _ _ _ hk hk' h₁ h₂ hx hpage).1
  · rintro rfl
    have hmanages := (h.sound.of_page h.root h₁ h₂ hpage).2.1
    cases (AddressSpace.not_manages_console h.sound).symm.trans hmanages

/-- the console is not mapped where the memory of a process is -/
theorem Furnished.frameAt_ne_console (h : Furnished l kr procs r mem) (h₁ : l.firstPage ≤ n)
    (h₂ : n < l.endPage) : mem.frameAt r n ≠ some l.consoleFrame := by
  intro hx
  obtain ⟨q, hx⟩ := Memory.pageAt_of_frameAt hx
  exact (h.frameAt_iff h₁ h₂ hx).2 rfl

namespace Alike

/-- a page is mapped by both processes, with the same permissions, or by none.  If they may use it
its frames are used for the same. -/
theorem page_cases (h : Alike l r₁ r₂ mem₁ mem₂) (h₁ : Furnished l kr₁ procs₁ r₁ mem₁)
    (h₂ : Furnished (l.resized size) kr₂ procs₂ r₂ mem₂) (n : Nat) :
    mem₁.pageAt r₁ n = none ∧ mem₂.pageAt r₂ n = none ∨
      ∃ f₁ f₂ p, mem₁.pageAt r₁ n = some (f₁, p) ∧ mem₂.pageAt r₂ n = some (f₂, p) ∧
        (p.user = true → Paired l r₁ r₂ mem₁ mem₂ f₁ f₂) := by
  rw [← Memory.pageAt_mod n, ← Memory.pageAt_mod n]
  have hn : n % 2 ^ 36 < 2 ^ 36 := Nat.mod_lt _ (by decide)
  generalize n % 2 ^ 36 = n at hn
  by_cases hlow : n < l.firstPage
  · have hpage₁ := h₁.low n hlow
    have hpage₂ := (h₂.low n hlow).trans
      (Layout.kernelPage_resized h₁.sound.ordered h₂.sound.ordered hlow)
    cases hkernel : l.kernelPage n with
    | none => exact .inl ⟨hpage₁.trans hkernel, hpage₂.trans hkernel⟩
    | some x =>
      obtain ⟨f, p⟩ := x
      rw [hkernel] at hpage₁ hpage₂
      refine .inr ⟨f, f, p, hpage₁, hpage₂, fun hu => ?_⟩
      obtain ⟨-, rfl⟩ := AddressSpace.console_of_user h₁.sound h₁.root hlow hpage₁ hu
      exact ⟨fun k hk hk' => ⟨fun hx => absurd hx (h₁.frameAt_ne_console hk hk'),
        fun hx => absurd hx (h₂.frameAt_ne_console hk hk')⟩, Iff.rfl, h.console⟩
  · have hlow := Nat.le_of_not_lt hlow
    by_cases hend : n < l.endPage
    · have hview := h.views n hlow hend
      cases hpage₁ : mem₁.pageAt r₁ n with
      | none =>
        rw [Memory.viewAt_of_none hpage₁] at hview
        exact .inl ⟨rfl, Memory.pageAt_of_viewAt_none hview.symm⟩
      | some x =>
        cases hpage₂ : mem₂.pageAt r₂ n with
        | none =>
          rw [Memory.viewAt_of_none hpage₂] at hview
          cases (Memory.pageAt_of_viewAt_none hview).symm.trans hpage₁
        | some y =>
          rw [Memory.viewAt_of_pageAt hpage₁, Memory.viewAt_of_pageAt hpage₂] at hview
          obtain ⟨hperms, hdata⟩ := Prod.mk.inj (Option.some.inj hview)
          obtain ⟨f₁, p⟩ := x
          obtain ⟨f₂, q⟩ := y
          obtain rfl : p = q := hperms
          obtain ⟨honly₁, hne₁⟩ := h₁.frameAt_iff hlow hend hpage₁
          obtain ⟨honly₂, hne₂⟩ := h₂.frameAt_iff hlow hend hpage₂
          refine .inr ⟨f₁, f₂, p, rfl, rfl, fun _ => ⟨fun k hk hk' => ?_, ?_, hdata⟩⟩
          · exact (honly₁ k hk hk').trans (honly₂ k hk hk').symm
          · exact ⟨fun heq => absurd heq hne₁, fun heq => absurd heq hne₂⟩
    · have hend := Nat.le_of_not_lt hend
      exact .inl ⟨h₁.sound.high _ h₁.root n hend hn, h₂.sound.high _ h₂.root n hend hn⟩

/-- an access comes to the same on both sides -/
theorem resolved_cases (h : Alike l r₁ r₂ mem₁ mem₂) (h₁ : Furnished l kr₁ procs₁ r₁ mem₁)
    (h₂ : Furnished (l.resized size) kr₂ procs₂ r₂ mem₂) (va : VirtualAddress) (right : Privilege) :
    (∃ fault, mem₁.resolved r₁ va right = .error fault ∧
      mem₂.resolved r₂ va right = .error fault) ∨
    ∃ f₁ f₂ p, mem₁.pageAt r₁ va.page.number.toNat = some (f₁, p) ∧
      mem₂.pageAt r₂ va.page.number.toNat = some (f₂, p) ∧ Memory.grants p right = true ∧
      mem₁.resolved r₁ va right = .ok (f₁.address va.offset) ∧
      mem₂.resolved r₂ va right = .ok (f₂.address va.offset) ∧
      (p.user = true → Paired l r₁ r₂ mem₁ mem₂ f₁ f₂) := by
  rcases h.page_cases h₁ h₂ va.page.number.toNat with ⟨hnone₁, hnone₂⟩ | ⟨f₁, f₂, p, hpage₁, hpage₂,
    hpaired⟩
  · exact .inl ⟨_, Memory.resolved_of_none hnone₁, Memory.resolved_of_none hnone₂⟩
  · by_cases hg : Memory.grants p right = true
    · exact .inr ⟨f₁, f₂, p, hpage₁, hpage₂, hg, Memory.resolved_of_granted hpage₁ hg,
        Memory.resolved_of_granted hpage₂ hg, hpaired⟩
    · exact .inl ⟨_, Memory.resolved_of_denied hpage₁ hg, Memory.resolved_of_denied hpage₂ hg⟩

/-! ## reading -/

/-- a process may read what its pages let it use -/
theorem user_of_grants {a : Access} (ha : a.user = true)
    (hg : Memory.grants p (.process a) = true) : p.user = true := by
  rw [Memory.grants, Bool.not_eq_true', AddressSpace.refuses, Bool.or_eq_false_iff, ha,
    Bool.true_and, Bool.not_eq_false'] at hg
  exact hg.1

/-- both processes read the same, up to the same fault -/
theorem readFrom (h : Alike l r₁ r₂ mem₁ mem₂) (h₁ : Furnished l kr₁ procs₁ r₁ mem₁)
    (h₂ : Furnished (l.resized size) kr₂ procs₂ r₂ mem₂) (va : VirtualAddress)
    (length done : Nat) (out : ByteArray) :
    (AddressSpace.mk r₁).readFrom mem₁ va length done out
      = (AddressSpace.mk r₂).readFrom mem₂ va length done out := by
  induction hleft : length - done using Nat.strongRecOn generalizing done out with
  | ind left ih =>
    by_cases hdone : done < length
    · cases hplace : va.advance done with
      | error e =>
        rw [AddressSpace.readFrom, AddressSpace.readFrom, dif_pos hdone, dif_pos hdone, hplace]
        rfl
      | ok place =>
        have hresolve₁ := Memory.resolve_eq h₁.sound.forest (Sound.root_mem h₁.root) place
          (.process .userRead)
        have hresolve₂ := Memory.resolve_eq h₂.sound.forest (Sound.root_mem h₂.root) place
          (.process .userRead)
        rcases h.resolved_cases h₁ h₂ place (.process .userRead) with ⟨fault, hres₁, hres₂⟩ |
          ⟨f₁, f₂, p, hpage₁, hpage₂, hg, hres₁, hres₂, hpaired⟩
        · rw [hres₁] at hresolve₁
          rw [hres₂] at hresolve₂
          rw [AddressSpace.readFrom_denied hdone hplace hresolve₁,
            AddressSpace.readFrom_denied hdone hplace hresolve₂]
        · rw [hres₁] at hresolve₁
          rw [hres₂] at hresolve₂
          have huser := user_of_grants rfl hg
          have hfit : pageChunk place (length - done) ≤ 4096 - place.offset.toNat :=
            Nat.min_le_right _ _
          have hread₁ := AddressSpace.read_eq (h₁.of_user hpage₁ huser).1
            (Memory.pageAt_eq_some hpage₁).1 hfit
          have hread₂ := AddressSpace.read_eq (h₂.of_user hpage₂ huser).1
            (Memory.pageAt_eq_some hpage₂).1 hfit
          have hchunk := pageChunk_pos place (length - done) (by omega)
          rw [AddressSpace.readFrom_granted _ hdone hplace hresolve₁ hread₁,
            AddressSpace.readFrom_granted _ hdone hplace hresolve₂ hread₂, (hpaired huser).data]
          exact ih _ (by omega) _ _ rfl
    · rw [AddressSpace.readFrom_done _ (Nat.not_lt.1 hdone),
        AddressSpace.readFrom_done _ (Nat.not_lt.1 hdone)]

theorem readTextFrom (h : Alike l r₁ r₂ mem₁ mem₂) (h₁ : Furnished l kr₁ procs₁ r₁ mem₁)
    (h₂ : Furnished (l.resized size) kr₂ procs₂ r₂ mem₂) (va : VirtualAddress) (left : Nat)
    (out : ByteArray) :
    (AddressSpace.mk r₁).readTextFrom mem₁ va left out
      = (AddressSpace.mk r₂).readTextFrom mem₂ va left out := by
  induction left using Nat.strongRecOn generalizing va out with
  | ind left ih =>
    rw [AddressSpace.readTextFrom, AddressSpace.readTextFrom]
    by_cases hleft : 0 < left
    · have hpos := pageChunk_pos va left hleft
      have hcopy : (AddressSpace.mk r₁).copyFrom mem₁ va (pageChunk va left)
          = (AddressSpace.mk r₂).copyFrom mem₂ va (pageChunk va left) := h.readFrom h₁ h₂ va _ 0 _
      rw [dif_pos hleft, dif_pos hleft]
      dsimp only
      rw [hcopy]
      refine congrArg _ (funext fun x => ?_)
      obtain ⟨part, fault?⟩ := x
      cases fault? with
      | some fault => rfl
      | none =>
        dsimp only
        cases part.findIdx? (· == 0) with
        | some stop => rfl
        | none => exact congrArg _ (funext fun next => ih _ (by omega) next _)
    · rw [dif_neg hleft, dif_neg hleft]

/-- both processes tell the same text -/
theorem readText (h : Alike l r₁ r₂ mem₁ mem₂) (h₁ : Furnished l kr₁ procs₁ r₁ mem₁)
    (h₂ : Furnished (l.resized size) kr₂ procs₂ r₂ mem₂) (va : VirtualAddress) :
    (AddressSpace.mk r₁).readText mem₁ va = (AddressSpace.mk r₂).readText mem₂ va := by
  rw [AddressSpace.readText, AddressSpace.readText, h.readTextFrom h₁ h₂]

/-! ## writing -/

/-- the same is written into frames that are used for the same -/
theorem stored {d : FrameData} (h : Alike l r₁ r₂ mem₁ mem₂)
    (hpaired : Paired l r₁ r₂ mem₁ mem₂ f₁ f₂)
    (ht₁ : Touched (fun g => g = f₁) mem₁ mem₁') (ht₂ : Touched (fun g => g = f₂) mem₂ mem₂')
    (hpages₁ : ∀ n, mem₁'.pageAt r₁ n = mem₁.pageAt r₁ n)
    (hpages₂ : ∀ n, mem₂'.pageAt r₂ n = mem₂.pageAt r₂ n)
    (hd₁ : mem₁'.data f₁ = d) (hd₂ : mem₂'.data f₂ = d) : Alike l r₁ r₂ mem₁' mem₂' := by
  refine ⟨fun n hn hn' => ?_, ?_⟩
  · have hview := h.views n hn hn'
    by_cases hat : mem₁.frameAt r₁ n = some f₁
    · obtain ⟨p₁, hpage₁⟩ := Memory.pageAt_of_frameAt hat
      obtain ⟨p₂, hpage₂⟩ := Memory.pageAt_of_frameAt ((hpaired.pages n hn hn').1 hat)
      rw [Memory.viewAt_of_pageAt hpage₁, Memory.viewAt_of_pageAt hpage₂] at hview
      rw [Memory.viewAt_of_pageAt ((hpages₁ n).trans hpage₁),
        Memory.viewAt_of_pageAt ((hpages₂ n).trans hpage₂), hd₁, hd₂,
        (Prod.mk.inj (Option.some.inj hview)).1]
    · rw [Memory.viewAt_congr (hpages₁ n) fun g p hx => ht₁.data g ?_, hview]
      · refine (Memory.viewAt_congr (hpages₂ n) fun g p hx => ht₂.data g ?_).symm
        rintro rfl
        exact hat ((hpaired.pages n hn hn').2 (Memory.frameAt_of_pageAt hx))
      · rintro rfl
        exact hat (Memory.frameAt_of_pageAt hx)
  · by_cases hconsole : l.consoleFrame = f₁
    · have hconsole₂ := hpaired.console.1 hconsole.symm
      rw [hconsole, hd₁, ← hconsole, ← hconsole₂, hd₂]
    · have hne : ¬ l.consoleFrame = f₂ := fun heq => hconsole (hpaired.console.2 heq.symm).symm
      rw [ht₁.data _ hconsole, ht₂.data _ hne, h.console]

variable {m₁ m₂ : Machine} {right : Privilege} {inv : Nat → Prop} {ok : Frame → Prop}
  {lost : Stop UserFault → Prop}

/-- the same is stored at the same place of frames that are used for the same -/
theorem ends_store {place : VirtualAddress} {part : ByteArray}
    (h : Alike l r₁ r₂ m₁.toMemory m₂.toMemory) (h₁ : Furnished l kr₁ procs₁ r₁ m₁.toMemory)
    (h₂ : Furnished (l.resized size) kr₂ procs₂ r₂ m₂.toMemory)
    (hpage₁ : m₁.pageAt r₁ n = some (f₁, p)) (hpage₂ : m₂.pageAt r₂ n = some (f₂, p))
    (hu : p.user = true) (hpaired : Paired l r₁ r₂ m₁.toMemory m₂.toMemory f₁ f₂)
    (hfit : place.offset.toNat + part.size ≤ 4096) :
    EndAlike lost (liftM (Machine.store (f₁.address place.offset) part) : Attempt Machine _ Unit)
      (liftM (Machine.store (f₂.address place.offset) part) : Attempt Machine _ Unit) m₁ m₂
      (fun _ _ m₁' m₂' => Alike l r₁ r₂ m₁'.toMemory m₂'.toMemory ∧
        (Furnished l kr₁ procs₁ r₁ m₁'.toMemory ∧ (∀ n, m₁'.pageAt r₁ n = m₁.pageAt r₁ n) ∧
          m₁'.contents.size = m₁.contents.size) ∧
        Furnished (l.resized size) kr₂ procs₂ r₂ m₂'.toMemory)
      fun _ m₁' m₂' => Alike l r₁ r₂ m₁'.toMemory m₂'.toMemory := by
  have hoffset := place.offset_lt
  obtain ⟨hin₁, hnot₁⟩ := h₁.of_user hpage₁ hu
  obtain ⟨hin₂, hnot₂⟩ := h₂.of_user hpage₂ hu
  have hpa₁ := Frame.toNat_address (Memory.pageAt_eq_some hpage₁).1 hoffset
  have hpa₂ := Frame.toNat_address (Memory.pageAt_eq_some hpage₂).1 hoffset
  have hplace₁ : (f₁.address place.offset).value.toNat % 4096 = place.offset.toNat := by omega
  have hplace₂ : (f₂.address place.offset).value.toNat % 4096 = place.offset.toNat := by omega
  have hfit₁ : (f₁.address place.offset).value.toNat % 4096 + part.size ≤ 4096 := by omega
  have hfit₂ : (f₂.address place.offset).value.toNat % 4096 + part.size ≤ 4096 := by omega
  have hstore₁ := Machine.ends_store hin₁ (by omega) hfit₁
  have hstore₂ := Machine.ends_store hin₂ (by omega) hfit₂
  rw [hplace₁] at hstore₁
  rw [hplace₂, ← hpaired.data] at hstore₂
  refine .lift (.of_ends hstore₁ hstore₂ (fun _ m₁' _ m₂' hm₁ hm₂ => ?_)
    (fun _ _ _ _ hn _ => hn.elim) (fun _ _ _ _ hn _ => hn.elim) fun _ _ _ _ _ hn => hn.elim)
  obtain ⟨h₁', hpages₁⟩ := h₁.touched hnot₁ hm₁.1
  obtain ⟨h₂', hpages₂⟩ := h₂.touched hnot₂ hm₂.1
  exact ⟨h.stored hpaired hm₁.1 hm₂.1 hpages₁ hpages₂ hm₁.2 hm₂.2, ⟨h₁', hpages₁, hm₁.1.size⟩, h₂'⟩

/-- both processes write the same, or are refused at the same page -/
theorem ends_writeFrom (va : VirtualAddress) (bytes : ByteArray)
    (h : Alike l r₁ r₂ m₁.toMemory m₂.toMemory) (h₁ : Furnished l kr₁ procs₁ r₁ m₁.toMemory)
    (h₂ : Furnished (l.resized size) kr₂ procs₂ r₂ m₂.toMemory)
    (hruns : AddressSpace.Runs m₁.toMemory r₁ right inv ok)
    (huser : ∀ n f p, inv n → m₁.pageAt r₁ n = some (f, p) → Memory.grants p right = true →
      p.user = true) (done : Nat)
    (hstart : done < bytes.size →
      va.value.toNat + done < 2 ^ 64 ∧ inv ((va.value.toNat + done) / 4096)) :
    EndAlike lost ((AddressSpace.mk r₁).writeFrom va bytes right done)
      ((AddressSpace.mk r₂).writeFrom va bytes right done) m₁ m₂
      (fun _ _ m₁' m₂' => Alike l r₁ r₂ m₁'.toMemory m₂'.toMemory)
      fun _ m₁' m₂' => Alike l r₁ r₂ m₁'.toMemory m₂'.toMemory := by
  induction hleft : bytes.size - done using Nat.strongRecOn generalizing done m₁ m₂ with
  | ind left ih =>
    rw [AddressSpace.writeFrom, AddressSpace.writeFrom]
    by_cases hdone : done < bytes.size
    · obtain ⟨hlt, hinv⟩ := hstart hdone
      obtain ⟨place, hadvance, hvalue, hnumber⟩ := AddressSpace.exists_place hlt
      rw [← hnumber] at hinv
      have hresolve₁ := Memory.resolve_eq h₁.sound.forest (Sound.root_mem h₁.root) place right
      have hresolve₂ := Memory.resolve_eq h₂.sound.forest (Sound.root_mem h₂.root) place right
      rw [dif_pos hdone, dif_pos hdone, hadvance]
      refine .bind_ok m₁ m₂ rfl rfl (.bind_ok m₁ m₂ (Machine.inspect_of_ok hresolve₁)
        (Machine.inspect_of_ok hresolve₂) ?_)
      rcases h.resolved_cases h₁ h₂ place right with ⟨fault, hres₁, hres₂⟩ |
        ⟨f₁, f₂, p, hpage₁, hpage₂, hg, hres₁, hres₂, hpaired⟩
      · rw [hres₁, hres₂]
        exact .inr (.inr ⟨rfl, h⟩)
      · rw [hres₁, hres₂]
        have hu := huser _ _ _ hinv hpage₁ hg
        obtain ⟨hnext, hinv', -, -⟩ := hruns _ f₁ p hinv hpage₁ hg
        have hoffset := place.offset_lt
        have hchunk := pageChunk_pos place (bytes.size - done) (by omega)
        have hchunk' : pageChunk place (bytes.size - done) ≤ 4096 - place.offset.toNat :=
          Nat.min_le_right _ _
        have hfit : place.offset.toNat
            + (bytes.extract done (done + pageChunk place (bytes.size - done))).size ≤ 4096 := by
          rw [ByteArray.size_extract]
          omega
        refine .bind_ok m₁ m₂ rfl rfl
          (.bind (h.ends_store h₁ h₂ hpage₁ hpage₂ hu (hpaired hu) hfit) ?_)
        rintro _ _ m₁' m₂' ⟨h', ⟨h₁', hpages₁, hsize₁⟩, h₂'⟩
        refine ih _ (by omega) h' h₁' h₂' (fun n f p hn hpage hg => ?_) ?_ _
          (AddressSpace.inv_next hvalue hnext hinv') rfl
        · obtain ⟨hnext, hinv, hok, hin⟩ := hruns n f p hn ((hpages₁ n).symm.trans hpage) hg
          rw [Memory.hasFrame_iff, ← hsize₁, ← Memory.hasFrame_iff] at hin
          exact ⟨hnext, hinv, hok, hin⟩
        · exact fun n f p hn hpage => huser n f p hn ((hpages₁ n).symm.trans hpage)
    · rw [dif_neg hdone, dif_neg hdone]
      exact .pure h

/-- both processes write the same as far as they may -/
theorem ends_copyTo (va : VirtualAddress) (bytes : ByteArray)
    (h : Alike l r₁ r₂ m₁.toMemory m₂.toMemory) (h₁ : Furnished l kr₁ procs₁ r₁ m₁.toMemory)
    (h₂ : Furnished (l.resized size) kr₂ procs₂ r₂ m₂.toMemory) :
    EndAlike lost ((AddressSpace.mk r₁).copyTo va bytes) ((AddressSpace.mk r₂).copyTo va bytes)
      m₁ m₂ (fun _ _ m₁' m₂' => Alike l r₁ r₂ m₁'.toMemory m₂'.toMemory)
      fun _ m₁' m₂' => Alike l r₁ r₂ m₁'.toMemory m₂'.toMemory := by
  have hvalue := va.value.toNat_lt
  refine h.ends_writeFrom va bytes h₁ h₂
    (AddressSpace.runs_process h₁.sound h₁.root .userWrite rfl)
    (fun n f p _ _ hg => user_of_grants rfl hg) 0 fun _ => ?_
  rw [Nat.add_zero]
  exact ⟨hvalue, by omega⟩

end Alike

end PagedKernel
