import PagedKernel.Kernel.View
import PagedKernel.Proofs.Process.Sound
import PagedKernel.Proofs.Process.Table

/-!
# The memory view always shows something

* `Viewer.select_cases`      a process that has an address space is shown, or none
* `MemoryView.summary_ok`    the view can be told in numbers
-/

namespace PagedKernel

theorem filterMapM_ok {α β : Type} {question : α → Except Panic (Option β)} (xs : List α)
    (h : ∀ x ∈ xs, ∃ y, question x = .ok y) : ∃ ys, xs.filterMapM question = .ok ys := by
  induction xs with
  | nil => exact ⟨[], rfl⟩
  | cons x rest ih =>
    obtain ⟨y, hy⟩ := h x List.mem_cons_self
    obtain ⟨ys, hys⟩ := ih fun x' hx' => h x' (List.mem_cons_of_mem x hx')
    rw [List.filterMapM_cons, hy, ok_bind]
    cases y with
    | none => exact ⟨ys, hys⟩
    | some y =>
      refine ⟨y :: ys, ?_⟩
      dsimp only
      rw [hys, ok_bind, ok_pure]

theorem Viewer.displayable_eq {n : Nat} {t : ProcessTable n} {pid : Pid} {x : Pid × AddressSpace}
    (h : displayable t pid = some x) : x.1 = pid ∧ t.space? x.1 = some x.2 := by
  obtain ⟨s, hs, rfl⟩ := Option.map_eq_some_iff.1 h
  exact ⟨rfl, hs⟩

/-- the viewer shows a process that has an address space, or none; and it stays in the table -/
theorem Viewer.select_cases {n : Nat} (v : Viewer) (t : ProcessTable n) (ticks : UInt64)
    (hz : UInt32) (hshown : v.shown < n) (hn : n ≤ 2 ^ 63) :
    ∃ found viewer, v.select t ticks hz = .ok (found, viewer) ∧ viewer.shown < n ∧
      ∀ x, found = some x → t.space? x.1 = some x.2 := by
  unfold select
  cases hnow : (if v.isDue ticks hz = true then none else displayable t v.shown) with
  | some x =>
    refine ⟨some x, v, rfl, hshown, ?_⟩
    rintro x' ⟨⟩
    exact (displayable_eq (Option.ite_none_left_eq_some.1 hnow).2).2
  | none =>
    rcases scanFind_cases (displayable t) hshown hn with ⟨pid, x, hpid, hx, heq⟩ | ⟨-, heq⟩
    · obtain ⟨hself, hspace⟩ := displayable_eq hx
      refine ⟨some x, ⟨x.1, ticks⟩, ?_, ?_, ?_⟩
      · dsimp only
        rw [heq, ok_bind]
        rfl
      · rw [hself]
        exact hpid
      · rintro x' ⟨⟩
        exact hspace
    · refine ⟨none, { v with switchedAt := ticks }, ?_, hshown, nofun⟩
      dsimp only
      rw [heq, ok_bind, ok_pure]

/-- what can be listed can be told in numbers -/
theorem MemoryView.summary_ok (mem : Memory) (v : MemoryView)
    (h : ∀ x, v.shown = some x → ∃ ms, x.2.mappings mem ⟨v.user.start⟩ ⟨v.user.stop⟩ = .ok ms) :
    ∃ s, v.summary mem = .ok s := by
  have hmappings : ∃ ms, v.mappings mem = .ok ms := by
    unfold mappings
    cases hx : v.shown with
    | none => exact ⟨[], rfl⟩
    | some x => exact h x hx
  obtain ⟨ms, hms⟩ := hmappings
  unfold summary
  rw [hms, ok_bind, ok_pure]
  exact ⟨_, rfl⟩

end PagedKernel
