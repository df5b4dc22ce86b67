import Mathlib.Data.List.Nodup
import PagedKernel.Program.Registry

/-!
# What a registry holds

A registry is what was registered, the latest program of each name, in the order in which the names
first came up.

* `ProgramRegistry.latest? history name`   the last program of a name in a row of registrations
* `ProgramRegistry.Collects r history`     what a registry has of such a row
* `ProgramRegistry.Collects.register`      one more program is registered
* `ProgramRegistry.collects_foldl`         so it has, however the row is registered
-/

namespace PagedKernel

namespace ProgramRegistry

variable {r : ProgramRegistry} {history programs : List ProgramImage} {image p : ProgramImage}
  {name : String}

/-! ## one program -/

theorem map_name_insert (image : ProgramImage) (programs : List ProgramImage) :
    (insert image programs).map ProgramImage.name =
      if image.name ∈ programs.map ProgramImage.name then programs.map ProgramImage.name
      else programs.map ProgramImage.name ++ [image.name] := by
  induction programs with
  | nil => rfl
  | cons p rest ih =>
    rw [insert, List.map_cons]
    by_cases hname : p.name = image.name
    · rw [if_pos hname, List.map_cons, hname, if_pos List.mem_cons_self]
    · rw [if_neg hname, List.map_cons, ih]
      simp only [List.mem_cons, Ne.symm hname, false_or]
      split
      · rfl
      · exact (List.cons_append).symm

theorem find?_insert (image : ProgramImage) (programs : List ProgramImage) (name : String) :
    (insert image programs).find? (fun p => p.name = name) =
      if image.name = name then some image else programs.find? fun p => p.name = name := by
  induction programs with
  | nil =>
    rw [insert, List.find?_cons]
    by_cases himage : image.name = name <;> simp [himage]
  | cons p rest ih =>
    rw [insert]
    by_cases hname : p.name = image.name
    · rw [if_pos hname, List.find?_cons, List.find?_cons, hname]
      by_cases himage : image.name = name <;> simp [himage]
    · rw [if_neg hname, List.find?_cons, List.find?_cons, ih]
      by_cases hp : p.name = name
      · have himage : image.name ≠ name := fun h => hname (hp.trans h.symm)
        simp [hp, himage]
      · simp [hp]

/-- where no two programs have one name, a program is what is found under its name -/
theorem find?_name (h : (programs.map ProgramImage.name).Nodup) (hp : p ∈ programs) :
    programs.find? (fun q => q.name = p.name) = some p := by
  induction programs with
  | nil => cases hp
  | cons q rest ih =>
    rw [List.map_cons, List.nodup_cons] at h
    rw [List.find?_cons]
    rcases List.mem_cons.1 hp with rfl | hmem
    · rw [decide_eq_true rfl]
    · have hne : q.name ≠ p.name := by
        intro heq
        exact h.1 (heq ▸ List.mem_map_of_mem hmem)
      rw [decide_eq_false hne]
      exact ih h.2 hmem

/-! ## a row of programs -/

/-- a name counts when it comes up first -/
theorem eraseDups_concat (names : List String) (name : String) :
    (names ++ [name]).eraseDups
      = if name ∈ names then names.eraseDups else names.eraseDups ++ [name] := by
  rw [List.eraseDups_append]
  by_cases hold : name ∈ names <;> simp [List.removeAll, hold, List.eraseDups_cons]

/-- the program of a name that comes last -/
def latest? (history : List ProgramImage) (name : String) : Option ProgramImage :=
  history.reverse.find? fun p => p.name = name

theorem latest?_concat (history : List ProgramImage) (image : ProgramImage) (name : String) :
    latest? (history ++ [image]) name
      = if image.name = name then some image else latest? history name := by
  rw [latest?, List.reverse_concat, List.find?_cons]
  by_cases himage : image.name = name <;> simp [himage, latest?]

theorem isSome_latest? (history : List ProgramImage) (name : String) :
    (latest? history name).isSome = true ↔ name ∈ history.map ProgramImage.name := by
  simp [latest?, List.find?_isSome, List.mem_map]

/-- what a registry has of a row of registrations -/
structure Collects (r : ProgramRegistry) (history : List ProgramImage) : Prop where
  /-- each name once, in the order in which the names first came up -/
  names : r.programs.map ProgramImage.name = (history.map ProgramImage.name).eraseDups
  distinct : (r.programs.map ProgramImage.name).Nodup
  /-- each program is the one that was registered last under its name -/
  latest : ∀ p ∈ r.programs, latest? history p.name = some p
  get? : ∀ name, r.get? name = latest? history name
  registered : ∀ name, (r.get? name).isSome = true ↔ name ∈ history.map ProgramImage.name

namespace Collects

theorem nil : Collects {} [] :=
  ⟨rfl, List.nodup_nil, fun _ hp => absurd hp List.not_mem_nil, fun _ => rfl, fun _ => by
    simp [ProgramRegistry.get?]⟩

/-- one more program takes the place of that of its name, or comes last -/
theorem register (h : Collects r history) (image : ProgramImage) :
    Collects (r.register image) (history ++ [image]) := by
  have hnames : (r.register image).programs.map ProgramImage.name
      = ((history ++ [image]).map ProgramImage.name).eraseDups := by
    rw [ProgramRegistry.register, map_name_insert, List.map_append, List.map_singleton,
      eraseDups_concat, h.names]
    simp only [List.mem_eraseDups]
  have hdistinct : ((r.register image).programs.map ProgramImage.name).Nodup := by
    rw [ProgramRegistry.register, map_name_insert]
    split
    · exact h.distinct
    · next hnew =>
      refine List.nodup_append.2 ⟨h.distinct, List.nodup_singleton _, ?_⟩
      rintro a ha b hb rfl
      exact hnew (List.mem_singleton.1 hb ▸ ha)
  have hget : ∀ name, (r.register image).get? name = latest? (history ++ [image]) name := by
    intro name
    rw [latest?_concat, ← h.get? name]
    exact find?_insert image r.programs name
  refine ⟨hnames, hdistinct, fun p hp => ?_, hget, fun name => ?_⟩
  · rw [← hget]
    exact find?_name hdistinct hp
  · rw [hget, isSome_latest?]

/-- the programs of `later` are registered, one after the other -/
theorem foldl (h : Collects r history) (later : List ProgramImage) :
    Collects (later.foldl ProgramRegistry.register r) (history ++ later) := by
  induction later generalizing r history with
  | nil =>
    rw [List.append_nil]
    exact h
  | cons image rest ih =>
    have hrest := ih (h.register image)
    rw [List.append_assoc] at hrest
    exact hrest

end Collects

/-- a registry that is made of a list, and then gets more programs -/
theorem collects_foldl (collected later : List ProgramImage) :
    Collects (later.foldl register (.ofList collected)) (collected ++ later) :=
  (Collects.nil.foldl collected).foldl later

end ProgramRegistry

end PagedKernel
