import PagedKernel.Paging.TableWalk
import PagedKernel.Proofs.Memory.Operations
import PagedKernel.Proofs.Paging.Growth

/-!
# Mapping a page

How the operations that build a tree end.

* `Memory.missing t path`      how many tables `path` lacks below `t`
* `Claimed mem f mem'`         a free frame was handed out and filled
* `AddressSpace.ends_allocateRoot`  a root that maps nothing
* `AddressSpace.ends_descend`  the table of a link; a new one where there is none
* `AddressSpace.ends_map`      one page changes, or memory ran out and none does
* `AddressSpace.Exhausted`     what is left when memory ran out
* `AddressSpace.ends_unmap`    one page is mapped no more, and memory cannot run out

Mapping a page takes exactly the tables that its path lacks, and fails exactly if there are not
enough free frames for them.
-/

namespace PagedKernel

namespace Memory

variable {mem : Memory} {t u : Frame} {i : TableIndex} {p : List TableIndex}

/-- the number of free frames -/
def freeCount (mem : Memory) : Nat := mem.ledger.freeCount

/-- how many tables a path lacks below `t` -/
def missing (mem : Memory) (t : Frame) : List TableIndex → Nat
  | [] => 0
  | i :: rest => (mem.link? t i).elim (rest.length + 1) fun u => missing mem u rest

theorem missing_nil : mem.missing t [] = 0 := rfl

theorem missing_cons :
    mem.missing t (i :: p) = (mem.link? t i).elim (p.length + 1) fun u => mem.missing u p := rfl

theorem missing_of_some (h : mem.link? t i = some u) :
    mem.missing t (i :: p) = mem.missing u p := by
  rw [missing_cons, h, Option.elim_some]

theorem missing_of_none (h : mem.link? t i = none) : mem.missing t (i :: p) = p.length + 1 := by
  rw [missing_cons, h, Option.elim_none]

theorem missing_le (mem : Memory) (t : Frame) (p : List TableIndex) :
    mem.missing t p ≤ p.length := by
  induction p generalizing t with
  | nil => rw [missing_nil, List.length_nil]
  | cons i p ih =>
    cases h : mem.link? t i with
    | none => rw [missing_of_none h, List.length_cons]
    | some u =>
      have := ih u
      rw [missing_of_some h, List.length_cons]
      omega

theorem missing_eq_zero (h : mem.tableAt t p = some u) : mem.missing t p = 0 := by
  induction p generalizing t with
  | nil => exact missing_nil
  | cons i p ih =>
    rw [tableAt_cons] at h
    obtain ⟨v, hv, hu⟩ := Option.bind_eq_some_iff.1 h
    rw [missing_of_some hv]
    exact ih hu

theorem missing_of_empty (h : ∀ i, mem.link? t i = none) : mem.missing t p = p.length := by
  cases p with
  | nil => rw [missing_nil, List.length_nil]
  | cons i p => rw [missing_of_none (h i), List.length_cons]

/-- a page that is mapped lacks no tables, and no more do the pages around it -/
theorem missing_of_pageAt {n k : Nat} {x : Frame × Permissions} (h : mem.pageAt t k = some x)
    (hpath : pagePath n = pagePath k) : mem.missing t (pagePath n) = 0 := by
  rw [hpath]
  cases hu : mem.tableAt t (pagePath k) with
  | none =>
    rw [pageAt, leafAt_of_none hu, PageEntry.target_empty] at h
    cases h
  | some u => exact missing_eq_zero hu

/-- in a tree that is left alone a path lacks what it lacked -/
theorem missing_congr {mem' : Memory} {root : Frame} {q : List TableIndex}
    (h : ∀ t, mem.IsTable root t → mem'.data t = mem.data t) (ht : mem.tableAt root q = some t)
    (hlen : q.length + p.length ≤ 3) : mem'.missing t p = mem.missing t p := by
  induction p generalizing q t with
  | nil => rw [missing_nil, missing_nil]
  | cons i p ih =>
    rw [List.length_cons] at hlen
    have hlink := link?_congr (entryAt_congr (h t (isTable_of_path (by omega) ht)) i)
    cases hu : mem.link? t i with
    | none => rw [missing_of_none hu, missing_of_none (hlink.trans hu)]
    | some u =>
      have htable : mem.tableAt root (q ++ [i]) = some u := by
        rw [tableAt_concat, ht, Option.bind_some, hu]
      rw [missing_of_some hu, missing_of_some (hlink.trans hu)]
      refine ih htable ?_
      rw [List.length_append, List.length_singleton]
      omega

end Memory

/-- where no frame was free, none is counted anew -/
theorem Grown.count_of_full {mem mem' : Memory} {roots : Finset Frame} {root : Frame}
    (h : Grown roots root mem mem') (hfull : mem.freeCount = 0) (f : Frame) :
    mem'.count f = mem.count f := by
  refine h.count f fun hyes => ?_
  by_contra hno
  obtain ⟨hfree, hmanages⟩ := h.fresh f hyes hno
  exact absurd hfull (Nat.ne_of_gt (Ledger.freeCount_pos hfree hmanages))

/-- pages of one table have all their tables in common -/
theorem pagePath_congr {n k : Nat} (h : n / 512 = k / 512) : pagePath n = pagePath k := by
  simp only [pagePath, Level.links, List.map_cons, List.map_nil, List.cons.injEq, and_true,
    Level.indexOf, Level.shift, Fin.mk.injEq]
  omega

/-- as many tables as the pages below `n` can need when they are mapped in order, page 0 apart:
three for the first, and three more where a new table begins -/
def tablesFor (n : Nat) : Nat := if n ≤ 1 then 0 else 3 + 3 * ((n - 1) / 512)

theorem tablesFor_mono {n k : Nat} (h : n ≤ k) : tablesFor n ≤ tablesFor k := by
  unfold tablesFor
  split <;> split <;> omega

theorem tablesFor_le_three {n : Nat} (h : n ≤ 512) : tablesFor n ≤ 3 := by
  unfold tablesFor
  split <;> omega

/-- what the next page lacks when those before it are mapped -/
theorem Memory.missing_add_le {mem : Memory} {t : Frame} {n : Nat} (hpos : 0 < n)
    (h : ∀ k, 0 < k → k < n → ∃ x, mem.pageAt t k = some x) :
    mem.missing t (pagePath n) + tablesFor n ≤ tablesFor (n + 1) := by
  have hthree : mem.missing t (pagePath n) ≤ 3 := missing_le mem t (pagePath n)
  by_cases hone : n = 1
  · subst hone
    have hone : tablesFor 1 = 0 := by decide
    have htwo : tablesFor (1 + 1) = 3 := by decide
    omega
  by_cases hsame : n / 512 = (n - 1) / 512
  · obtain ⟨x, hx⟩ := h (n - 1) (by omega) (by omega)
    rw [missing_of_pageAt hx (pagePath_congr hsame), Nat.zero_add]
    exact tablesFor_mono (Nat.le_succ n)
  · unfold tablesFor
    split <;> split <;> omega

/-! ## frames that are handed out -/

/-- `f` was free and is handed out; what it holds is left open -/
structure Claimed (mem : Memory) (f : Frame) (mem' : Memory) : Prop where
  free : mem.count f = 0
  managed : mem.manages f = true
  size : mem'.contents.size = mem.contents.size
  manages : ∀ g, mem'.manages g = mem.manages g
  count : ∀ g, mem'.count g = if g = f then 1 else mem.count g
  data : ∀ g, g ≠ f → mem'.data g = mem.data g
  freeCount : mem'.freeCount + 1 = mem.freeCount

namespace Claimed

variable {mem mem' : Memory} {f g : Frame}

theorem of_claim (hc : mem.count f = 0) (hm : mem.manages f = true) :
    Claimed mem f (mem.claim f) := by
  have hin := Memory.hasFrame_of_manages hm
  refine ⟨hc, hm, Memory.size_claim, fun g => Memory.manages_claim,
    fun g => Memory.count_claim hin, fun g hg => ?_, Ledger.freeCount_claim hc hm⟩
  rw [Memory.data_claim hin, if_neg hg]

theorem hasFrame (h : Claimed mem f mem') : mem'.hasFrame f = true := by
  rw [Memory.hasFrame_iff, h.size, ← Memory.hasFrame_iff]
  exact Memory.hasFrame_of_manages h.managed

theorem modify (h : Claimed mem f mem') (change : FrameData → FrameData) :
    Claimed mem f (mem'.modifyFrame f.number.toNat change) := by
  refine ⟨h.free, h.managed, ?_, h.manages, h.count, fun g hg => ?_, h.freeCount⟩
  · rw [Memory.modifyFrame, Array.size_modify]
    exact h.size
  · rw [Memory.data_modifyFrame h.hasFrame, if_neg hg]
    exact h.data g hg

theorem data_of_count (h : Claimed mem f mem') (hg : mem.count g ≠ 0) :
    mem'.data g = mem.data g := by
  apply h.data
  rintro rfl
  exact hg h.free

end Claimed

/-! ## new tables -/

theorem Linked.of_claim {mem : Memory} {t f : Frame} {i : TableIndex} (hc : mem.count f = 0)
    (hm : mem.manages f = true) (ht : mem.hasFrame t = true) (hne : t ≠ f) :
    Linked mem
      (((mem.claim f).modifyFrame f.number.toNat fun _ => .zero).modifyFrame t.number.toNat
        fun data => data.setWord i (PageEntry.linkTo f).bits) t i f := by
  have hin := Memory.hasFrame_of_manages hm
  have hf' : (mem.claim f).hasFrame f = true := by
    rw [Memory.hasFrame_iff, Memory.size_claim, ← Memory.hasFrame_iff]
    exact hin
  have ht' : ((mem.claim f).modifyFrame f.number.toNat fun _ => .zero).hasFrame t = true := by
    rw [Memory.hasFrame_modifyFrame, Memory.hasFrame_iff, Memory.size_claim,
      ← Memory.hasFrame_iff]
    exact ht
  have hdata (g : Frame) := Memory.data_modifyFrame (g := g) ht'
    fun data => data.setWord i (PageEntry.linkTo f).bits
  have hclear (g : Frame) := Memory.data_modifyFrame (g := g) hf' fun _ => .zero
  refine ⟨?_, fun g => Memory.manages_claim, hc, hm, fun j => ?_, fun j => ?_, fun g ht hf => ?_,
    fun g => Memory.count_claim hin⟩
  · simp [Memory.modifyFrame, Memory.size_claim]
  · rw [Memory.entryAt_eq, Memory.entryAt_eq, hdata, if_pos rfl, hclear, if_neg hne,
      Memory.data_claim hin, if_neg hne]
    split
    · next hj => rw [hj, FrameData.word_setWord]
    · next hj => rw [FrameData.word_setWord_of_ne _ hj]
  · rw [Memory.entryAt_eq, hdata, if_neg hne.symm, hclear, if_pos rfl, FrameData.word_zero]
    rfl
  · rw [hdata, if_neg ht, hclear, if_neg hf, Memory.data_claim hin, if_neg hf]

theorem Written.of_set {mem : Memory} {t : Frame} {i : TableIndex} {e : PageEntry}
    (ht : mem.hasFrame t = true) :
    Written mem (mem.modifyFrame t.number.toNat fun data => data.setWord i e.bits) t i e := by
  have hdata (g : Frame) := Memory.data_modifyFrame (g := g) ht fun data => data.setWord i e.bits
  refine ⟨?_, fun g => rfl, fun j => ?_, fun g hg => ?_, fun g => rfl⟩
  · simp [Memory.modifyFrame]
  · rw [Memory.entryAt_eq, Memory.entryAt_eq, hdata, if_pos rfl]
    split
    · next hj => rw [hj, FrameData.word_setWord]
    · next hj => rw [FrameData.word_setWord_of_ne _ hj]
  · rw [hdata, if_neg hg]

namespace AddressSpace

variable {m : Machine} {roots : Finset Frame} {root t : Frame} {p : List TableIndex}
  {va : VirtualAddress}

/-! ## roots -/

/-- a free frame becomes the root of a space that maps nothing; or no frame is free -/
theorem ends_allocateRoot (hsize : m.contents.size ≤ 2 ^ 52) :
    Ends allocate m
      (fun space? m' =>
        match space? with
        | some space => Claimed m.toMemory space.root m'.toMemory ∧
            ∀ i, m'.entryAt space.root i = .empty
        | none => m'.toMemory = m.toMemory ∧ m.freeCount = 0) Never := by
  unfold allocate
  rw [ends_bind]
  refine Machine.ends_allocateClear hsize (fun f hc hm => ?_) fun hnone m' hm' => ⟨hm', hnone⟩
  have hclaimed := Claimed.of_claim hc hm
  refine ⟨hclaimed.modify fun _ => FrameData.zero, fun i => ?_⟩
  rw [Memory.entryAt_eq, Memory.data_modifyFrame hclaimed.hasFrame, if_pos rfl,
    FrameData.word_zero]
  rfl

/-! ## descending -/

/-- how one level of a path is made: the link was there, or a new table was linked -/
def Descended (m : Machine) (t : Frame) (i : TableIndex) (u : Frame) (m' : Machine) : Prop :=
  m' = m ∧ m.link? t i = some u ∨
    (m.entryAt t i).present = false ∧ Linked m.toMemory m'.toMemory t i u ∧
      m'.freeCount + 1 = m.freeCount

theorem ends_descend (va : VirtualAddress) (hmem : Forest m.toMemory roots) (hroot : root ∈ roots)
    (hp : p.length < 3) (ht : m.tableAt root p = some t) (level : Level) :
    Ends (descend va t level) m (Descended m t (level.index va))
      (Fails fun e m' => m'.toMemory = m.toMemory ∧ m.freeCount = 0 ∧
        m.link? t (level.index va) = none ∧ e = .outOfMemory va (level.next?.getD .pt)) := by
  have htable := Memory.isTable_of_path (Nat.le_of_lt hp) ht
  have hin := hmem.inside root hroot t htable
  have hsize : m.contents.size ≤ 2 ^ 52 :=
    Nat.le_trans hmem.size_le (Nat.pow_le_pow_right (by decide) (by decide))
  unfold descend
  rw [ends_bind, ends_lift, Machine.ends_inspect (Memory.entry_eq hin _)]
  by_cases hpres : (m.entryAt t (level.index va)).present = true
  · have hlink : (m.entryAt t (level.index va)).isLink = true := by
      rw [hmem.isLink_eq hroot hp ht]
      exact hpres
    rw [if_pos hpres]
    exact ends_pure.2 (.inl ⟨rfl, Memory.link?_of_isLink hlink⟩)
  · rw [Bool.not_eq_true] at hpres
    rw [if_neg (by rw [hpres]; exact Bool.false_ne_true), ends_bind, ends_lift]
    refine Machine.ends_allocateClear hsize (fun f hc hm => ?_) fun hnone m' hm' => ?_
    · have hne : t ≠ f := by
        rintro rfl
        have := hmem.counted root hroot t htable
        rw [hc] at this
        exact absurd this Nat.zero_ne_one
      have hf : f.number.toNat < 2 ^ 40 :=
        Nat.lt_of_lt_of_le (Memory.hasFrame_iff.1 (Memory.hasFrame_of_manages hm)) hmem.size_le
      have hin' : ((m.claim f).modifyFrame f.number.toNat fun _ => .zero).hasFrame t = true := by
        rw [Memory.hasFrame_modifyFrame, Memory.hasFrame_iff, Memory.size_claim,
          ← Memory.hasFrame_iff]
        exact hin
      have hlinked := Linked.of_claim (i := level.index va) hc hm hin hne
      have hfree := Ledger.freeCount_claim hc hm
      rw [ends_bind, ends_attemptExcept (PageEntry.table_eq hf), ends_bind, ends_lift]
      exact (Machine.ends_setFrame hin').2 (ends_pure.2 (.inr ⟨hpres, hlinked, hfree⟩))
    · exact ends_fail.2 ⟨hm', hnone, Memory.link?_of_absent hpres, rfl⟩

/-- where no table is lacking the link was there -/
theorem Descended.of_missing {i : TableIndex} {u : Frame} {m' : Machine}
    (h : Descended m t i u m') (hzero : m.missing t (i :: p) = 0) :
    m' = m ∧ m.link? t i = some u := by
  rcases h with h | ⟨hi, -, -⟩
  · exact h
  · rw [Memory.missing_of_none (Memory.link?_of_absent hi)] at hzero
    exact absurd hzero (Nat.succ_ne_zero _)

/-- what the rest of a path lacks is what the path lacked, without the new table -/
theorem Descended.missing {i : TableIndex} {u : Frame} {m' : Machine}
    (h : Descended m t i u m') :
    m'.freeCount + m.missing t (i :: p) = m.freeCount + m'.missing u p := by
  rcases h with ⟨rfl, hlink⟩ | ⟨hi, hlinked, hfree⟩
  · rw [Memory.missing_of_some hlink]
  · have hempty : ∀ j, m'.link? u j = none := fun j => Memory.link?_of_empty (hlinked.empty j)
    rw [Memory.missing_of_none (Memory.link?_of_absent hi), Memory.missing_of_empty hempty]
    omega

/-- the tables of `p` are there now, and no others have been made -/
theorem Descended.spec {i : TableIndex} {u : Frame} {m' : Machine}
    (h : Descended m t i u m') (hmem : Forest m.toMemory roots) (hroot : root ∈ roots)
    (hp : p.length < 3) (ht : m.tableAt root p = some t) :
    Grown roots root m.toMemory m'.toMemory ∧
      (∀ n, m'.pageAt root n = m.pageAt root n) ∧ m'.tableAt root (p ++ [i]) = some u ∧
      ∀ q, q.length ≤ 3 → q ≠ p ++ [i] → m'.tableAt root q = m.tableAt root q := by
  rcases h with ⟨rfl, hlink⟩ | ⟨hi, hlinked, -⟩
  · refine ⟨.refl hmem root, fun n => rfl, ?_, fun q _ _ => rfl⟩
    rw [Memory.tableAt_concat, ht, Option.bind_some, hlink]
  · have hlen : (p ++ [i]).length ≤ 3 := by
      rw [List.length_append, List.length_singleton]
      omega
    refine ⟨hlinked.grown hmem hroot hp ht hi, hlinked.pageAt_eq hmem hroot hp ht hi, ?_,
      fun q hq hne => ?_⟩
    · rw [hlinked.tableAt_eq hmem hroot hp ht hi hlen, if_pos rfl]
    · rw [hlinked.tableAt_eq hmem hroot hp ht hi hq, if_neg hne]

/-- memory ran out while the tables of a path from `t` on were made: all free frames became tables
of the path, and the error names the level of the first table that it still lacks -/
structure Exhausted (roots : Finset Frame) (root t : Frame) (path : List TableIndex)
    (va : VirtualAddress) (e : MapError) (m m' : Machine) : Prop where
  grown : Grown roots root m.toMemory m'.toMemory
  pages : ∀ n, m'.pageAt root n = m.pageAt root n
  free : m'.freeCount = 0
  missing : m'.missing t path + m.freeCount = m.missing t path
  error : ∃ level : Level, e = .outOfMemory va level ∧ m'.missing t path = level.height + 1

theorem Exhausted.less {path : List TableIndex} {e : MapError} {m' : Machine}
    (h : Exhausted roots root t path va e m m') : m.freeCount < m.missing t path := by
  obtain ⟨level, -, hlevel⟩ := h.error
  have := h.missing
  omega

/-- the link that was made stays, so the path lacks what its rest lacks -/
theorem Exhausted.cons {i : TableIndex} {u : Frame} {rest : List TableIndex} {e : MapError}
    {m₁ m' : Machine} (h : Exhausted roots root u rest va e m₁ m') (hstep : Descended m t i u m₁)
    (hmem : Forest m.toMemory roots) (hroot : root ∈ roots) (hp : p.length < 3)
    (ht : m.tableAt root p = some t) : Exhausted roots root t (i :: rest) va e m m' := by
  obtain ⟨hgrown, hpages, htable, -⟩ := hstep.spec hmem hroot hp ht
  have hlen : (p ++ [i]).length ≤ 3 := by
    rw [List.length_append, List.length_singleton]
    omega
  have hlink : m'.link? t i = some u := by
    have hup := h.grown.path _ _ (Nat.le_of_lt hp) (hgrown.path p t (Nat.le_of_lt hp) ht)
    have hdown := h.grown.path _ _ hlen htable
    rw [Memory.tableAt_concat, hup, Option.bind_some] at hdown
    exact hdown
  have hcost := hstep.missing (p := rest)
  have hmissing := h.missing
  refine ⟨hgrown.trans h.grown, fun n => (h.pages n).trans (hpages n), h.free, ?_, ?_⟩
  · rw [Memory.missing_of_some hlink]
    omega
  · rw [Memory.missing_of_some hlink]
    exact h.error

/-- below a level that is not the last there are as many as its entries lead through -/
theorem height_next {level : Level} {below : List Level} (h : level :: below <:+ Level.links) :
    (level.next?.getD .pt).height = below.length := by
  obtain ⟨above, habove⟩ := h
  match above, habove with
  | [], habove | [_], habove | [_, _], habove =>
    cases habove
    rfl
  | _ :: _ :: _ :: _, habove => simp [Level.links] at habove

/-- the tables that a path lacks are made -/
theorem ends_descendAll (va : VirtualAddress) (hmem : Forest m.toMemory roots)
    (hroot : root ∈ roots) (levels : List Level) (hlevels : levels <:+ Level.links)
    (hp : p.length + levels.length ≤ 3) (ht : m.tableAt root p = some t) :
    Ends (levels.foldlM (descend va) t) m
      (fun u m' => Grown roots root m.toMemory m'.toMemory ∧
        (∀ n, m'.pageAt root n = m.pageAt root n) ∧
        m'.tableAt root (p ++ levels.map fun level => level.index va) = some u ∧
        m'.freeCount + m.missing t (levels.map fun level => level.index va) = m.freeCount ∧
        (m.missing t (levels.map fun level => level.index va) = 0 → m' = m) ∧
        ∀ q, q.length ≤ 3 → ¬ q <+: p ++ levels.map (fun level => level.index va) →
          m'.tableAt root q = m.tableAt root q)
      (Fails fun e m' =>
        Exhausted roots root t (levels.map fun level => level.index va) va e m m') := by
  induction levels generalizing p t m with
  | nil =>
    rw [List.foldlM_nil, List.map_nil, List.append_nil]
    exact ends_pure.2 ⟨.refl hmem root, fun n => rfl, ht, rfl, fun _ => rfl, fun _ _ _ => rfl⟩
  | cons level below ih =>
    rw [List.length_cons] at hp
    have hlt : p.length < 3 := by omega
    have hstep := ends_descend va hmem hroot hlt ht level
    rw [List.foldlM_cons, List.map_cons]
    refine ends_bind.2 (hstep.mono (fun u m₁ h₁ => ?_) (Fails.mono fun e m₁ h₁ => ?_))
    · obtain ⟨hgrown, hpages, htable, hothers⟩ := h₁.spec hmem hroot hlt ht
      have hlen : (p ++ [level.index va]).length + below.length ≤ 3 := by
        rw [List.length_append, List.length_singleton]
        omega
      have hcost := h₁.missing (p := below.map fun level => level.index va)
      have hsuffix := (List.suffix_cons level below).trans hlevels
      refine (ih hgrown.forest hsuffix hlen htable).mono (fun v m₂ h₂ => ?_)
        (Fails.mono fun e m₂ h₂ => h₂.cons h₁ hmem hroot hlt ht)
      obtain ⟨hgrown₂, hpages₂, htable₂, hfree₂, hsettled₂, hothers₂⟩ := h₂
      rw [List.append_assoc, List.singleton_append] at htable₂ hothers₂
      refine ⟨hgrown.trans hgrown₂, fun n => (hpages₂ n).trans (hpages n), htable₂, by omega,
        fun hzero => ?_, fun q hq hnot => (hothers₂ q hq hnot).trans (hothers q hq ?_)⟩
      · obtain ⟨rfl, hlink⟩ := h₁.of_missing hzero
        rw [Memory.missing_of_some hlink] at hzero
        exact hsettled₂ hzero
      · rintro rfl
        exact hnot ⟨_, List.append_assoc _ _ _⟩
    · obtain ⟨hsame, hzero, hnone, herror⟩ := h₁
      have hmissing : m.missing t (level.index va :: below.map fun level => level.index va)
          = below.length + 1 := by
        rw [Memory.missing_of_none hnone, List.length_map]
      have hfree : m₁.freeCount = 0 := by rw [hsame, hzero]
      refine ⟨by rw [hsame]; exact .refl hmem root, fun n => by rw [hsame], hfree, ?_,
        _, herror, ?_⟩
      · rw [hsame, hzero, Nat.add_zero]
      · rw [hsame, hmissing, height_next hlevels]

/-! ## mapping -/

variable {f : Frame} {perms : Permissions}

theorem index_base (level : Level) (va : VirtualAddress) :
    level.index va.page.base = level.index va := by
  rw [level.index_eq, level.index_eq, Page.page_base]

/-- the page of `va` maps to `target`, and nothing else of the trees has changed -/
structure Mapped (roots : Finset Frame) (root : Frame) (n : Nat)
    (target : Option (Frame × Permissions)) (mem mem' : Memory) : Prop where
  grown : Grown roots root mem mem'
  /-- if the page lacked no table, no frame was handed out -/
  settled : mem.missing root (pagePath n) = 0 → mem'.ledger = mem.ledger
  page : ∀ k, mem'.pageAt root k
    = if k % 2 ^ 36 = n % 2 ^ 36 then target else mem.pageAt root k
  /-- tables were made for this page only -/
  tables : ∀ q, q.length ≤ 3 → ¬ q <+: pagePath n → mem'.tableAt root q = mem.tableAt root q

theorem Mapped.page_of_lt {n k : Nat} {target : Option (Frame × Permissions)}
    (h : Mapped roots root n target mem mem') (hn : n < 2 ^ 36) (hk : k < 2 ^ 36) :
    mem'.pageAt root k = if k = n then target else mem.pageAt root k := by
  rw [h.page, Nat.mod_eq_of_lt hk, Nat.mod_eq_of_lt hn]

theorem ends_map (va : VirtualAddress) (perms : Permissions) (hmem : Forest m.toMemory roots)
    (hroot : root ∈ roots)
    (hf : f.number.toNat < 2 ^ 40) (hp : perms.present = true) :
    Ends ((AddressSpace.mk root).map va f perms) m
      (fun _ m' =>
        Mapped roots root va.page.number.toNat (some (f, perms.core)) m.toMemory m'.toMemory ∧
        m'.freeCount + m.missing root (pagePath va.page.number.toNat) = m.freeCount)
      (Fails fun e m' =>
        Exhausted roots root root (pagePath va.page.number.toNat) va.page.base e m m') := by
  have hpath : (Level.links.map fun level => level.index va.page.base)
      = pagePath va.page.number.toNat :=
    List.map_congr_left fun level _ => (index_base level va).trans (level.index_eq va)
  have htables := ends_descendAll va.page.base hmem hroot Level.links List.suffix_rfl (p := [])
    (Nat.le_refl 3) Memory.tableAt_nil
  rw [hpath, List.nil_append] at htables
  unfold map
  rw [if_pos hp]
  refine ends_bind.2 (htables.mono (fun t m₁ h₁ => ?_) fun e m₁ h₁ => h₁)
  obtain ⟨hgrown, hpages, htable, hfree, hsettled, hothers⟩ := h₁
  have hin := hgrown.forest.inside root hroot t
    (Memory.isTable_of_path (Nat.le_of_eq (length_pagePath _)) htable)
  rw [ends_bind, ends_attemptExcept (PageEntry.leaf_eq hf perms), ends_lift, index_base,
    Level.index_eq]
  refine (Machine.ends_setFrame hin).2 ⟨?_, hfree⟩
  have hwritten := Written.of_set (i := Level.pt.indexOf va.page.number.toNat)
    (e := .mapping f perms) hin
  refine ⟨hgrown.trans (hwritten.grown hgrown.forest hroot htable), fun hzero => ?_, fun k => ?_,
    fun q hq hnot => ?_⟩
  · obtain rfl := hsettled hzero
    rfl
  · rw [hwritten.pageAt_eq hgrown.forest hroot htable, PageEntry.target_mapping hf hp, hpages]
  · exact (hwritten.tableAt_eq hgrown.forest hroot htable hroot hq).trans (hothers q hq hnot)

theorem ends_unmap (va : VirtualAddress) (perms : Permissions) (hmem : Forest m.toMemory roots)
    (hroot : root ∈ roots)
    (hp : perms.present = false) :
    Ends ((AddressSpace.mk root).map va f perms) m
      (fun _ m' => Mapped roots root va.page.number.toNat none m.toMemory m'.toMemory ∧
        m'.ledger = m.ledger ∧
        ∀ q, q.length ≤ 3 → m'.tableAt root q = m.tableAt root q) Never := by
  unfold map
  rw [if_neg (by rw [hp]; exact Bool.false_ne_true), ends_bind, ends_lift,
    Machine.ends_inspect (hmem.walk_eq hroot _), Page.page_base]
  cases htable : m.tableAt root (pagePath va.page.number.toNat) with
  | none =>
    refine ends_pure.2 ⟨⟨.refl hmem root, fun _ => rfl, fun k => ?_, fun _ _ _ => rfl⟩, rfl,
      fun _ _ => rfl⟩
    split
    · next hk =>
      rw [← Memory.pageAt_mod, hk, Memory.pageAt_mod, Memory.pageAt,
        Memory.leafAt_of_none htable, PageEntry.target_empty]
    · rfl
  | some t =>
    have hin := hmem.inside root hroot t
      (Memory.isTable_of_path (Nat.le_of_eq (length_pagePath _)) htable)
    rw [Option.map_some, index_base, Level.index_eq]
    have hwritten := Written.of_set (i := Level.pt.indexOf va.page.number.toNat)
      (e := .empty) hin
    have htables := fun q hq => hwritten.tableAt_eq hmem hroot htable hroot (q := q) hq
    refine ends_lift.2 ((Machine.ends_setFrame hin).2 ⟨?_, rfl, htables⟩)
    refine ⟨hwritten.grown hmem hroot htable, fun _ => rfl, fun k => ?_,
      fun q hq _ => htables q hq⟩
    rw [hwritten.pageAt_eq hmem hroot htable, PageEntry.target_empty]

end AddressSpace

end PagedKernel
