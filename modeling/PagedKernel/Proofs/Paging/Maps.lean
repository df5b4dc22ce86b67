import Mathlib.Data.List.Nodup
import PagedKernel.Proofs.Memory.Initial
import PagedKernel.Proofs.Paging.Map

/-!
# Address spaces as finite maps

To those who call it, an address space is a finite map from page numbers to frames and permissions.
The trees share one memory, they take their tables from the frames that are handed out to everybody
else, and they may be left half built when memory runs out; none of that shows in a look-up.

* `PageMap`                  a finite map, by the number of the page modulo `2 ^ 36`
* `SpaceCall`                a call: a new space, a frame, or a page of a space to be mapped
* `SpaceCall.perform`        the call on a machine
* `SpaceCall.maps`           the call on finite maps
* `SpaceCall.Answered`       what memory it takes, and which table it lacks when it fails
* `SpaceCall.ends_perform`   one call keeps spaces and maps alike
* `SpaceCall.refines`        and so do all sequences of calls
-/

namespace PagedKernel

/-- a finite map from pages to frames and permissions.  A walk looks at 36 bits of the number of a
page, so these are the keys. -/
def PageMap := Fin (2 ^ 36) → Option (Frame × Permissions)

/-- the key of page `n` -/
def pageKey (n : Nat) : Fin (2 ^ 36) := ⟨n % 2 ^ 36, Nat.mod_lt _ (by decide)⟩

/-- the map of a space that maps nothing -/
def PageMap.empty : PageMap := fun _ => none

/-- the map with another target for page `n`, and the same ones for all others -/
def PageMap.set (map : PageMap) (n : Nat) (target : Option (Frame × Permissions)) : PageMap :=
  fun key => if key = pageKey n then target else map key

/-- spaces and maps, one for one; each look-up finds what the map has for the page -/
def Agree (mem : Memory) (spaces : List AddressSpace) (maps : List PageMap) : Prop :=
  maps.length = spaces.length ∧
    ∀ (i : Nat) (space : AddressSpace) (map : PageMap), spaces[i]? = some space →
      maps[i]? = some map → ∀ va : VirtualAddress,
        space.lookup mem va
          = .ok ((map (pageKey (va.value.toNat / 4096))).map fun (f, perms) => ⟨va, f, perms⟩)

/-- no table of the spaces changes its place -/
def TablesStay (spaces : List AddressSpace) (mem mem' : Memory) : Prop :=
  ∀ space ∈ spaces, ∀ (path : List TableIndex) (t : Frame), path.length ≤ 3 →
    mem.tableAt space.root path = some t → mem'.tableAt space.root path = some t

/-! ## calls -/

/-- a call on the spaces that share a memory; a space is named by its place in the order in which
they were allocated -/
inductive SpaceCall where
  | allocate
  /-- a frame for the caller to use -/
  | frame
  | map (space : Nat) (va : VirtualAddress) (f : Frame) (p : Permissions)

/-- what a call is answered -/
inductive SpaceAnswer where
  | space (space? : Option AddressSpace)
  | frame (f? : Option Frame)
  | mapped (result : Except MapError Unit)
  /-- no space has that name -/
  | unknown

/-- the spaces after the answer -/
def SpaceAnswer.spaces (spaces : List AddressSpace) : SpaceAnswer → List AddressSpace
  | space (some new) => spaces ++ [new]
  | _ => spaces

namespace SpaceCall

/-- the number of the frame that a page is mapped to fits into an entry -/
def Fits : SpaceCall → Prop
  | map _ _ f _ => f.number.toNat < 2 ^ 40
  | _ => True

/-- the call on a machine with `spaces` -/
def perform (spaces : List AddressSpace) : SpaceCall → Action Machine SpaceAnswer
  | allocate => return .space (← AddressSpace.allocate)
  | frame => return .frame (← Machine.allocate)
  | map i va f p =>
    match spaces[i]? with
    | some space => return .mapped (← (space.map va f p).outcome)
    | none => return .unknown

/-- the calls one after another, each on the spaces that there are by then -/
def performAll : List SpaceCall → List AddressSpace → Action Machine (List SpaceAnswer)
  | [], _ => return []
  | call :: rest, spaces => do
    let answer ← call.perform spaces
    return answer :: (← performAll rest (answer.spaces spaces))

/-- the maps after the call: a new space maps nothing, and a page that was mapped has its frame and
the permission bits that an entry keeps, or no mapping if these are not present -/
def maps (maps : List PageMap) : SpaceCall → SpaceAnswer → List PageMap
  | allocate, .space (some _) => maps ++ [.empty]
  | map i va f p, .mapped (.ok ()) => maps.modify i fun map =>
    map.set (va.value.toNat / 4096) (if p.present then some (f, ⟨p.bits &&& 7⟩) else none)
  | _, _ => maps

/-- what a call takes of memory, and what it is answered then.  Mapping a page takes the tables that
its path lacks; if there are not enough frames for them, all that there are become tables, and the
error names the level of the first table that is lacking still. -/
inductive Answered (spaces : List AddressSpace) (m m' : Machine) : SpaceCall → SpaceAnswer → Prop
  | allocated {space : AddressSpace} (new : space ∉ spaces)
    (taken : m'.freeCount + 1 = m.freeCount) : Answered spaces m m' .allocate (.space (some space))
  | noRoot (empty : m.freeCount = 0) (same : m'.toMemory = m.toMemory) :
    Answered spaces m m' .allocate (.space none)
  | handedOut {f : Frame} (free : m.count f = 0) (counted : m'.count f = 1)
    (taken : m'.freeCount + 1 = m.freeCount) : Answered spaces m m' .frame (.frame (some f))
  | noFrame (empty : m.freeCount = 0) (same : m'.toMemory = m.toMemory) :
    Answered spaces m m' .frame (.frame none)
  | mapped {i : Nat} {space : AddressSpace} {va : VirtualAddress} {f : Frame} {p : Permissions}
    (named : spaces[i]? = some space) (present : p.present = true)
    (enough : m.missing space.root (pagePath (va.value.toNat / 4096)) ≤ m.freeCount)
    (taken : m'.freeCount + m.missing space.root (pagePath (va.value.toNat / 4096)) = m.freeCount)
    (complete : m'.missing space.root (pagePath (va.value.toNat / 4096)) = 0) :
    Answered spaces m m' (.map i va f p) (.mapped (.ok ()))
  | exhausted {i : Nat} {space : AddressSpace} {va : VirtualAddress} {f : Frame} {p : Permissions}
    {level : Level} (named : spaces[i]? = some space) (present : p.present = true)
    (short : m.freeCount < m.missing space.root (pagePath (va.value.toNat / 4096)))
    (taken : m'.freeCount = 0)
    (made : m'.missing space.root (pagePath (va.value.toNat / 4096)) + m.freeCount
      = m.missing space.root (pagePath (va.value.toNat / 4096)))
    (first : m'.missing space.root (pagePath (va.value.toNat / 4096)) = level.height + 1) :
    Answered spaces m m' (.map i va f p) (.mapped (.error (.outOfMemory va.page.base level)))
  | unmapped {i : Nat} {space : AddressSpace} {va : VirtualAddress} {f : Frame} {p : Permissions}
    (named : spaces[i]? = some space) (absent : p.present = false) (same : m'.ledger = m.ledger) :
    Answered spaces m m' (.map i va f p) (.mapped (.ok ()))
  | unknown {i : Nat} {va : VirtualAddress} {f : Frame} {p : Permissions}
    (nameless : spaces[i]? = none) (same : m' = m) : Answered spaces m m' (.map i va f p) .unknown

end SpaceCall

/-- the spaces after some answers -/
def spacesAfter (answers : List SpaceAnswer) (spaces : List AddressSpace) : List AddressSpace :=
  answers.foldl (fun spaces answer => answer.spaces spaces) spaces

/-- the maps after some calls with their answers -/
def mapsAfter (calls : List SpaceCall) (answers : List SpaceAnswer) (maps : List PageMap) :
    List PageMap :=
  (calls.zip answers).foldl (fun maps (call, answer) => call.maps maps answer) maps

/-! ## spaces that mirror maps -/

/-- the roots of spaces -/
def rootsOf (spaces : List AddressSpace) : List Frame := spaces.map AddressSpace.root

/-- the spaces are trees that share no table, and their leaves are as `maps` say -/
structure Mirror (mem : Memory) (spaces : List AddressSpace) (maps : List PageMap) : Prop where
  forest : Forest mem (rootsOf spaces).toFinset
  distinct : (rootsOf spaces).Nodup
  length : maps.length = spaces.length
  pages : ∀ (i : Nat) (space : AddressSpace) (map : PageMap), spaces[i]? = some space →
    maps[i]? = some map → ∀ n, mem.pageAt space.root n = map (pageKey n)

namespace Mirror

variable {mem : Memory} {m m' : Machine} {spaces : List AddressSpace} {maps : List PageMap}
  {space : AddressSpace} {i : Nat} {f : Frame}

theorem root_mem (h : spaces[i]? = some space) : space.root ∈ (rootsOf spaces).toFinset :=
  List.mem_toFinset.2 (List.mem_map_of_mem (List.mem_of_getElem? h))

theorem agree (h : Mirror mem spaces maps) : Agree mem spaces maps := by
  refine ⟨h.length, fun i space map hspace hmap va => ?_⟩
  have hpage : va.page.number.toNat = va.value.toNat / 4096 := va.toNat_page
  rw [h.forest.lookup_eq (root_mem hspace), h.pages i space map hspace hmap, hpage]

/-- a frame that is handed out was no table -/
theorem data_of_claimed {mem' : Memory} (h : Mirror mem spaces maps) (hf : Claimed mem f mem') :
    ∀ r ∈ (rootsOf spaces).toFinset, ∀ t, mem.IsTable r t → mem'.data t = mem.data t := by
  intro r hr t ht
  apply hf.data_of_count
  rw [h.forest.counted r hr t ht]
  exact Nat.one_ne_zero

theorem claimed {mem' : Memory} (h : Mirror mem spaces maps) (hf : Claimed mem f mem') :
    Mirror mem' spaces maps ∧ TablesStay spaces mem mem' := by
  have hdata := h.data_of_claimed hf
  have hroot : ∀ space ∈ spaces, space.root ∈ (rootsOf spaces).toFinset := fun space hspace =>
    List.mem_toFinset.2 (List.mem_map_of_mem hspace)
  refine ⟨⟨h.forest.congr hf.size hdata fun r hr t ht => ?_, h.distinct, h.length,
    fun i space map hspace hmap n => ?_⟩, fun space hspace path t hp ht => ?_⟩
  · have hone := h.forest.counted r hr t ht
    rw [hf.count, if_neg, hone]
    rintro rfl
    rw [hf.free] at hone
    exact absurd hone Nat.zero_ne_one
  · rw [Memory.pageAt_congr (hdata _ (root_mem hspace)), h.pages i space map hspace hmap]
  · rw [Memory.tableAt_congr (hdata _ (hroot space hspace)) hp, ht]

/-- a new space -/
theorem allocated {mem' : Memory} (h : Mirror mem spaces maps) (hf : Claimed mem space.root mem')
    (hempty : ∀ i, mem'.entryAt space.root i = .empty) :
    space ∉ spaces ∧ Mirror mem' (spaces ++ [space]) (maps ++ [.empty]) := by
  obtain ⟨hold, -⟩ := h.claimed hf
  have hnot : ∀ r ∈ (rootsOf spaces).toFinset, ¬ mem.IsTable r space.root := by
    intro r hr ht
    have hone := h.forest.counted r hr _ ht
    rw [hf.free] at hone
    exact absurd hone Nat.zero_ne_one
  have hnew : space.root ∉ rootsOf spaces := fun hin =>
    hnot _ (List.mem_toFinset.2 hin) Memory.isTable_root
  have hone : mem'.count space.root = 1 := by rw [hf.count, if_pos rfl]
  have htree := Forest.of_empty hempty hold.forest.size_le hf.hasFrame hone
  have hroots : (rootsOf (spaces ++ [space])).toFinset
      = insert space.root (rootsOf spaces).toFinset := by
    rw [rootsOf, List.map_append, List.toFinset_append, Finset.union_comm]
    rfl
  refine ⟨fun hin => hnew (List.mem_map_of_mem hin), ?_, ?_, ?_, fun i s map hs hmap n => ?_⟩
  · rw [hroots]
    refine hold.forest.insert htree fun r hr t ht => ?_
    rw [(Memory.isTable_of_empty hempty).1 ht, Memory.isTable_congr (h.data_of_claimed hf r hr)]
    exact hnot r hr
  · rw [rootsOf, List.map_append, List.map_singleton, ← List.concat_eq_append]
    exact h.distinct.concat hnew
  · rw [List.length_append, List.length_append, h.length]
    rfl
  · rcases Nat.lt_or_ge i spaces.length with hi | hi
    · rw [List.getElem?_append_left hi] at hs
      rw [List.getElem?_append_left (by rw [h.length]; exact hi)] at hmap
      exact hold.pages i s map hs hmap n
    · rw [List.getElem?_append_right hi] at hs
      rw [List.getElem?_append_right (by rw [h.length]; exact hi), h.length] at hmap
      obtain rfl := List.mem_singleton.1 (List.mem_of_getElem? hs)
      obtain rfl := List.mem_singleton.1 (List.mem_of_getElem? hmap)
      exact Memory.pageAt_of_empty hempty n

/-- the tree of one space has grown, and `change` is what that does to its map -/
theorem grown (h : Mirror m.toMemory spaces maps) (hspace : spaces[i]? = some space)
    (hgrown : Grown (rootsOf spaces).toFinset space.root m.toMemory m'.toMemory)
    (change : PageMap → PageMap)
    (hpages : ∀ map, (∀ n, m.pageAt space.root n = map (pageKey n)) →
      ∀ n, m'.pageAt space.root n = change map (pageKey n)) :
    Mirror m'.toMemory spaces (maps.modify i change) ∧
      TablesStay spaces m.toMemory m'.toMemory := by
  have hroot := root_mem hspace
  refine ⟨⟨hgrown.forest, h.distinct, ?_, fun j s map hs hmap n => ?_⟩, fun s hs path t hp ht =>
    hgrown.tableAt_eq_some h.forest hroot (List.mem_toFinset.2 (List.mem_map_of_mem hs)) hp ht⟩
  · rw [List.length_modify, h.length]
  · rw [List.getElem?_modify] at hmap
    obtain ⟨old, hold, hchange⟩ := Option.map_eq_some_iff.1 hmap
    by_cases hij : i = j
    · subst hij
      obtain rfl : s = space := Option.some.inj (hs.symm.trans hspace)
      rw [if_pos rfl] at hchange
      rw [← hchange]
      exact hpages old (h.pages i s old hs hold) n
    · rw [if_neg hij] at hchange
      have hne : s.root ≠ space.root := by
        intro heq
        have hi : (rootsOf spaces)[i]? = some space.root := by
          rw [rootsOf, List.getElem?_map, hspace, Option.map_some]
        have hj : (rootsOf spaces)[j]? = some space.root := by
          rw [rootsOf, List.getElem?_map, hs, Option.map_some, heq]
        obtain ⟨hlt, -⟩ := List.getElem?_eq_some_iff.1 hi
        exact hij ((List.getElem?_inj hlt h.distinct).1 (hi.trans hj.symm))
      rw [hgrown.pageAt_other h.forest hroot (root_mem hs) hne, h.pages j s old hs hold, ← hchange]

/-- a page of a space is mapped otherwise -/
theorem mapped (h : Mirror m.toMemory spaces maps) (hspace : spaces[i]? = some space) {n : Nat}
    {target : Option (Frame × Permissions)}
    (hmapped : AddressSpace.Mapped (rootsOf spaces).toFinset space.root n target m.toMemory
      m'.toMemory) :
    Mirror m'.toMemory spaces (maps.modify i fun map => map.set n target) ∧
      TablesStay spaces m.toMemory m'.toMemory := by
  refine h.grown hspace hmapped.grown _ fun map hmap k => ?_
  rw [hmapped.page, hmap]
  simp only [PageMap.set, pageKey, Fin.mk.injEq]

end Mirror

/-! ## calls keep them alike -/

namespace SpaceCall

variable {m : Machine} {spaces : List AddressSpace} {maps : List PageMap}

theorem ends_performMap (h : Mirror m.toMemory spaces maps) {i : Nat} {space : AddressSpace}
    (hspace : spaces[i]? = some space) (va : VirtualAddress) {f : Frame} (p : Permissions)
    (hf : f.number.toNat < 2 ^ 40) :
    Ends (space.map va f p).outcome m
      (fun result m' =>
        Mirror m'.toMemory spaces ((SpaceCall.map i va f p).maps maps (.mapped result)) ∧
        (SpaceCall.map i va f p).Answered spaces m m' (.mapped result) ∧
        TablesStay spaces m.toMemory m'.toMemory) Never := by
  have hroot := Mirror.root_mem hspace
  have hpage : va.page.number.toNat = va.value.toNat / 4096 := va.toNat_page
  rw [ends_outcome]
  by_cases hpres : p.present = true
  · have hmap := AddressSpace.ends_map (f := f) va p h.forest hroot hf hpres
    rw [hpage] at hmap
    refine hmap.mono (fun _ m' hm' => ?_) fun e m' he => ?_
    · obtain ⟨hmapped, hfree⟩ := hm'
      obtain ⟨hmirror, hstay⟩ := h.mapped hspace hmapped
      have hzero : m'.missing space.root (pagePath (va.value.toNat / 4096)) = 0 := by
        have hself := hmapped.page (va.value.toNat / 4096)
        rw [if_pos rfl] at hself
        exact Memory.missing_of_pageAt hself rfl
      refine ⟨?_, .mapped hspace hpres (by omega) hfree hzero, hstay⟩
      rw [Permissions.core_eq] at hmirror
      simp only [SpaceCall.maps, if_pos hpres]
      exact hmirror
    · cases e with
      | panic => exact he
      | error e =>
        obtain ⟨level, rfl, hlevel⟩ := he.error
        obtain ⟨hmirror, hstay⟩ := h.grown hspace he.grown id fun map hold n => by
          rw [he.pages, hold]
          rfl
        rw [List.modify_id] at hmirror
        exact ⟨hmirror, .exhausted hspace hpres he.less he.free he.missing hlevel, hstay⟩
  · rw [Bool.not_eq_true] at hpres
    have hunmap := AddressSpace.ends_unmap (f := f) va p h.forest hroot hpres
    rw [hpage] at hunmap
    refine hunmap.mono (fun _ m' hm' => ?_) fun _ _ hn => hn.elim
    obtain ⟨hmapped, hsame, -⟩ := hm'
    obtain ⟨hmirror, hstay⟩ := h.mapped hspace hmapped
    refine ⟨?_, .unmapped hspace hpres hsame, hstay⟩
    simp only [SpaceCall.maps, hpres]
    exact hmirror

/-- a call keeps spaces and maps alike -/
theorem ends_perform (h : Mirror m.toMemory spaces maps) {call : SpaceCall} (hcall : call.Fits) :
    Ends (call.perform spaces) m
      (fun answer m' => Mirror m'.toMemory (answer.spaces spaces) (call.maps maps answer) ∧
        call.Answered spaces m m' answer ∧ TablesStay spaces m.toMemory m'.toMemory) Never := by
  have hsize : m.contents.size ≤ 2 ^ 52 :=
    Nat.le_trans h.forest.size_le (Nat.pow_le_pow_right (by decide) (by decide))
  have hstay (m' : Machine) (hsame : m'.toMemory = m.toMemory) :
      Mirror m'.toMemory spaces maps ∧ TablesStay spaces m.toMemory m'.toMemory := by
    rw [hsame]
    exact ⟨h, fun _ _ _ _ _ ht => ht⟩
  cases call with
  | allocate =>
    refine ends_bind.2 ((AddressSpace.ends_allocateRoot hsize).mono (fun space? m' hm' => ?_)
      fun _ _ hn => hn)
    cases space? with
    | none =>
      obtain ⟨hsame, hzero⟩ := hm'
      obtain ⟨hmirror, hkeep⟩ := hstay m' hsame
      exact ends_pure.2 ⟨hmirror, .noRoot hzero hsame, hkeep⟩
    | some space =>
      obtain ⟨hclaimed, hempty⟩ := hm'
      obtain ⟨hnew, hmirror⟩ := h.allocated hclaimed hempty
      exact ends_pure.2 ⟨hmirror, .allocated hnew hclaimed.freeCount, (h.claimed hclaimed).2⟩
  | frame =>
    refine ends_bind.2 (Machine.ends_allocate hsize (fun f hc hm => ?_) fun hzero m' hsame => ?_)
    · have hclaimed := Claimed.of_claim hc hm
      obtain ⟨hmirror, hkeep⟩ := h.claimed hclaimed
      have hone := hclaimed.count f
      rw [if_pos rfl] at hone
      exact ends_pure.2 ⟨hmirror, .handedOut hc hone hclaimed.freeCount, hkeep⟩
    · obtain ⟨hmirror, hkeep⟩ := hstay m' hsame
      exact ends_pure.2 ⟨hmirror, .noFrame hzero hsame, hkeep⟩
  | map i va f p =>
    cases hspace : spaces[i]? with
    | none =>
      simp only [perform, hspace]
      exact ends_pure.2 ⟨h, .unknown hspace rfl, (hstay m rfl).2⟩
    | some space =>
      simp only [perform, hspace]
      exact ends_bind.2 ((ends_performMap h hspace va p hcall).mono (fun _ _ hq => ends_pure.2 hq)
        fun _ _ hn => hn)

/-- calls one after another keep spaces and maps alike, and leave the tables where they were -/
theorem ends_performAll (h : Mirror m.toMemory spaces maps) {calls : List SpaceCall}
    (hcalls : ∀ call ∈ calls, call.Fits) :
    Ends (performAll calls spaces) m
      (fun answers m' => answers.length = calls.length ∧
        Mirror m'.toMemory (spacesAfter answers spaces) (mapsAfter calls answers maps) ∧
        TablesStay spaces m.toMemory m'.toMemory) Never := by
  induction calls generalizing m spaces maps with
  | nil => exact ends_pure.2 ⟨rfl, h, fun _ _ _ _ _ ht => ht⟩
  | cons call rest ih =>
    unfold performAll
    refine (ends_perform h (hcalls call List.mem_cons_self)).bind fun answer m₁ h₁ => ?_
    obtain ⟨hmirror, -, hkeep⟩ := h₁
    refine (ih hmirror fun c hc => hcalls c (List.mem_cons_of_mem call hc)).bind
      fun answers m₂ h₂ => ends_pure.2 ?_
    obtain ⟨hlength, hmirror₂, hkeep₂⟩ := h₂
    refine ⟨by rw [List.length_cons, List.length_cons, hlength], hmirror₂,
      fun space hspace path t hp ht => ?_⟩
    refine hkeep₂ space ?_ path t hp (hkeep space hspace path t hp ht)
    unfold SpaceAnswer.spaces
    split
    · exact List.mem_append_left _ hspace
    · exact hspace

/-- address spaces are finite maps: after any calls, every look-up in every space finds what its map
says, the next call is answered as `Answered` says, and no calls that follow displace a table.
Memory may hold anything and be in use already; its frames have the 40-bit numbers that an entry has
room for. -/
theorem refines (m : Machine) (hsize : m.contents.size ≤ 2 ^ 40) (calls : List SpaceCall)
    (hcalls : ∀ call ∈ calls, call.Fits) :
    Ends (performAll calls []) m
      (fun answers m' => answers.length = calls.length ∧
        Agree m'.toMemory (spacesAfter answers []) (mapsAfter calls answers []) ∧
        (∀ call : SpaceCall, call.Fits →
          Ends (call.perform (spacesAfter answers [])) m'
            (fun answer m'' => call.Answered (spacesAfter answers []) m' m'' answer) Never) ∧
        ∀ later : List SpaceCall, (∀ call ∈ later, call.Fits) →
          Ends (performAll later (spacesAfter answers [])) m'
            (fun _ m'' => TablesStay (spacesAfter answers []) m'.toMemory m''.toMemory) Never)
      Never := by
  have hnone : Mirror m.toMemory [] [] :=
    ⟨⟨hsize, nofun, nofun, nofun, nofun⟩, List.nodup_nil, rfl, nofun⟩
  refine (ends_performAll hnone hcalls).mono (fun answers m' hm' => ?_) fun _ _ hn => hn
  obtain ⟨hlength, hmirror, -⟩ := hm'
  refine ⟨hlength, hmirror.agree, fun call hcall => ?_, fun later hlater => ?_⟩
  · exact (ends_perform hmirror hcall).mono (fun _ _ hq => hq.2.1) fun _ _ hn => hn
  · exact (ends_performAll hmirror hlater).mono (fun _ _ hq => hq.2.2) fun _ _ hn => hn

theorem refines_default : ∃ m : Machine, Machine.ofLayout {} = .ok m ∧
    Ends (performAll [.allocate, .frame, .map 0 ⟨0x400123⟩ (.ofNumber 7) .userReadOnly] []) m
      (fun answers m' => Agree m'.toMemory (spacesAfter answers [])
        (mapsAfter [.allocate, .frame, .map 0 ⟨0x400123⟩ (.ofNumber 7) .userReadOnly] answers []))
      Never := by
  obtain ⟨mem, hmem, -, hsize, -, -⟩ := Memory.ofLayout_eq Layout.ordered_default
  refine ⟨{ toMemory := mem }, by rw [Machine.ofLayout, hmem]; rfl, ?_⟩
  refine (refines { toMemory := mem } ?_ _ ?_).mono (fun _ _ h => h.2.1) fun _ _ hn => hn
  · show mem.contents.size ≤ 2 ^ 40
    rw [hsize]
    decide
  · intro call hcall
    simp only [List.mem_cons, List.not_mem_nil, or_false] at hcall
    rcases hcall with rfl | rfl | rfl
    · trivial
    · trivial
    · show (Page.ofNumber 7 : Frame).number.toNat < 2 ^ 40
      decide

end SpaceCall

end PagedKernel
