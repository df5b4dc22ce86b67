import PagedKernel.Address.Basic

/-!
# The levels of a page table

A virtual address is resolved by four tables, each of 512 entries; nine bits of the address choose
the entry at each level.

* `Level`             the levels, the root first
* `Level.shift`       the position of a level's nine bits
* `Level.span`        bytes of address space under one entry
* `Level.index`       the entry that an address selects
* `Level.links`       the levels whose entries point to a further table
-/

namespace PagedKernel

/-- the place of an entry in its table -/
abbrev TableIndex := Fin 512

/-- bytes before the entry in its table -/
def TableIndex.byteOffset (i : TableIndex) : Nat := i.val * 8

/-- a level of the tables -/
inductive Level where
  /-- the root -/
  | pml4
  | pdpt
  | pd
  /-- the last level, whose entries name the mapped frames -/
  | pt
  deriving DecidableEq, Inhabited

namespace Level

def name : Level → String
  | pml4 => "PML4"
  | pdpt => "PDPT"
  | pd => "PD"
  | pt => "PT"

/-- the position of the bits of an address that choose the entry -/
def shift : Level → Nat
  | pml4 => 39
  | pdpt => 30
  | pd => 21
  | pt => 12

/-- bytes of address space under one entry -/
def span (level : Level) : UInt64 :=
  UInt64.ofNat (1 <<< level.shift)

/-- the level of the tables that the entries point to -/
def next? : Level → Option Level
  | pml4 => some pdpt
  | pdpt => some pd
  | pd => some pt
  | pt => none

/-- the levels whose entries point to a further table, the root first -/
def links : List Level := [pml4, pdpt, pd]

/-- every level, the root first -/
def all : List Level := [pml4, pdpt, pd, pt]

/-- the entry that `va` selects -/
def index (level : Level) (va : VirtualAddress) : TableIndex :=
  ⟨(va.value / level.span % 512).toNat, by
    simp only [UInt64.toNat_mod, UInt64.reduceToNat]
    omega⟩

end Level

end PagedKernel
