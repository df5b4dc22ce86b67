import PagedKernel.Text.Hex

/-!
# Addresses and pages

An address is a 64-bit word that says which space it belongs to; a page is a 4096-byte block of
such a space.

* `Address kind`   an address; `PhysicalAddress` and `VirtualAddress` are the kinds kept apart
* `Page kind`      a page, named by its number; the number of a page is below `2 ^ 52`
* `Frame`          a page of physical memory

`Address.page` and `Address.offset` split an address, `Page.address` puts it together again
(`Address.page_address_offset`).
-/

namespace PagedKernel

/-- bytes in a page -/
def pageSize : Nat := 4096

/-- one more than the largest page number -/
def pageNumberBound : Nat := 0x10000000000000

/-- the space an address belongs to -/
inductive AddressKind where
  /-- not known to be physical or virtual -/
  | memory
  | physical
  | virtual
  deriving DecidableEq, Inhabited

/-- an address of the space `kind` -/
structure Address (kind : AddressKind) where
  value : UInt64
  deriving DecidableEq, Inhabited

abbrev PhysicalAddress := Address .physical
abbrev VirtualAddress := Address .virtual

/-- a block of 4096 bytes, named by its number -/
structure Page (kind : AddressKind) where
  number : UInt64
  number_lt : number.toNat < pageNumberBound
  deriving DecidableEq

/-- a page of physical memory -/
abbrev Frame := Page .physical

abbrev VirtualPage := Page .virtual

/-! ## splitting an address -/

/-- the page an address lies in -/
def Address.page {kind : AddressKind} (a : Address kind) : Page kind where
  number := a.value / 4096
  number_lt := by
    have := a.value.toNat_lt
    simp only [UInt64.toNat_div, UInt64.reduceToNat, pageNumberBound]
    omega

/-- the distance of an address from the start of its page -/
def Address.offset {kind : AddressKind} (a : Address kind) : UInt64 :=
  a.value % 4096

/-- whether an address is the start of a page -/
def Address.isAligned {kind : AddressKind} (a : Address kind) : Bool :=
  a.offset == 0

theorem Address.offset_lt {kind : AddressKind} (a : Address kind) : a.offset.toNat < 4096 := by
  simp only [Address.offset, UInt64.toNat_mod, UInt64.reduceToNat]
  omega

namespace Page

variable {kind : AddressKind}

/-- the page of number `n`; bits of `n` that no page number has are dropped -/
def ofNumber (n : UInt64) : Page kind where
  number := n % 0x10000000000000
  number_lt := by
    simp only [UInt64.toNat_mod, UInt64.reduceToNat, pageNumberBound]
    omega

instance : Inhabited (Page kind) := ⟨ofNumber 0⟩

/-- the first address of a page -/
def base (p : Page kind) : Address kind :=
  ⟨p.number * 4096⟩

/-- the address `offset` bytes into a page, for an offset below the page size -/
def address (p : Page kind) (offset : UInt64) : Address kind :=
  ⟨p.number * 4096 + offset⟩

/-- the page of an aligned address -/
def ofAligned? (a : Address kind) : Option (Page kind) :=
  if a.isAligned then some a.page else none

theorem toNat_base (p : Page kind) : p.base.value.toNat = p.number.toNat * 4096 := by
  have := p.number_lt
  simp only [base, UInt64.toNat_mul, UInt64.reduceToNat, pageNumberBound] at *
  omega

/-- pages are equal when their numbers are -/
theorem ext {p q : Page kind} (h : p.number = q.number) : p = q := by
  cases p
  cases q
  cases h
  rfl

theorem page_base (p : Page kind) : p.base.page = p := by
  have h := p.toNat_base
  apply ext
  apply UInt64.toNat.inj
  simp only [Address.page, UInt64.toNat_div, UInt64.reduceToNat, h]
  omega

end Page

theorem Address.page_address_offset {kind : AddressKind} (a : Address kind) :
    a.page.address a.offset = a := by
  obtain ⟨v⟩ := a
  have := v.toNat_lt
  simp only [Page.address, Address.page, Address.offset, Address.mk.injEq]
  apply UInt64.toNat.inj
  simp only [UInt64.toNat_add, UInt64.toNat_mul, UInt64.toNat_div, UInt64.toNat_mod,
    UInt64.reduceToNat]
  omega

/-! ## text -/

/-- the name of an address kind in the debugging form of its addresses -/
def AddressKind.addressTag : AddressKind → String
  | .memory => "MemoryAddress"
  | .physical => "PA"
  | .virtual => "VA"

/-- the name of an address kind in the debugging form of its pages -/
def AddressKind.pageTag : AddressKind → String
  | .memory => "MemoryPage"
  | .physical => "PhysicalPage"
  | .virtual => "VirtualPage"

/-- sixteen hexadecimal digits -/
def Address.text {kind : AddressKind} (a : Address kind) : String :=
  hexPadded a.value.toNat

/-- the address with its kind, as `VA(0x0000000000100000)` -/
def Address.debugText {kind : AddressKind} (a : Address kind) : String :=
  kind.addressTag ++ "(" ++ a.text ++ ")"

/-- the page by its first address, with its kind -/
def Page.debugText {kind : AddressKind} (p : Page kind) : String :=
  kind.pageTag ++ "(" ++ p.base.text ++ ")"

end PagedKernel
