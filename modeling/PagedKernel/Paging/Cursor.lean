import PagedKernel.Paging.AddressSpace

/-!
# Cursors

A position in an address space that moves page by page.
-/

namespace PagedKernel

/-- a position in an address space -/
structure Cursor where
  space : AddressSpace
  va : VirtualAddress
  deriving DecidableEq, Inhabited

namespace Cursor

/-- the mapping at the position -/
def mapping (c : Cursor) (mem : Memory) : Except Panic (Option Mapping) :=
  c.space.lookup mem c.va

/-- what the mapping at the position allows; nothing if there is none -/
def permissions (c : Cursor) (mem : Memory) : Except Panic Permissions := do
  return ((← c.mapping mem).map Mapping.permissions).getD .none

/-- move to the start of the next page -/
def advance (c : Cursor) : Except Panic Cursor := do
  return { c with va := (← c.va.page.next).base }

/-- move to `va` -/
def seek (c : Cursor) (va : VirtualAddress) : Cursor :=
  { c with va }

/-- the mappings of the pages from the position up to `stop` -/
def mappingsUntil (c : Cursor) (mem : Memory) (stop : VirtualAddress) :
    Except Panic (List Mapping) :=
  (c.va.pagesUntil stop).filterMapM (c.space.lookup mem)

end Cursor

/-- the mappings of a space from the page of `start` up to `stop` -/
def AddressSpace.mappings (space : AddressSpace) (mem : Memory) (start stop : VirtualAddress) :
    Except Panic (List Mapping) :=
  (Cursor.mk space start).mappingsUntil mem stop

end PagedKernel
