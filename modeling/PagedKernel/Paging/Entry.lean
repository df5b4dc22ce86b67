import PagedKernel.Paging.Permissions
import PagedKernel.Word

/-!
# Page-table entries

An entry is a 64-bit word: flags in the low bits, the number of a frame in the middle, and bits for
the system's own use.

* `PageEntry`           the word, with its fields
* `PageEntry.table`     the entry that links to a further table
* `PageEntry.leaf`      the entry that maps a frame
* `PageEntry.isLink`    whether a walk follows an entry: it is present and not a large page
-/

namespace PagedKernel

/-- an entry of a page table -/
structure PageEntry where
  bits : UInt64
  deriving DecidableEq, Inhabited

namespace PageEntry

/-! ## fields -/

def presentField : Field := .bit 0
def writableField : Field := .bit 1
def userField : Field := .bit 2
def writeThroughField : Field := .bit 3
def cacheDisabledField : Field := .bit 4
def accessedField : Field := .bit 5
def dirtyField : Field := .bit 6
def largePageField : Field := .bit 7
def globalField : Field := .bit 8
def systemLowField : Field := ⟨9, 3⟩
def frameField : Field := ⟨12, 40⟩
def systemHighField : Field := ⟨52, 7⟩
def protectionKeyField : Field := ⟨59, 4⟩
def noExecuteField : Field := .bit 63

def present (e : PageEntry) : Bool := presentField.isSet e.bits
def writable (e : PageEntry) : Bool := writableField.isSet e.bits
def user (e : PageEntry) : Bool := userField.isSet e.bits

/-- whether the entry maps a page larger than 4096 bytes, which this system never makes -/
def largePage (e : PageEntry) : Bool := largePageField.isSet e.bits

/-- the flags of an entry with their short names, the lowest bit first -/
def flags : List (String × Field) :=
  [("P", presentField), ("W", writableField), ("U", userField), ("PWT", writeThroughField),
   ("PCD", cacheDisabledField), ("A", accessedField), ("D", dirtyField), ("PS", largePageField),
   ("G", globalField), ("NX", noExecuteField)]

/-- the frame that the entry names: a further table, or the mapped memory -/
def frame (e : PageEntry) : Frame :=
  Page.ofNumber (frameField.get e.bits)

/-- what the entry allows -/
def permissions (e : PageEntry) : Permissions :=
  .of e.present e.writable e.user

/-- whether a walk goes on to the table that the entry names -/
def isLink (e : PageEntry) : Bool :=
  e.present && !e.largePage

/-! ## making entries -/

/-- the entry that maps nothing -/
def empty : PageEntry := ⟨0⟩

/-- give a field a value that fits into it -/
def put (e : PageEntry) (field : Field) (value : UInt64) : Except Panic PageEntry := do
  return ⟨← field.put e.bits value⟩

/-- set or clear a flag -/
def putFlag (e : PageEntry) (field : Field) (value : Bool) : PageEntry :=
  ⟨field.putBool e.bits value⟩

/-- name another frame, whose number has to fit into the entry -/
def putFrame (e : PageEntry) (f : Frame) : Except Panic PageEntry :=
  e.put frameField f.number

/-- the entry that maps `f` with permissions `p` -/
def leaf (f : Frame) (p : Permissions) : Except Panic PageEntry :=
  ((empty.putFlag presentField p.present).putFlag writableField p.writable
    |>.putFlag userField p.user).putFrame f

/-- the entry that links to the table in `f`; it allows everything, so that the entry which maps
the memory decides -/
def table (f : Frame) : Except Panic PageEntry :=
  leaf f .userReadWrite

end PageEntry

end PagedKernel
