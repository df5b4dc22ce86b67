import PagedKernel.Paging.AddressSpace
import PagedKernel.Text.Utf8

/-!
# Reading and writing through an address space

Copies bytes to and from the pages of an address space.  Each page is checked before it is touched,
and the pages before a refused one keep what was done to them.

* `AddressSpace.copyTo`       writes as the process itself would
* `AddressSpace.copyFrom`     reads as the process itself would
* `AddressSpace.readText`     reads a text that ends with a zero byte
* `AddressSpace.kernelWrite`  writes to any page that is mapped
-/

namespace PagedKernel

/-- by what right memory is accessed -/
inductive Privilege where
  /-- as the process, so that the permissions of the page decide -/
  | process (access : Access)
  /-- as the kernel, which only needs a mapping -/
  | kernel
  deriving DecidableEq

/-- the bytes of a run of `left` bytes from `va` on that lie in the first page -/
def pageChunk (va : VirtualAddress) (left : Nat) : Nat :=
  min left (4096 - va.offset.toNat)

theorem pageChunk_pos (va : VirtualAddress) (left : Nat) (h : 0 < left) :
    0 < pageChunk va left := by
  have := va.offset_lt
  unfold pageChunk
  omega

theorem pageChunk_le (va : VirtualAddress) (left : Nat) : pageChunk va left ≤ left := by
  unfold pageChunk
  omega

namespace AddressSpace

/-- the physical address of `va`, or the fault of an access there -/
def resolve (space : AddressSpace) (mem : Memory) (va : VirtualAddress) (right : Privilege) :
    Except Panic (Except UserFault PhysicalAddress) := do
  match right with
  | .process a => return (← space.access mem va a).mapError (UserFault.mk va)
  | .kernel =>
    match ← space.translate mem va with
    | some pa => return .ok pa
    | none => return .error ⟨va, .ofAccess .kernelWrite false⟩

/-- write `bytes` from its place `done` on, page by page -/
def writeFrom (space : AddressSpace) (va : VirtualAddress) (bytes : ByteArray) (right : Privilege)
    (done : Nat) : Attempt Machine UserFault Unit :=
  if _h : done < bytes.size then do
    let place ← va.advance done
    let pa ← Attempt.ofResult (← Machine.inspect fun mem => space.resolve mem place right)
    let n := pageChunk place (bytes.size - done)
    Machine.store pa (bytes.extract done (done + n))
    writeFrom space va bytes right (done + n)
  else return
termination_by bytes.size - done
decreasing_by
  have := pageChunk_pos place (bytes.size - done) (by omega)
  omega

/-- write `bytes` at `va` as the process would -/
def copyTo (space : AddressSpace) (va : VirtualAddress) (bytes : ByteArray) :
    Attempt Machine UserFault Unit :=
  space.writeFrom va bytes (.process .userWrite) 0

/-- write `bytes` at `va`, whatever the permissions -/
def kernelWrite (space : AddressSpace) (va : VirtualAddress) (bytes : ByteArray) :
    Attempt Machine UserFault Unit :=
  space.writeFrom va bytes .kernel 0

/-- append the bytes of a run of `length` bytes from its place `done` on to `out`, page by page -/
def readFrom (space : AddressSpace) (mem : Memory) (va : VirtualAddress) (length done : Nat)
    (out : ByteArray) : Except Panic (ByteArray × Option UserFault) :=
  if _h : done < length then do
    let place ← va.advance done
    match ← space.resolve mem place (.process .userRead) with
    | .error fault => return (out, some fault)
    | .ok pa =>
      let n := pageChunk place (length - done)
      readFrom space mem va length (done + n) (out ++ (← mem.read pa n))
  else return (out, none)
termination_by length - done
decreasing_by
  have := pageChunk_pos place (length - done) (by omega)
  omega

/-- read `length` bytes from `va` on as the process would: the bytes before the first refused page,
and the fault there -/
def copyFrom (space : AddressSpace) (mem : Memory) (va : VirtualAddress) (length : Nat) :
    Except Panic (ByteArray × Option UserFault) :=
  space.readFrom mem va length 0 ByteArray.empty

/-- append to `out` what comes before a zero byte, but not more than `left` bytes -/
def readTextFrom (space : AddressSpace) (mem : Memory) (va : VirtualAddress) (left : Nat)
    (out : ByteArray) : Except Panic (Except UserFault ByteArray) :=
  if _h : 0 < left then do
    let n := pageChunk va left
    match ← space.copyFrom mem va n with
    | (_, some fault) => return .error fault
    | (part, none) =>
      match part.findIdx? (· == 0) with
      | some stop => return .ok (out ++ part.extract 0 stop)
      | none => readTextFrom space mem (← va.add (UInt64.ofNat n)) (left - n) (out ++ part)
  else return .ok out
termination_by left
decreasing_by
  have := pageChunk_pos va left _h
  omega

/-- read a text from `va` on, as the process would.  It ends before a zero byte, or after a page of
bytes. -/
def readText (space : AddressSpace) (mem : Memory) (va : VirtualAddress) :
    Except Panic (Except UserFault String) := do
  return (← space.readTextFrom mem va 4096 ByteArray.empty).map Utf8.text

end AddressSpace

end PagedKernel
