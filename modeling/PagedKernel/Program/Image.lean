import PagedKernel.Address.Basic

/-!
# Program images

A program as it is loaded: where it starts, and the segments that make up its memory.

* `Segment.ofData`     a segment that is at least as large as its data
* `Segment.stop`       one past the last byte
* `ProgramImage.of`    an image; it starts at its first segment unless told otherwise
-/

namespace PagedKernel

/-- a run of memory of a program -/
structure Segment where
  va : VirtualAddress
  /-- bytes in memory; those that follow `data` are zero -/
  size : UInt64
  data : ByteArray
  writable : Bool
  deriving Inhabited

namespace Segment

/-- a segment of `size` bytes, or as many as its data has -/
def ofData (va : VirtualAddress) (data : ByteArray) (size : UInt64) (writable : Bool) : Segment :=
  { va, size := max size (UInt64.ofNat data.size), data, writable }

/-- a segment that is not written -/
def code (va : VirtualAddress) (data : ByteArray) : Segment :=
  ofData va data 0 false

/-- a segment that may be written -/
def globals (va : VirtualAddress) (data : ByteArray) : Segment :=
  ofData va data 0 true

/-- a segment of zeroes -/
def blank (va : VirtualAddress) (size : UInt64) : Segment :=
  ofData va ByteArray.empty size true

/-- one past the last byte, or the last address of all -/
def stop (s : Segment) : UInt64 :=
  UInt64.ofNat (min (s.va.value.toNat + s.size.toNat) 0xFFFFFFFFFFFFFFFF)

end Segment

/-- a program as it is loaded -/
structure ProgramImage where
  name : String
  /-- where the program starts -/
  entry : VirtualAddress
  segments : List Segment
  deriving Inhabited

/-- an image; it starts at its first segment unless told otherwise -/
def ProgramImage.of (name : String) (segments : List Segment)
    (start : Option VirtualAddress) : ProgramImage :=
  { name, segments, entry := start.getD ((segments.head?.map Segment.va).getD ⟨0⟩) }

end PagedKernel
