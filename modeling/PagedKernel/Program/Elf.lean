import PagedKernel.Action
import PagedKernel.Program.Image
import PagedKernel.Word

/-!
# ELF files

Reads programs from 64-bit, little-endian, statically linked x86-64 executables.

* `ElfError`             why a file is refused
* `ElfHeader.read`       the header of a file, after all checks
* `ElfHeader.segments`   its program headers
* `ElfHeader.load?`      the segment of one of them
* `ProgramImage.ofElf`   the program in a file: a segment for each header that is to be loaded

The checks come in a fixed order, and the first that fails names the error.  No byte is read
without a proof that the file has it.  The place of a program header is a sum of words, which
panics when it leaves the 64-bit range.
-/

namespace PagedKernel

/-- why a file is refused -/
inductive ElfError where
  | tooShort
  | badMagic
  | badClass
  | badMachine
  | badHeader
  | positionIndependent
  | outOfBounds
  /-- a segment holds more bytes in the file than in memory -/
  | badSegment (va : VirtualAddress)
  deriving DecidableEq

def ElfError.message : ElfError → String
  | tooShort => "file is shorter than an ELF header"
  | badMagic => "bad ELF magic"
  | badClass => "not a 64-bit ELF file"
  | badMachine => "not an x86-64 executable"
  | badHeader => "malformed ELF header"
  | positionIndependent => "position-independent executables are not supported"
  | outOfBounds => "program header or segment lies outside the file"
  | badSegment va => "segment at " ++ va.text ++ " is larger in the file than in memory"

/-- the number in the `length` bytes from `offset` on, least significant byte first -/
def littleEndian (bytes : ByteArray) (offset length : Nat) (h : offset + length ≤ bytes.size) :
    Nat :=
  match length with
  | 0 => 0
  | length + 1 =>
    bytes[offset].toNat + 256 * littleEndian bytes (offset + 1) length (by omega)

/-- the `length` bytes from `start` on lie in a file, and a word can tell where they end -/
def InFile (bytes : ByteArray) (start length : Nat) : Prop :=
  start + length < 0x10000000000000000 ∧ start + length ≤ bytes.size

instance (bytes : ByteArray) (start length : Nat) : Decidable (InFile bytes start length) :=
  inferInstanceAs (Decidable (_ ∧ _))

/-- the header of a file -/
structure ElfHeader where
  /-- the kind of file; 2 is a program at fixed addresses -/
  type : UInt16
  machine : UInt16
  version : UInt32
  /-- where the program starts -/
  entry : VirtualAddress
  /-- where in the file the program headers start -/
  programOffset : UInt64
  /-- bytes of a program header -/
  programSize : UInt16
  /-- the number of program headers -/
  programCount : UInt16
  deriving DecidableEq, Inhabited

/-- a program header: a part of the file and its place in memory -/
structure ElfSegment where
  /-- what the header is for; 1 is a segment to be loaded -/
  type : UInt32
  /-- bit 0: may be executed, bit 1: may be written, bit 2: may be read -/
  flags : UInt32
  /-- where in the file the bytes start -/
  offset : UInt64
  va : VirtualAddress
  fileSize : UInt64
  memorySize : UInt64
  deriving DecidableEq, Inhabited

namespace ElfSegment

def executable (s : ElfSegment) : Bool := s.flags &&& 1 != 0
def writable (s : ElfSegment) : Bool := s.flags &&& 2 != 0
def readable (s : ElfSegment) : Bool := s.flags &&& 4 != 0

/-- whether the segment is part of the program -/
def isLoaded (s : ElfSegment) : Bool := s.type == 1

/-- bytes of a program header -/
def size : Nat := 56

/-- the program header at place `p` of a file -/
def read (bytes : ByteArray) (p : Nat) (h : p + size ≤ bytes.size) : ElfSegment :=
  have h : p + 56 ≤ bytes.size := h
  { type := .ofNat (littleEndian bytes p 4 (by omega))
    flags := .ofNat (littleEndian bytes (p + 4) 4 (by omega))
    offset := .ofNat (littleEndian bytes (p + 8) 8 (by omega))
    va := ⟨.ofNat (littleEndian bytes (p + 16) 8 (by omega))⟩
    fileSize := .ofNat (littleEndian bytes (p + 32) 8 (by omega))
    memorySize := .ofNat (littleEndian bytes (p + 40) 8 (by omega)) }

/-- the program header at place `p`, if the file reaches to its end -/
def read? (bytes : ByteArray) (p : Nat) : Option ElfSegment :=
  if h : p + size ≤ bytes.size then some (read bytes p h) else none

/-- the segment of a program that a header describes -/
def load (bytes : ByteArray) (s : ElfSegment) : Except ElfError Segment :=
  if s.memorySize < s.fileSize then .error (.badSegment s.va)
  else if InFile bytes s.offset.toNat s.fileSize.toNat then
    .ok (.ofData s.va (bytes.extract s.offset.toNat (s.offset.toNat + s.fileSize.toNat))
      s.memorySize s.writable)
  else .error .outOfBounds

end ElfSegment

namespace ElfHeader

/-- bytes of a file header -/
def size : Nat := 64

/-- the fields of the header, unchecked -/
def parse (bytes : ByteArray) (h : size ≤ bytes.size) : ElfHeader :=
  have h : 64 ≤ bytes.size := h
  { type := .ofNat (littleEndian bytes 16 2 (by omega))
    machine := .ofNat (littleEndian bytes 18 2 (by omega))
    version := .ofNat (littleEndian bytes 20 4 (by omega))
    entry := ⟨.ofNat (littleEndian bytes 24 8 (by omega))⟩
    programOffset := .ofNat (littleEndian bytes 32 8 (by omega))
    programSize := .ofNat (littleEndian bytes 54 2 (by omega))
    programCount := .ofNat (littleEndian bytes 56 2 (by omega)) }

/-- the four bytes that every ELF file starts with -/
def magic : List UInt8 := [0x7F, 0x45, 0x4C, 0x46]

/-- the four bytes that a file starts with -/
def start (bytes : ByteArray) (h : size ≤ bytes.size) : List UInt8 :=
  have h : 64 ≤ bytes.size := h
  [bytes[0], bytes[1], bytes[2], bytes[3]]

/-- the header of a file, if it is a program that can be loaded -/
def read (bytes : ByteArray) : Except ElfError ElfHeader :=
  if h : size ≤ bytes.size then
    have hsize : 64 ≤ bytes.size := h
    let header := parse bytes h
    if start bytes h ≠ magic then .error .badMagic
    else if bytes[4] ≠ 2 then .error .badClass
    else if bytes[5] ≠ 1 then .error .badHeader
    else if header.type = 3 then .error .positionIndependent
    else if header.type ≠ 2 then .error .badHeader
    else if header.machine ≠ 62 then .error .badMachine
    else if header.version ≠ 1 ∨ header.programSize.toNat ≠ ElfSegment.size then .error .badHeader
    else if InFile bytes header.programOffset.toNat (ElfSegment.size * header.programCount.toNat)
      then .ok header
    else .error .outOfBounds
  else .error .tooShort

/-- program header `i` of a file, if the file reaches to its end.  Both the place where it starts and
the place where it ends have to be words. -/
def segment? (header : ElfHeader) (bytes : ByteArray) (i : Nat) :
    Except Panic (Option ElfSegment) := do
  let start ← Word.add header.programOffset (UInt64.ofNat (ElfSegment.size * i))
  let _ ← Word.add start (UInt64.ofNat ElfSegment.size)
  return ElfSegment.read? bytes start.toNat

/-- the program headers of a file, in order; those that the file does not reach are left out -/
def segments (header : ElfHeader) (bytes : ByteArray) : Except Panic (List ElfSegment) :=
  (List.range header.programCount.toNat).filterMapM (header.segment? bytes)

/-- the segment that program header `i` describes, if it is to be loaded -/
def load? (header : ElfHeader) (bytes : ByteArray) (i : Nat) :
    Except (Stop ElfError) (Option Segment) := do
  match ← (header.segment? bytes i).mapError .panic with
  | some s => if s.isLoaded then some <$> (s.load bytes).mapError .error else return none
  | none => return none

end ElfHeader

/-- the program in a file: a segment for each header that is to be loaded, in the order of the
headers.  Each is loaded before the next header is looked at. -/
def ProgramImage.ofElf (name : String) (bytes : ByteArray) :
    Except (Stop ElfError) ProgramImage := do
  let header ← (ElfHeader.read bytes).mapError .error
  let segments ← (List.range header.programCount.toNat).filterMapM (header.load? bytes)
  return .of name segments (some header.entry)

end PagedKernel
