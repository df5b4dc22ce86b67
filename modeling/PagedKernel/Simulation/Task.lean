import PagedKernel.Program.Registry
import PagedKernel.Syscall

/-!
# The demonstration programs

Three small programs to run the kernel with.  The kernel only sees their images; what they do is
played here, one action at a time.

* `DemoProgram`        the programs, with their images
* `Task`               a program at some point of its run
* `Task.resume`        takes note of the result of the last system call
* `Task.step`          what the program does next
* `Task.forkedChild`   the same program in the process that a fork made
-/

namespace PagedKernel

inductive DemoProgram where
  /-- asks for one page of heap after the other -/
  | allocator
  /-- forks once, and then does the same -/
  | forker
  /-- asks for a few pages and exits -/
  | exiter
  deriving DecidableEq, Inhabited

namespace DemoProgram

def all : List DemoProgram := [allocator, forker, exiter]

def name : DemoProgram → String
  | allocator => "allocator"
  | forker => "forker"
  | exiter => "exiter"

def ofName? (name : String) : Option DemoProgram :=
  all.find? fun p => p.name = name

/-- a page of code (a system call, and a jump back to it) and a page that holds the name -/
def image (p : DemoProgram) : ProgramImage :=
  .of p.name
    [.code ⟨0x100000⟩ ⟨#[0xCD, 0x80, 0xEB, 0xFC]⟩, .globals ⟨0x101000⟩ p.name.toUTF8] none

/-- the images of all programs -/
def registry : ProgramRegistry :=
  .ofList (all.map image)

end DemoProgram

/-- the first page of the heap of every program -/
def heapStart : UInt64 := 0x110000

/-- the end of the heap, below the page of the stack -/
def heapEnd : UInt64 := 0x2FF000

/-- the pages that `exiter` asks for before it exits -/
def exiterPages : Nat := 4

/-- what a program does before the kernel gets control again -/
inductive TaskAction where
  | call (call : CallNumber) (argument : UInt64)
  /-- store one byte -/
  | store (va : VirtualAddress) (byte : UInt8)
  deriving DecidableEq

/-- a program at some point of its run -/
structure Task where
  program : DemoProgram
  /-- the next page to ask for -/
  heap : UInt64 := heapStart
  /-- the pages it was given -/
  allocated : Nat := 0
  /-- the call whose result it has not seen yet -/
  pending : Option CallNumber := none
  forked : Bool := false
  /-- a page that it was given and has not used yet -/
  touch : Option VirtualAddress := none
  /-- whether it lets others run before it goes on -/
  yieldNext : Bool := false
  deriving DecidableEq, Inhabited

namespace Task

/-- the same program in the process that a fork made; it waits for no result -/
def forkedChild (t : Task) : Task :=
  { t with pending := none }

/-- take note of `result`, the result of the last call -/
def resume (t : Task) (result : UInt64) : Task :=
  let seen := { t with pending := none }
  match t.pending with
  | some .pageAlloc =>
    if result = Registers.failed then { seen with heap := heapEnd }
    else
      { seen with
        touch := some ⟨t.heap⟩
        yieldNext := true
        heap := t.heap + 4096
        allocated := t.allocated + 1 }
  | _ => seen

/-- make a call, whose result will have to be seen -/
def calling (t : Task) (call : CallNumber) (argument : UInt64) : TaskAction × Task :=
  (.call call argument, { t with pending := some call })

/-- what the program does next, as process `pid` -/
def step (t : Task) (pid : UInt64) : TaskAction × Task :=
  match t.touch with
  | some va => (.store va pid.toUInt8, { t with touch := none })
  | none =>
    if t.yieldNext then { t with yieldNext := false }.calling .yield 0
    else if t.program = .forker ∧ !t.forked then { t with forked := true }.calling .fork 0
    else if t.program = .exiter ∧ exiterPages ≤ t.allocated then t.calling .exit 0
    else if t.heap < heapEnd then t.calling .pageAlloc t.heap
    else t.calling .yield 0

end Task

end PagedKernel
