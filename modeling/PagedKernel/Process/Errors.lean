import PagedKernel.Memory.Ledger
import PagedKernel.Process.Basic

/-!
# Why an operation on a process fails

* `MemoryError`      memory ran out, or a frame was counted wrongly
* `SetupError`       why a program could not be loaded
* `ForkError`        why a process could not be duplicated
* `PageAllocError`   why a process did not get a page

Each has a `message`.
-/

namespace PagedKernel

/-- memory ran out, or a frame was counted wrongly -/
inductive MemoryError where
  | outOfMemory
  | frame (e : FrameError)
  deriving DecidableEq

def MemoryError.message : MemoryError → String
  | outOfMemory => "out of physical memory"
  | frame e => e.message

/-- memory ran out while a page was mapped -/
def MemoryError.ofMap (_ : MapError) : MemoryError := .outOfMemory

/-- why a program could not be loaded -/
inductive SetupError where
  | slotInUse (pid : Pid)
  /-- the kernel's slot, or no slot at all -/
  | reserved (pid : Pid)
  | segmentOutOfRange (va : VirtualAddress)
  | unmapped (va : VirtualAddress)
  | memory (e : MemoryError)
  deriving DecidableEq

def SetupError.message : SetupError → String
  | slotInUse pid => "process slot " ++ toString pid ++ " is in use"
  | reserved pid => "process slot " ++ toString pid ++ " is reserved"
  | segmentOutOfRange va => "segment at " ++ va.text ++ " does not fit into process memory"
  | unmapped va => "segment page " ++ va.text ++ " is not mapped"
  | memory e => e.message

/-- why a process could not be duplicated -/
inductive ForkError where
  | noSlot
  | notLoaded (pid : Pid)
  | memory (e : MemoryError)
  deriving DecidableEq

def ForkError.message : ForkError → String
  | noSlot => "no free process slot"
  | notLoaded pid => "process " ++ toString pid ++ " has no address space"
  | memory e => e.message

/-- why a process did not get a page -/
inductive PageAllocError where
  | invalidAddress (va : VirtualAddress)
  | notLoaded (pid : Pid)
  | memory (e : MemoryError)
  deriving DecidableEq

def PageAllocError.message : PageAllocError → String
  | invalidAddress va => va.text ++ " is not a page-aligned user address"
  | notLoaded pid => "process " ++ toString pid ++ " has no address space"
  | memory e => e.message

end PagedKernel
