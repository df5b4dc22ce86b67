import PagedKernel.Word

/-!
# Page faults

What the processor reports when it refuses an access.

* `Access`               the access: whether it writes, and whether a process makes it
* `FaultCode`            the report, a 64-bit word of flags
* `FaultCode.ofAccess`   the report for a refused access
* `UserFault`            the report with the address that was refused
-/

namespace PagedKernel

/-- an access to memory -/
structure Access where
  write : Bool
  user : Bool
  deriving DecidableEq, Inhabited

def Access.userRead : Access := ⟨false, true⟩
def Access.userWrite : Access := ⟨true, true⟩
def Access.kernelWrite : Access := ⟨true, false⟩

/-- the report of a refused access -/
structure FaultCode where
  bits : UInt64
  deriving DecidableEq, Inhabited

namespace FaultCode

def presentField : Field := .bit 0
def writeField : Field := .bit 1
def userField : Field := .bit 2
def reservedBitField : Field := .bit 3
def instructionFetchField : Field := .bit 4
def protectionKeyField : Field := .bit 5
def shadowStackField : Field := .bit 6

/-- whether the page is mapped, so that it was its permissions that refused the access -/
def present (c : FaultCode) : Bool := presentField.isSet c.bits

/-- whether the access was a write -/
def write (c : FaultCode) : Bool := writeField.isSet c.bits

/-- whether a process made the access -/
def user (c : FaultCode) : Bool := userField.isSet c.bits

/-- whether an instruction was to be fetched -/
def instructionFetch (c : FaultCode) : Bool := instructionFetchField.isSet c.bits

/-- the flags of a report with their names, the lowest bit first -/
def flags : List (String × Field) :=
  [("present", presentField), ("write", writeField), ("user", userField),
   ("reserved_bit", reservedBitField), ("instruction_fetch", instructionFetchField),
   ("protection_key", protectionKeyField), ("shadow_stack", shadowStackField)]

/-- the report when `access` is refused on a page that is mapped (`present`) or is not -/
def ofAccess (access : Access) (present : Bool) : FaultCode :=
  ⟨userField.putBool (writeField.putBool (presentField.putBool 0 present) access.write)
    access.user⟩

def operation (c : FaultCode) : String :=
  if c.write then "write" else "read"

def problem (c : FaultCode) : String :=
  if c.present then "protection problem" else "missing page"

/-- the report as a sentence -/
def explain (c : FaultCode) : String :=
  if !c.present then "Non-present page (page not mapped)"
  else if c.instructionFetch then
    if c.user then "User-mode instruction fetch on protected page"
    else "Kernel instruction fetch on protected page"
  else if c.write then "Write access to protected page"
  else "Read access to protected page"

end FaultCode

/-- an access that was refused, with its address -/
structure UserFault where
  va : VirtualAddress
  code : FaultCode
  deriving DecidableEq, Inhabited

def UserFault.message (f : UserFault) : String :=
  f.code.explain ++ " at " ++ f.va.text ++ ": " ++ f.code.operation ++ " " ++ f.code.problem

end PagedKernel
