/-!
# Permissions

What a mapping allows: whether it exists, whether it may be written, whether a process may use it.

* `Permissions`         the bits; bits 0, 1 and 2 mean present, writable and user
* `Permissions.inter`   what two sets of permissions both allow
-/

namespace PagedKernel

/-- what a mapping allows, as the low bits of a page-table entry -/
structure Permissions where
  bits : UInt8
  deriving DecidableEq, Inhabited

namespace Permissions

def present (p : Permissions) : Bool := p.bits &&& 1 != 0

def writable (p : Permissions) : Bool := p.bits &&& 2 != 0

/-- whether a process may use the mapping -/
def user (p : Permissions) : Bool := p.bits &&& 4 != 0

/-- the permissions of three flags -/
def of (present writable user : Bool) : Permissions :=
  ⟨(if present then 1 else 0) + (if writable then 2 else 0) + (if user then 4 else 0)⟩

/-- no access at all -/
def none : Permissions := ⟨0⟩

/-- the kernel may read and write -/
def kernelReadWrite : Permissions := ⟨3⟩

/-- processes may read and write -/
def userReadWrite : Permissions := ⟨7⟩

/-- processes may read -/
def userReadOnly : Permissions := ⟨5⟩

/-- what both allow -/
def inter (p q : Permissions) : Permissions := ⟨p.bits &&& q.bits⟩

/-- a letter for each flag that is set, and a dash for each that is not -/
def text (p : Permissions) : String :=
  let flag (set : Bool) (c : Char) := if set then c else '-'
  String.ofList [flag p.present 'P', flag p.writable 'W', flag p.user 'U']

end Permissions

end PagedKernel
