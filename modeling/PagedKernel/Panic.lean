import PagedKernel.Paging.Level

/-!
# Panics

A computation may meet a state that its author excluded: a sum that leaves the 64-bit range, an
index outside its table.  It then stops without an answer.  That is a panic, and it is kept apart
from the errors that a caller can handle.

* `MapError`         why a mapping could not be installed
* `Panic`            why a computation stopped without an answer
* `Panic.message?`   the text of a panic, if it has one
-/

namespace PagedKernel

/-- why a mapping could not be installed -/
inductive MapError where
  /-- no frame was left for the table of `level` that `va` needs -/
  | outOfMemory (va : VirtualAddress) (level : Level)
  deriving DecidableEq

def MapError.message : MapError → String
  | outOfMemory va level =>
    "out of memory allocating a " ++ level.name ++ " table while mapping " ++ va.text

/-- why a computation stopped without an answer -/
inductive Panic where
  /-- a sum or a difference left the 64-bit range -/
  | overflow
  /-- a condition that the caller promised does not hold -/
  | assertion
  /-- an index outside its table, or an address outside memory -/
  | outOfRange
  /-- a mapping that has to succeed failed -/
  | mapping (va : VirtualAddress) (cause : MapError)
  /-- an idle loop that nothing can end -/
  | endless
  deriving DecidableEq

instance : Inhabited Panic := ⟨.assertion⟩

/-- the text of a panic that has one -/
def Panic.message? : Panic → Option String
  | mapping va cause => some ("mapping " ++ va.text ++ " failed: " ++ cause.message)
  | _ => none

end PagedKernel
