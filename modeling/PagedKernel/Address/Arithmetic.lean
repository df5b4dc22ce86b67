import PagedKernel.Word

/-!
# Sums of addresses

Sums that must stay in the address space, and the pages of a range of addresses.

* `Address.add`, `Page.next`, `Page.join`   panic when they leave the address space
* `Address.add?`                            `none` instead
* `steps start stop`                        `start`, `start + 4096`, … below `stop`
* `VirtualAddress.pagesUntil`               the pages from that of an address up to an end
* `forSteps`, `VirtualAddress.forPages`     do something at each of them, in order
-/

namespace PagedKernel

namespace Address

variable {kind : AddressKind}

/-- the address `n` bytes on -/
def add (a : Address kind) (n : UInt64) : Except Panic (Address kind) := do
  return ⟨← Word.add a.value n⟩

/-- the address `n` bytes on, if there is one -/
def add? (a : Address kind) (n : UInt64) : Option (Address kind) :=
  (a.add n).toOption

/-- the address `n` bytes on, for a distance that need not be a word -/
def advance (a : Address kind) (n : Nat) : Except Panic (Address kind) :=
  if a.value.toNat + n < 0x10000000000000000 then .ok ⟨a.value + UInt64.ofNat n⟩
  else .error .overflow

def isNull (a : Address kind) : Bool :=
  a.value == 0

end Address

namespace Page

variable {kind : AddressKind}

/-- the page that follows -/
def next (p : Page kind) : Except Panic (Page kind) := do
  return (← p.base.add 4096).page

/-- the address `offset` bytes into a page; the offset has to be below the page size -/
def join (p : Page kind) (offset : UInt64) : Except Panic (Address kind) :=
  if offset < 4096 then .ok (p.address offset) else .error .assertion

end Page

/-! ## ranges of pages -/

/-- how many of the words `start`, `start + 4096`, … lie below `stop` -/
def stepCount (start stop : UInt64) : Nat :=
  (stop.toNat - start.toNat + 4095) / 4096

/-- the words `start`, `start + 4096`, … below `stop` -/
def steps (start stop : UInt64) : List UInt64 :=
  (List.range (stepCount start stop)).map fun i => start + 4096 * UInt64.ofNat i

/-- the first addresses of the pages from that of `va` up to `stop`, which is left out -/
def Address.pagesUntil (va stop : VirtualAddress) : List VirtualAddress :=
  (steps va.page.base.value stop.value).map Address.mk

section Loops

variable {m : Type → Type} [Monad m]

/-- do `act` at `n` words from `w` on, each 4096 above the one before.  A wide range costs no more
than the words that are reached before `act` fails. -/
@[specialize]
def forStepsFrom (act : UInt64 → m Unit) (w : UInt64) : Nat → m Unit
  | 0 => pure ()
  | n + 1 => do act w; forStepsFrom act (w + 4096) n

/-- do `act` at each of the words `start`, `start + 4096`, … below `stop` -/
@[specialize]
def forSteps (start stop : UInt64) (act : UInt64 → m Unit) : m Unit :=
  forStepsFrom act start (stepCount start stop)

/-- do `act` at each of the pages from that of `va` up to `stop`, which is left out -/
@[specialize]
def Address.forPages (va stop : VirtualAddress) (act : VirtualAddress → m Unit) : m Unit :=
  forSteps va.page.base.value stop.value fun w => act ⟨w⟩

theorem forStepsFrom_eq (act : UInt64 → m Unit) (w : UInt64) (n : Nat) :
    forStepsFrom act w n
      = ((List.range n).map fun i => w + 4096 * UInt64.ofNat i).forM act := by
  induction n generalizing w with
  | zero => rfl
  | succ n ih =>
    have shift (i : Nat) : w + 4096 + 4096 * UInt64.ofNat i = w + 4096 * UInt64.ofNat (i + 1) := by
      rw [UInt64.ofNat_add, UInt64.mul_add, UInt64.add_assoc, UInt64.add_comm 4096]
      rfl
    have first : w + 4096 * UInt64.ofNat 0 = w := UInt64.add_zero w
    simp only [forStepsFrom, ih, List.range_succ_eq_map, List.map_cons, List.map_map, first,
      Function.comp_def, Nat.succ_eq_add_one, shift]
    rfl

theorem forSteps_eq (start stop : UInt64) (act : UInt64 → m Unit) :
    forSteps start stop act = (steps start stop).forM act :=
  forStepsFrom_eq act start _

end Loops

end PagedKernel
