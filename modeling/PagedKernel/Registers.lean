/-!
# Registers

What the processor saves of a process when it enters the kernel, and restores when it returns.

* `Registers.entry`        the state in which a program starts
* `Registers.withCall`     the state in which a process makes a system call
* `Registers.withTrap`     the state in which an interrupt reaches a process
* `Registers.result`       the state with the result of a call
* `Registers.toList`       the registers by name
-/

namespace PagedKernel

/-- the registers of a process that is not running -/
structure Registers where
  rax : UInt64 := 0
  rcx : UInt64 := 0
  rdx : UInt64 := 0
  rbx : UInt64 := 0
  rbp : UInt64 := 0
  rsi : UInt64 := 0
  rdi : UInt64 := 0
  r8 : UInt64 := 0
  r9 : UInt64 := 0
  r10 : UInt64 := 0
  r11 : UInt64 := 0
  r12 : UInt64 := 0
  r13 : UInt64 := 0
  r14 : UInt64 := 0
  r15 : UInt64 := 0
  /-- the interrupt that entered the kernel -/
  intno : UInt64 := 0
  /-- what the processor reports with the interrupt -/
  errcode : UInt64 := 0
  rip : UInt64 := 0
  cs : UInt64 := 0
  rflags : UInt64 := 0
  rsp : UInt64 := 0
  ss : UInt64 := 0
  deriving DecidableEq, Inhabited

namespace Registers

/-- the interrupt of a system call -/
def callVector : UInt64 := 0x80

/-- the result of a call that failed -/
def failed : UInt64 := 0xFFFFFFFFFFFFFFFF

/-- the state in which a program starts at `rip`, with its stack below `rsp` -/
def entry (rip rsp : UInt64) : Registers :=
  { rip, rsp, cs := 0x1B, ss := 0x23, rflags := 0x202 }

/-- the state in which a process makes call `number` -/
def withCall (r : Registers) (number argument : UInt64) : Registers :=
  { r with intno := callVector, errcode := 0, rax := number, rdi := argument }

/-- the state in which interrupt `vector` reaches a process -/
def withTrap (r : Registers) (vector code : UInt64) : Registers :=
  { r with intno := vector, errcode := code }

/-- the state with the result of a call -/
def result (r : Registers) (value : UInt64) : Registers :=
  { r with rax := value }

/-- the registers with their names -/
def toList (r : Registers) : List (String × UInt64) :=
  [("rax", r.rax), ("rcx", r.rcx), ("rdx", r.rdx), ("rbx", r.rbx), ("rbp", r.rbp),
   ("rsi", r.rsi), ("rdi", r.rdi), ("r8", r.r8), ("r9", r.r9), ("r10", r.r10),
   ("r11", r.r11), ("r12", r.r12), ("r13", r.r13), ("r14", r.r14), ("r15", r.r15),
   ("intno", r.intno), ("errcode", r.errcode), ("rip", r.rip), ("cs", r.cs), ("rflags", r.rflags),
   ("rsp", r.rsp), ("ss", r.ss)]

/-- change the register of a name; an unknown name changes nothing -/
def set (r : Registers) (name : String) (v : UInt64) : Registers :=
  match name with
  | "rax" => { r with rax := v }
  | "rcx" => { r with rcx := v }
  | "rdx" => { r with rdx := v }
  | "rbx" => { r with rbx := v }
  | "rbp" => { r with rbp := v }
  | "rsi" => { r with rsi := v }
  | "rdi" => { r with rdi := v }
  | "r8" => { r with r8 := v }
  | "r9" => { r with r9 := v }
  | "r10" => { r with r10 := v }
  | "r11" => { r with r11 := v }
  | "r12" => { r with r12 := v }
  | "r13" => { r with r13 := v }
  | "r14" => { r with r14 := v }
  | "r15" => { r with r15 := v }
  | "intno" => { r with intno := v }
  | "errcode" => { r with errcode := v }
  | "rip" => { r with rip := v }
  | "cs" => { r with cs := v }
  | "rflags" => { r with rflags := v }
  | "rsp" => { r with rsp := v }
  | "ss" => { r with ss := v }
  | _ => r

end Registers

end PagedKernel
