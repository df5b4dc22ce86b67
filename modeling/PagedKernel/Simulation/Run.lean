import PagedKernel.Kernel.Boot
import PagedKernel.Kernel.Entry
import PagedKernel.Simulation.Task

/-!
# Simulations

The kernel together with the demonstration programs that run on it.  The running program acts; a
system call or a refused access enters the kernel, and every few steps the timer does.

* `Simulation`           the kernel, the programs of its processes, and how far it has come
* `Simulation.boot`      starts a kernel with one program, or with all of them
* `Simulation.step`      one step
* `Simulation.run`       steps until nothing can run, or a number of steps is reached
* `Simulation.summary`   what there is to report at the end
-/

namespace PagedKernel

/-- the steps from one timer interrupt to the next -/
def timerInterval : Nat := 8

/-- a kernel and the programs that run on it -/
structure Simulation where
  kernel : Kernel := {}
  /-- the programs of the processes, by pid -/
  tasks : Vector (Option Task) slotCount := Vector.replicate slotCount none
  steps : Nat := 0
  /-- whether nothing could run any more -/
  isIdle : Bool := false
  deriving Inhabited

namespace Simulation

/-- an entry into the kernel -/
@[always_inline, inline]
def onKernel {ε α : Type} (x : EStateM ε Kernel α) : EStateM ε Simulation α :=
  Action.within Simulation.kernel (fun kernel s => { s with kernel }) x

/-- the program of a process -/
def task? (s : Simulation) (pid : Pid) : Option Task :=
  (s.tasks[pid]?).join

/-- change the program of a process -/
def setTask (s : Simulation) (pid : Pid) (task : Option Task) : Simulation :=
  { s with tasks := s.tasks.setIfInBounds pid task }

/-- give the process that a fork made the program of its parent -/
def adoptChild (parent : Pid) : Action Simulation Unit := do
  let child := (← onKernel (Kernel.process parent)).registers.rax.toNat
  modify fun s => s.setTask child ((s.task? parent).map Task.forkedChild)

/-- the timer interrupts `registers` -/
def timer (registers : Registers) : Attempt Simulation Halt Dispatch :=
  onKernel (Kernel.exception (registers.withTrap Trap.timerVector 0))

/-- a process stores a byte; if that is refused the kernel gets control -/
def storeByte (pid : Pid) (registers : Registers) (va : VirtualAddress) (byte : UInt8) :
    Attempt Simulation Halt Dispatch := do
  match ← Attempt.outcome (onKernel (Kernel.writeUser pid va ⟨#[byte]⟩)) with
  | .ok () => return .run pid
  | .error fault =>
    modify fun s =>
      { s with kernel := { s.kernel with
          host := { s.kernel.host with faultAddress := fault.va } } }
    onKernel (Kernel.exception (registers.withTrap Trap.pageFaultVector fault.code.bits))

/-- a process makes a system call -/
def makeCall (pid : Pid) (registers : Registers) (call : CallNumber) (argument : UInt64) :
    Attempt Simulation Halt Dispatch := do
  let dispatch ← onKernel (Kernel.syscall (registers.withCall call.value argument))
  if call = .fork then adoptChild pid
  if call = .exit then modify fun s => s.setTask pid none
  return dispatch

/-- the running process acts -/
def act (pid : Pid) (registers : Registers) : Attempt Simulation Halt Dispatch := do
  match (← get).task? pid with
  | none => timer registers
  | some task =>
    let (action, task) := (task.resume registers.rax).step (UInt64.ofNat pid)
    modify fun s => s.setTask pid (some task)
    match action with
    | .store va byte => storeByte pid registers va byte
    | .call call argument => makeCall pid registers call argument

/-- one step; says whether there is another -/
def step : Attempt Simulation Halt Bool := do
  modify fun s => { s with steps := s.steps + 1 }
  let s ← get
  match s.kernel.host.running? with
  | none => return false
  | some (pid, registers, _) =>
    let dispatch ←
      if s.steps % timerInterval = 0 then timer registers else act pid registers
    if dispatch = .idle then
      let steps := (← get).steps
      onKernel (Kernel.report .info "kernel_sim"
        ("no runnable process left after " ++ toString steps ++ " steps"))
      modify fun s => { s with isIdle := true }
      return false
    else return true

/-- at most `n` steps -/
def run : Nat → Attempt Simulation Halt Unit
  | 0 => return
  | n + 1 => do
    if ← step then run n

/-- the programs that a simulation starts with -/
def started (program : Option DemoProgram) : List DemoProgram :=
  match program with
  | some p => [p]
  | none => DemoProgram.registry.programs.filterMap fun image => DemoProgram.ofName? image.name

/-- give the started programs the first slots -/
def withTasks (kernel : Kernel) (programs : List DemoProgram) : Simulation :=
  (programs.zipIdx 1).foldl (fun s (program, pid) => s.setTask pid (some { program })) { kernel }

/-- what came of starting a simulation -/
inductive Startup where
  | started (s : Simulation)
  /-- the machine stopped; with what was logged -/
  | halted (halt : Halt) (log : Log)
  | panicked (p : Panic) (log : Log)

/-- start a kernel with one program, or with all of them -/
def boot (config : KernelConfig) (program : Option DemoProgram) : Startup :=
  match Kernel.start {} config with
  | .halted halt log => .halted halt log
  | .panicked p log => .panicked p log
  | .started kernel =>
    match Kernel.boot DemoProgram.registry (program.map DemoProgram.name) kernel with
    | .ok _ kernel => .started (withTasks kernel (started program))
    | .error (.error halt) kernel => .halted halt kernel.machine.log
    | .error (.panic p) kernel => .panicked p kernel.machine.log

/-! ## the report -/

/-- `text` with blanks before it, up to a width -/
def padLeft (width : Nat) (text : String) : String :=
  "".pushn ' ' (width - text.length) ++ text

/-- `text` with blanks after it, up to a width -/
def padRight (width : Nat) (text : String) : String :=
  text.pushn ' ' (width - text.length)

/-- the line for a process that is not free -/
def processLine (s : Simulation) (p : Process) : String :=
  let program := ((s.task? p.pid).map fun t => t.program.name).getD "?"
  "process " ++ padLeft 2 (toString p.pid) ++ ": " ++ padRight 9 program ++ " " ++ p.state.name
    ++ "\n"

/-- the line for the last view of memory, if it showed a process -/
def viewLine (s : Simulation) : String :=
  match s.kernel.host.lastView? with
  | some { shown := some pid, mapped, free, .. } =>
    "memshow:   process " ++ toString pid ++ ", " ++ toString mapped ++ " pages mapped, "
      ++ toString free ++ " frames free\n"
  | _ => ""

/-- what there is to report at the end -/
def summary (s : Simulation) : String :=
  let ledger := s.kernel.memory.ledger
  let live := (s.kernel.processes.toList.drop 1).filter fun p => p.state ≠ .free
  "steps:     " ++ toString s.steps ++ (if s.isIdle then " (idle)" else "") ++ "\n"
    ++ "ticks:     " ++ toString s.kernel.ticks.toNat ++ "\n"
    ++ "switches:  " ++ toString s.kernel.host.switches ++ "\n"
    ++ "frames:    " ++ toString ledger.freeCount ++ " of " ++ toString ledger.usableCount
    ++ " free\n"
    ++ s.viewLine
    ++ String.join (live.map s.processLine)

end Simulation

end PagedKernel
