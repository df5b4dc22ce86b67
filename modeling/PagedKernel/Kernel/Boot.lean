import PagedKernel.Kernel.Lifecycle
import PagedKernel.Kernel.Schedule
import PagedKernel.Program.Registry

/-!
# Starting the machine

* `Kernel.start`   sets up memory and the kernel's own address space
* `Kernel.boot`    loads programs and runs the first
-/

namespace PagedKernel

/-- what came of starting a kernel -/
inductive Startup where
  | started (k : Kernel)
  /-- the machine stopped; with what was logged -/
  | halted (halt : Halt) (log : Log)
  | panicked (p : Panic) (log : Log)

namespace Kernel

/-- what the kernel's own address space allows at physical address `pa`: nothing in the first page,
so that null is no address, and processes may use the console and all that is not the kernel's -/
def identityPermissions (layout : Layout) (pa : UInt64) : Permissions :=
  if pa = 0 then .none
  else if pa < layout.processStart ∧ pa ≠ layout.console then .kernelReadWrite
  else .userReadWrite

/-- map every frame of memory at the address of its own number -/
def mapIdentity (space : AddressSpace) (layout : Layout) : Action Machine Unit :=
  forSteps 0 layout.physicalSize fun pa =>
    space.mapOrPanic ⟨pa⟩ (Address.mk pa : PhysicalAddress).page (identityPermissions layout pa)

/-- build the kernel's own address space -/
def buildSpace (layout : Layout) : Attempt Machine Halt AddressSpace := do
  let space ← Attempt.orFail (← AddressSpace.allocate) .bootOutOfMemory
  mapIdentity space layout
  let ledger := (← get).ledger
  Machine.record .info "kernel::boot"
    ("kernel page table ready, " ++ toString ledger.freeCount ++ " of " ++ toString ledger.size
      ++ " frames free")
  return space

/-- set up memory and the kernel's own address space; no process is loaded -/
def start (host : Host) (config : KernelConfig) : Startup :=
  match Machine.ofLayout config.layout with
  | .error p => .panicked p #[]
  | .ok machine =>
    match buildSpace config.layout machine with
    | .ok space machine => .started { config, machine, space, host }
    | .error (.error halt) machine => .halted halt machine.log
    | .error (.panic p) machine => .panicked p machine.log

/-- load programs into the slots from `pid` on -/
def setupAll (pid : Pid) : List ProgramImage → Attempt Kernel Halt Unit
  | [] => return
  | image :: later => do
    (setup pid image).onError fun e => do
      report .error "kernel::boot" ("cannot load `" ++ image.name ++ "`: " ++ e.message)
      Attempt.fail (.setup pid e)
    setupAll (pid + 1) later

/-- the programs to load: the one that `command` names, or all of them -/
def chosen (registry : ProgramRegistry) (command : Option String) :
    Except Halt (List ProgramImage) :=
  match command with
  | some name =>
    match registry.get? name with
    | some image => .ok [image]
    | none => .error (.unknownProgram name)
  | none => .ok registry.programs

/-- load programs into the first slots, and run the first of them -/
def boot (registry : ProgramRegistry) (command : Option String) : Attempt Kernel Halt Dispatch := do
  let images ← Attempt.ofResult (chosen registry command)
  if slotCount ≤ images.length then Attempt.fail (.tooManyPrograms images.length)
  setupAll 1 images
  run 1

/-- take the log that has been written so far -/
def takeLog (k : Kernel) : Log × Kernel :=
  (k.machine.log, { k with machine := { k.machine with log := #[] } })

end Kernel

end PagedKernel
