import PagedKernel.Paging.Fault
import PagedKernel.Process.Errors
import PagedKernel.Syscall

/-!
# Why the machine stops
-/

namespace PagedKernel

/-- why the machine stops -/
inductive Halt where
  /-- the kernel itself made an access that was refused -/
  | kernelPageFault (va : VirtualAddress) (rip : UInt64) (code : FaultCode)
  | unexpectedException (vector code : UInt64)
  | unexpectedSyscall (pid : Pid) (cause : UnknownCall)
  /-- a process asked for it -/
  | panicRequested (pid : Pid) (message : Option String)
  /-- a frame was counted wrongly -/
  | frame (e : FrameError)
  | setup (pid : Pid) (cause : SetupError)
  | notRunnable (pid : Pid)
  /-- a process does not map a page of the kernel as it should -/
  | corruptPageTable (pid : Pid) (va : VirtualAddress)
  | unknownProgram (name : String)
  | tooManyPrograms (count : Nat)
  /-- there was no frame for the first table of the kernel -/
  | bootOutOfMemory
  /-- an operator asked for it -/
  | abortRequested
  deriving DecidableEq

/-- the message of a process that stops the machine, or what stands for it -/
def panicText (message : Option String) : String :=
  message.getD "(no message)"

/-- a fault as it is told in reports: what was attempted, why it was refused, and where -/
def faultText (code : FaultCode) (rip : UInt64) : String :=
  "(" ++ code.operation ++ " " ++ code.problem ++ ", rip=" ++ hex rip.toNat ++ ")"

def Halt.message : Halt → String
  | kernelPageFault va rip code => "kernel page fault on " ++ va.text ++ " " ++ faultText code rip
  | unexpectedException vector code =>
    "unexpected exception " ++ toString vector.toNat ++ " (error code " ++ hex code.toNat ++ ")"
  | unexpectedSyscall pid cause => "process " ++ toString pid ++ ": " ++ cause.message
  | panicRequested pid message =>
    "process " ++ toString pid ++ " requested a panic: " ++ panicText message
  | frame e => "frame accounting violated: " ++ e.message
  | setup pid cause => "cannot set up process " ++ toString pid ++ ": " ++ cause.message
  | notRunnable pid => "process " ++ toString pid ++ " is not runnable"
  | corruptPageTable pid va =>
    "page table of process " ++ toString pid ++ " does not map kernel page " ++ va.text
  | unknownProgram name => "unknown program `" ++ name ++ "`"
  | tooManyPrograms count => toString count ++ " programs do not fit into the process table"
  | bootOutOfMemory => "out of physical memory while building the kernel page table"
  | abortRequested => "abort requested"

end PagedKernel
