import PagedKernel.Simulation.Run

/-!
# The command line

`kernel-sim [PROGRAM] [--steps N] [--memory BYTES] [--verbose]` runs one demonstration program, or
all of them, and reports what came of it.

* `Options.parse`   the options of a command line, or why they are refused
* `Command.run`     what the command writes, and its exit code
-/

namespace PagedKernel

/-- why a command line is refused -/
inductive OptionsError where
  | unknownOption (option : String)
  | missingValue (option : String)
  | badNumber (text : String)
  | unknownProgram (name : String)
  deriving DecidableEq

def OptionsError.message : OptionsError → String
  | unknownOption option => "unknown option `" ++ option ++ "`"
  | missingValue option => "option `" ++ option ++ "` needs a value"
  | badNumber text => "invalid number `" ++ text ++ "`"
  | unknownProgram name =>
    "unknown program `" ++ name ++ "` (try allocator, forker or exiter)"

/-- the value of a digit, of either case -/
def digitValue? (c : Char) : Option Nat :=
  if '0' ≤ c ∧ c ≤ '9' then some (c.toNat - '0'.toNat)
  else if 'a' ≤ c ∧ c ≤ 'f' then some (c.toNat - 'a'.toNat + 10)
  else if 'A' ≤ c ∧ c ≤ 'F' then some (c.toNat - 'A'.toNat + 10)
  else none

/-- continue a number with the digits of a base -/
def digits? (base : Nat) : List Char → Nat → Option Nat
  | [], n => some n
  | c :: rest, n =>
    match digitValue? c with
    | some d => if d < base then digits? base rest (n * base + d) else none
    | none => none

/-- a 64-bit number: at least one digit, and a plus sign may come before it -/
def word? (base : Nat) (cs : List Char) : Option UInt64 :=
  let digits := if cs.head? = some '+' then cs.tail else cs
  if digits.isEmpty then none
  else
    match digits? base digits 0 with
    | some n => if n < 0x10000000000000000 then some (UInt64.ofNat n) else none
    | none => none

/-- a 64-bit number as an option value: hexadecimal after `0x`, and decimal otherwise -/
def numberOption? (text : String) : Option UInt64 :=
  match text.toList with
  | '0' :: 'x' :: rest => word? 16 rest
  | cs => word? 10 cs

/-- what a command line asks for -/
structure Options where
  program : Option DemoProgram := none
  steps : UInt64 := 2000
  /-- bytes of physical memory -/
  memory : Option UInt64 := none
  verbose : Bool := false
  deriving DecidableEq, Inhabited

namespace Options

/-- the number after `option` -/
def number (option : String) (value : Option String) : Except OptionsError UInt64 :=
  match value with
  | none => .error (.missingValue option)
  | some text =>
    match numberOption? text with
    | some n => .ok n
    | none => .error (.badNumber text)

/-- take note of the arguments that are left -/
def parseFrom (o : Options) : List String → Except OptionsError Options
  | [] => .ok o
  | "--steps" :: rest => do
    let steps ← number "--steps" rest.head?
    parseFrom { o with steps } rest.tail
  | "--memory" :: rest => do
    let memory ← number "--memory" rest.head?
    parseFrom { o with memory := some memory } rest.tail
  | arg :: rest =>
    if arg = "-v" ∨ arg = "--verbose" then parseFrom { o with verbose := true } rest
    else if arg.startsWith "-" then .error (.unknownOption arg)
    else
      match DemoProgram.ofName? arg with
      | some program => parseFrom { o with program := some program } rest
      | none => .error (.unknownProgram arg)
termination_by args => args.length
decreasing_by
  all_goals
    simp only [List.length_cons, List.length_tail]
    omega

def parse (args : List String) : Except OptionsError Options :=
  parseFrom {} args

/-- the records that are written -/
def filter (o : Options) : Filter :=
  .upTo (if o.verbose then .debug else .info)

/-- the rounds that an idle kernel waits before the simulation ends -/
def idleRounds : IdleLimit := ⟨64, by decide⟩

def config (o : Options) : KernelConfig :=
  { layout := (o.memory.map Layout.withPhysical).getD {}, idleLimit := some idleRounds }

end Options

/-- what a command writes, and its exit code -/
structure CommandResult where
  code : Nat
  output : String := ""
  errors : String := ""
  deriving DecidableEq, Inhabited

namespace Command

/-- the line for a panic -/
def panicLine (p : Panic) : String :=
  "kernel panicked" ++ ((p.message?.map (": " ++ ·)).getD "") ++ "\n"

/-- run a simulation that has started, and report -/
def finish (o : Options) (s : Simulation) : CommandResult :=
  match Simulation.run o.steps.toNat s with
  | .ok () s =>
    { code := 0, output := s.summary, errors := s.kernel.machine.log.text o.filter }
  | .error (.error halt) s =>
    { code := 1
      output := s.summary
      errors := s.kernel.machine.log.text o.filter ++ "kernel halted: " ++ halt.message ++ "\n" }
  | .error (.panic p) s =>
    { code := 101, errors := s.kernel.machine.log.text o.filter ++ panicLine p }

/-- run the command -/
def run (args : List String) : CommandResult :=
  match Options.parse args with
  | .error e => { code := 2, errors := "kernel-sim: " ++ e.message ++ "\n" }
  | .ok o =>
    match Simulation.boot o.config o.program with
    | .started s => finish o s
    | .halted halt log =>
      { code := 1
        errors := log.text o.filter ++ "kernel halted during boot: " ++ halt.message ++ "\n" }
    | .panicked p log => { code := 101, errors := log.text o.filter ++ panicLine p }

end Command

end PagedKernel
