/-!
# The log

What the kernel reports while it runs, as records of a severity, the place that reports and a
message.

* `Record.line`       the line a record is written as
* `Filter.admits`     whether records of a severity are written
* `Log`               the records of a computation, the newest last
-/

namespace PagedKernel

inductive Severity where
  | error
  | warn
  | info
  | debug
  | trace
  deriving DecidableEq, Inhabited

namespace Severity

def name : Severity → String
  | error => "ERROR"
  | warn => "WARN"
  | info => "INFO"
  | debug => "DEBUG"
  | trace => "TRACE"

/-- the rank of a severity; the gravest has rank one -/
def rank : Severity → Nat
  | error => 1
  | warn => 2
  | info => 3
  | debug => 4
  | trace => 5

end Severity

/-- the records that are written: those up to a severity, or none -/
inductive Filter where
  | off
  | upTo (least : Severity)
  deriving DecidableEq, Inhabited

def Filter.admits : Filter → Severity → Bool
  | off, _ => false
  | upTo least, severity => severity.rank ≤ least.rank

/-- one report -/
structure Record where
  severity : Severity
  /-- the part of the system that reports -/
  target : String
  message : String
  deriving DecidableEq, Inhabited

/-- the line a record is written as, with its line end -/
def Record.line (r : Record) : String :=
  "[" ++ r.severity.name ++ "] " ++ r.target ++ ": " ++ r.message ++ "\n"

/-- the records of a computation, the newest last -/
abbrev Log := Array Record

/-- the lines of the records that `filter` admits -/
def Log.text (filter : Filter) (log : Log) : String :=
  log.foldl (fun out r => if filter.admits r.severity then out ++ r.line else out) ""

end PagedKernel
