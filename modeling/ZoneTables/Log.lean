/-!
# Log lines

What a run reports beside its result, as values: each line has a severity and
a text, and is printed only by the outer layer.
-/

namespace ZoneTables

inductive Severity where
  | error
  | warn
  | info
  | debug
  | trace
deriving DecidableEq

namespace Severity

def label : Severity → String
  | error => "ERROR"
  | warn => "WARN"
  | info => "INFO"
  | debug => "DEBUG"
  | trace => "TRACE"

def rank : Severity → Nat
  | error => 1
  | warn => 2
  | info => 3
  | debug => 4
  | trace => 5

end Severity

structure LogLine where
  severity : Severity
  text : String
deriving DecidableEq

abbrev Log := List LogLine

namespace Log

def upTo (limit : Severity) (log : Log) : Log :=
  log.filter fun line => line.severity.rank ≤ limit.rank

end Log

end ZoneTables
