/-!
# Log records

What an operation reports beside its result. A record is a value, so an
operation's records are as open to statements as its result.
-/

set_option autoImplicit false

namespace PageLookup

inductive Level where
  | trace
  | debug
  deriving DecidableEq, Repr

def Level.name : Level → String
  | .trace => "TRACE"
  | .debug => "DEBUG"

structure Record where
  level : Level
  target : String
  text : String
  deriving DecidableEq, Repr

def Record.line (r : Record) : String :=
  s!"{r.level.name} {r.target}: {r.text}"

end PageLookup
