import TopicReader.Text.Decimal
import TopicReader.Text.LetterCase

/-! How much is logged, from nothing to everything. -/
namespace TopicReader

inductive LogLevel where
  | off
  | error
  | warn
  | info
  | debug
  | trace
  deriving DecidableEq, Repr

namespace LogLevel

def all : List LogLevel := [.off, .error, .warn, .info, .debug, .trace]

def name : LogLevel → String
  | .off => "off"
  | .error => "error"
  | .warn => "warn"
  | .info => "info"
  | .debug => "debug"
  | .trace => "trace"

/-- Each level takes in the ones before it. -/
def rank : LogLevel → Nat
  | .off => 0
  | .error => 1
  | .warn => 2
  | .info => 3
  | .debug => 4
  | .trace => 5

/-- A level by its number or by its name in any letter case. -/
def ofChars? (s : List Char) : Option LogLevel :=
  match (Decimal.unsigned? 64 s).bind (all[·]?) with
  | some level => some level
  | none => all.find? (Text.isLowerName ·.name s)

end LogLevel
end TopicReader
