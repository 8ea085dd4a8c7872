import TopicReader.Logging.Level
import TopicReader.Pattern.Reader
import TopicReader.Text.Letter
import TopicReader.Text.Utf8

/-! Which events are logged: directives separated by commas, each a level, a target, or a target and
its level. A directive may also ask for a field of the event or for a span around it. -/
namespace TopicReader

/-- Why a text is no filter. A part that would begin or end inside a character cannot even be cut
out. -/
inductive FilterError where
  | badLevel
  | badDirective
  | badPattern (fault : Pattern.Fault)
  | tornCharacter
  deriving DecidableEq, Repr

def FilterError.message : FilterError → String
  | .badLevel =>
    "error parsing level filter: expected one of \"off\", \"error\", \"warn\", " ++
      "\"info\", \"debug\", \"trace\", or a number 0-5"
  | .badDirective => "invalid filter directive"
  | .badPattern fault => "invalid field filter: " ++ fault.message
  | .tornCharacter => "not a char boundary"

/-- A directive without a target holds for all targets. The value of a field, where one is asked
for, can only be that of a span. -/
structure Directive where
  target : Option (List Char) := none
  inSpan : Bool := false
  field : Option (List Char) := none
  level : LogLevel := .trace
  deriving DecidableEq, Repr

namespace Directive

/-- The characters that a target may start with. -/
def mayStart (c : Char) : Bool := Text.isAlphanumeric c || c = '-' || c = ':' || c = '_'

/-- The level behind the equals sign; without one everything is meant. -/
def readLevel (s : List Char) : Except FilterError LogLevel :=
  if s = [] then .ok .trace
  else match LogLevel.ofChars? s with
    | some level => .ok level
    | none => .error .badLevel

/-- The text of a directive with and without the white space around it. Positions are found in the
trimmed text, but what they delimit is cut out of the whole text after as many bytes, so white space
in front shifts every part. -/
structure Cutter where
  whole : List Char
  trimmed : List Char

namespace Cutter

/-- The bytes in front of a position. -/
def offset (t : Cutter) (position : Nat) : Nat :=
  (t.trimmed.take position).foldl (fun n c => n + c.utf8Size) 0

def rest (t : Cutter) (start : Nat) : Except FilterError (List Char) :=
  match Utf8.split? (t.offset start) t.whole with
  | some (_, s) => .ok s
  | none => .error .tornCharacter

def cut (t : Cutter) (start stop : Nat) : Except FilterError (List Char) := do
  match Utf8.split? (t.offset stop - t.offset start) (← t.rest start) with
  | some (s, _) => return s
  | none => throw .tornCharacter

/-- The first position from `start` on whose character passes a test. -/
def find? (t : Cutter) (p : Char → Bool) (start : Nat) : Option Nat :=
  ((t.trimmed.drop start).findIdx? p).map (start + ·)

/-- What follows the brackets of a span: a level or nothing. -/
def afterSpan (t : Cutter) (d : Directive) (start : Nat) : Except FilterError Directive :=
  match t.trimmed[start]? with
  | none => .ok d
  | some '=' => do return { d with level := ← readLevel (← t.rest (start + 1)) }
  | some _ => .error .badDirective

/-- A field in braces, and the bracket that closes its span. A field with a value belongs to the
span itself. -/
def field (t : Cutter) (d : Directive) (start : Nat) : Except FilterError Directive :=
  match t.find? (· = '\x7d') start with
  | none => .error .badDirective
  | some stop => do
    let text ← t.cut start stop
    if text = [] then throw .badDirective
    let value? := (text.splitOn '=')[1]?
    if let some fault := value?.bind Pattern.fault? then throw (.badPattern fault)
    if t.trimmed[stop + 1]? ≠ some ']' then throw .badDirective
    t.afterSpan (if value?.isSome then { d with inSpan := true } else { d with field := some text })
      (stop + 2)

def span (t : Cutter) (d : Directive) (start : Nat) : Except FilterError Directive :=
  match t.find? (fun c => c = ']' || c = '\x7b') start with
  | none => .error .badDirective
  | some stop => do
    let name ← t.cut start stop
    if t.trimmed[stop]? = some ']' then t.afterSpan { d with inSpan := true } (stop + 1)
    else t.field { d with inSpan := name ≠ [] } (stop + 1)

end Cutter

def read (whole : List Char) : Except FilterError Directive :=
  let t : Cutter := { whole, trimmed := Text.trim whole }
  match t.trimmed with
  | [] => .error .badDirective
  | '[' :: _ => t.span {} 1
  | c :: _ =>
    if mayStart c then
      match t.find? (fun c => c = '=' || c = '[') 1 with
      | none =>
        match LogLevel.ofChars? whole with
        | some level => .ok { level }
        | none => .ok { target := some whole }
      | some stop => do
        let d : Directive := { target := some (← t.cut 0 stop) }
        if t.trimmed[stop]? = some '=' then
          return { d with level := ← readLevel (← t.rest (stop + 1)) }
        else t.span d (stop + 1)
    else .error .badDirective

/-- Whether a directive decides about an event. One that asks for a span decides about none, as no
event of the program lies in a span. -/
def covers (d : Directive) (target : List Char) (fields : List String) : Bool :=
  !d.inSpan && (d.target.all (·.isPrefixOf target)) &&
    d.field.all fun name => fields.contains (String.ofList name)

/-- A directive with a longer target goes before one with a shorter target, and at the same target
one that asks for a field before one that asks for none. Of equals the second goes first. -/
def yields (a b : Directive) : Bool :=
  let length (d : Directive) := (d.target.map (·.length + 1)).getD 0
  let field (d : Directive) := (d.field.map String.ofList).getD ""
  length a < length b || (length a = length b && decide (field a ≤ field b))

end Directive

structure Filter where
  directives : List Directive
  deriving DecidableEq, Repr

namespace Filter

/-- Empty parts say nothing, and a text of nothing else asks for errors alone. -/
def read (text : String) : Except FilterError Filter :=
  match (text.toList.splitOn ',').filter (· ≠ []) with
  | [] => .ok ⟨[{ level := .error }]⟩
  | parts => (parts.mapM Directive.read).map Filter.mk

/-- The directive that decides about an event. -/
def deciding? (f : Filter) (target : String) (fields : List String) : Option Directive :=
  (f.directives.filter (·.covers target.toList fields)).foldl (fun best d =>
    match best with
    | some b => if b.yields d then some d else some b
    | none => some d) none

def enables (f : Filter) (level : LogLevel) (target : String) (fields : List String) : Bool :=
  (f.deciding? target fields).any fun d => level.rank ≤ d.level.rank

end Filter
end TopicReader
