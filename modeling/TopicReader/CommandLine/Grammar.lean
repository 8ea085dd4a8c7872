/-! Reading the arguments of one command. An option takes effect when the next one starts or when
the arguments end, not when its value is read: of two faults, one in the value of an option and one
in the name of the next, the second is reported. -/
namespace TopicReader.CommandLine

/-- The ways in which reading ends without an order to carry out. -/
inductive Refusal where
  | unknownArgument
  | unknownCommand
  | badChoice
  | badValue
  | repeated
  | unexpectedValue
  | missingArgument
  | missingCommand
  | helpAsked
  | helpNeeded
  | versionAsked
  deriving DecidableEq, Repr

/-- Help and version are answers that were asked for; anything else is a misuse. -/
def Refusal.status : Refusal → UInt8
  | .helpAsked | .versionAsked => 0
  | _ => 2

/-- The shape of a single argument: the end of the options, a long option with or without a value
attached, a cluster of short options, or a plain word. -/
inductive Word where
  | escape
  | long (name : List Char) (value : Option (List Char))
  | short (letters : List Char)
  | plain
  deriving DecidableEq, Repr

/-- A lone dash is a plain word. -/
def Word.ofChars : List Char → Word
  | ['-', '-'] => .escape
  | '-' :: '-' :: s => .long (s.takeWhile (· ≠ '=')) (s.dropWhile (· ≠ '=')).tail?
  | '-' :: c :: s => .short (c :: s)
  | _ => .plain

/-- What an option takes: nothing, one value, or values separated by commas that add up when the
option is given again. -/
inductive Takes where
  | nothing
  | value
  | list
  deriving DecidableEq, Repr

/-- An option, known by a long name and perhaps by a letter. -/
structure Switch (ι : Type) where
  id : ι
  long : String
  letter : Option Char
  takes : Takes

/-- The options of a command, what each does to the value that is being built, what a positional
argument does to it if the command has one, and the commands below it. -/
structure Grammar (ι α : Type) where
  switches : List (Switch ι)
  apply : ι → List String → α → Except Refusal α
  positional : Option (String → α → α) := none
  commands : List String := []

/-- What has been read so far. The pending option has not taken effect; without a value it still
waits for one. -/
structure Reading (ι α : Type) where
  value : α
  seen : List ι := []
  pending : Option (Switch ι × Option String) := none
  positioned : Bool := false

variable {ι α : Type}

/-- The values of an option as they are given, one or many to a word. -/
def Takes.values : Takes → String → List String
  | .list, s => (s.toList.splitOn ',').map String.ofList
  | _, s => [s]

namespace Reading

variable [DecidableEq ι]

/-- Lets an option take effect. Only a list may be given twice. -/
def occur (g : Grammar ι α) (r : Reading ι α) (s : Switch ι) (values : List String) :
    Except Refusal (Reading ι α) := do
  if s.id ∈ r.seen ∧ s.takes ≠ .list then throw .repeated
  return { r with value := ← g.apply s.id values r.value, seen := s.id :: r.seen }

def settle (g : Grammar ι α) (r : Reading ι α) : Except Refusal (Reading ι α) :=
  match r.pending with
  | none => .ok r
  | some (_, none) => .error .badChoice
  | some (s, some text) => occur g { r with pending := none } s (s.takes.values text)

/-- Starts an option: one that has all it takes has its effect at once, one that lacks its value
waits. -/
def start (g : Grammar ι α) (r : Reading ι α) (s : Switch ι) (attached : Option String) :
    Except Refusal (Reading ι α) := do
  match s.takes, attached with
  | .nothing, some _ => throw .unexpectedValue
  | .nothing, none => (← r.settle g).occur g s []
  | takes, some text => (← r.settle g).occur g s (takes.values text)
  | _, none => return { ← r.settle g with pending := some (s, none) }

def long (g : Grammar ι α) (r : Reading ι α) (name : List Char) (attached : Option (List Char)) :
    Except Refusal (Reading ι α) :=
  match g.switches.find? (·.long.toList = name) with
  | none => .error .unknownArgument
  | some s => r.start g s (attached.map String.ofList)

/-- The rest of a cluster is the value of the first letter in it that takes one; an equals sign
before that value is not part of it. -/
def short (g : Grammar ι α) (r : Reading ι α) : List Char → Except Refusal (Reading ι α)
  | [] => .ok r
  | c :: rest =>
    match g.switches.find? (·.letter = some c) with
    | none => .error .unknownArgument
    | some s =>
      match s.takes, rest with
      | .nothing, _ => do (← r.start g s none).short g rest
      | _, [] => r.start g s none
      | _, '=' :: text => r.start g s (some (String.ofList text))
      | _, text => r.start g s (some (String.ofList text))

/-- The option that waits for its value, unless no more options may follow. -/
def awaiting? (r : Reading ι α) : Option (Switch ι) :=
  match r.pending with
  | some (s, none) => some s
  | _ => none

/-- A word that is neither an option nor the value of one. -/
def plain (g : Grammar ι α) (trailing : Bool) (r : Reading ι α) (word : String) :
    Except Refusal (Reading ι α) :=
  match g.positional with
  | some f =>
    if r.positioned then .error .unknownArgument
    else (r.settle g).map fun r => { r with value := f word r.value, positioned := true }
  | none => .error (if trailing ∧ word ∈ g.commands then .unknownArgument else .unknownCommand)

/-- Reads one argument; the flag says whether the end of the options has been passed. -/
def word (g : Grammar ι α) (trailing : Bool) (r : Reading ι α) (text : String) :
    Except Refusal (Bool × Reading ι α) :=
  if trailing then (r.plain g true text).map (true, ·)
  else match Word.ofChars text.toList, r.awaiting? with
    | .escape, _ => .ok (true, r)
    | .long name value, _ => (r.long g name value).map (false, ·)
    | .short letters, _ => (r.short g letters).map (false, ·)
    | .plain, some s => .ok (false, { r with pending := some (s, some text) })
    | .plain, none => (r.plain g false text).map (false, ·)

/-- Reads arguments up to the name of a command, which is given back with what follows it. -/
def words (g : Grammar ι α) : Bool → Reading ι α → List String →
    Except Refusal (Reading ι α × Option (String × List String))
  | _, r, [] => .ok (r, none)
  | trailing, r, text :: rest =>
    if ¬ trailing ∧ r.awaiting?.isNone ∧ text ∈ g.commands then .ok (r, some (text, rest))
    else do
      let (trailing, r) ← r.word g trailing text
      words g trailing r rest

end Reading
end TopicReader.CommandLine
