import TopicReader.Json.Text
import TopicReader.Logging.Filter
import TopicReader.Settings.Connection

/-! What is logged, in which form and where to. -/
namespace TopicReader

/-- An event with its fields, the message among them. -/
structure LogLine where
  level : LogLevel
  target : String
  fields : List (String × String)
  deriving DecidableEq, Repr

namespace LogLine

/-- A line as one JSON object. -/
def json (line : LogLine) : String :=
  let quoted (s : String) := String.ofList (Json.Text.quoted s)
  let field (f : String × String) := quoted f.1 ++ ":" ++ quoted f.2
  "\x7b\"level\":" ++ quoted line.level.name.toUpper ++ ",\"fields\":\x7b" ++
    ",".intercalate (line.fields.map field) ++ "\x7d,\"target\":" ++ quoted line.target ++ "\x7d"

/-- A line for people: the message first, then the other fields by name. -/
def plain (line : LogLine) : String :=
  let field (f : String × String) := if f.1 = "message" then f.2 else f.1 ++ "=" ++ f.2
  " ".intercalate (line.level.name.toUpper :: (line.target ++ ":") :: line.fields.map field)

end LogLine

/-- Lines go to standard error, and to a file as well if there is one. -/
structure LogSetup where
  filter : Filter
  json : Bool
  file : Option String
  deriving DecidableEq, Repr

namespace LogSetup

/-- The environment may name a filter of its own; one that cannot be read is passed over, unless it
cannot even be cut into parts. -/
def filterFor (environment : Environment) (s : LogSettings) : Except FilterError Filter :=
  match (environment.text? "RUST_LOG").map Filter.read with
  | some (.ok filter) => .ok filter
  | some (.error .tornCharacter) => .error .tornCharacter
  | _ => Filter.read s.level

def ofSettings (environment : Environment) (s : LogSettings) : Except FilterError LogSetup :=
  (filterFor environment s).map fun filter => { filter, json := s.json, file := s.file }

def write (s : LogSetup) (line : LogLine) : String := if s.json then line.json else line.plain

def keeps (s : LogSetup) (line : LogLine) : Bool :=
  s.filter.enables line.level line.target (line.fields.map (·.1))

end LogSetup
end TopicReader
