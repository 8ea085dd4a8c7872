import TopicReader.Json.Text
import TopicReader.Message
import TopicReader.Text.Decimal
import TopicReader.Time.Rfc3339

/-! How a record is written: as labelled lines, as its value alone, or as one line of JSON. -/
namespace TopicReader

inductive Layout where
  | text
  | raw
  | json
  deriving DecidableEq, Repr

/-- What the labelled layout shows besides the value. -/
structure Shown where
  key : Bool := false
  timestamp : Bool := false
  headers : Bool := false
  partition : Bool := false
  color : Bool := false
  deriving DecidableEq, Repr

namespace Layout

def all : List Layout := [.text, .raw, .json]

def name : Layout → String
  | .text => "text"
  | .raw => "raw"
  | .json => "json"

def ofName? (s : String) : Option Layout := all.find? (·.name = s)

/-- A label, in bold cyan if colors are wanted. -/
def label (shown : Shown) (s : String) : String :=
  if shown.color then "\x1b[1;36m" ++ s ++ "\x1b[0m" else s

/-- What stands for a field that is missing. -/
def missing : String := "-"

def placeLine (shown : Shown) (r : Record) : String :=
  label shown "Partition:" ++ " " ++ Decimal.text r.partition ++ "  " ++
    label shown "Offset:" ++ " " ++ Decimal.text r.offset ++ "\n"

def headersLine (shown : Shown) (r : Record) : String :=
  label shown "Headers:" ++ " " ++
    ", ".intercalate (r.headers.map fun (name, value) => name ++ "=" ++ value) ++ "\n"

/-- The labelled lines and then the value. A record without headers has no line for them. -/
def labelled (shown : Shown) (r : Record) : String :=
  (if shown.partition then placeLine shown r else "") ++
  (if shown.timestamp then
    label shown "Timestamp:" ++ " " ++ (r.timestamp.map Rfc3339.millis).getD missing ++ "\n"
    else "") ++
  (if shown.key then label shown "Key:" ++ " " ++ r.key.getD missing ++ "\n" else "") ++
  (if shown.headers ∧ r.headers ≠ [] then headersLine shown r else "") ++
  r.value.getD "" ++ "\n"

def quoted (s : String) : String := String.ofList (Json.Text.quoted s)

/-- One member of an object that holds the members before it, in pieces. -/
def member (name : String) (value : List String) : List String := "," :: quoted name :: ":" :: value

def optional (name : String) : Option String → List String
  | none => []
  | some s => member name [quoted s]

def headerObject (header : String × String) : List String :=
  ["\x7b", quoted "key", ":", quoted header.1] ++ member "value" [quoted header.2] ++ ["\x7d"]

def headerArray : List (String × String) → List String
  | [] => ["[", "]"]
  | h :: rest => "[" :: headerObject h ++ rest.flatMap (fun h => "," :: headerObject h) ++ ["]"]

/-- A record as one JSON object, in the pieces in which it is written. What the record does not have
is left out. -/
def object (r : Record) : List String :=
  ["\x7b", quoted "partition", ":", Decimal.text r.partition] ++
    member "offset" [Decimal.text r.offset] ++
    optional "timestamp" (r.timestamp.map Rfc3339.exact) ++
    optional "key" r.key ++ optional "value" r.value ++
    (if r.headers = [] then [] else member "headers" (headerArray r.headers)) ++ ["\x7d"]

/-- The pieces in which a record is written, one after the other. -/
def pieces (layout : Layout) (shown : Shown) (r : Record) : List String :=
  match layout with
  | .text => [labelled shown r]
  | .raw => [r.value.getD "", "\n"]
  | .json => object r ++ ["\n"]

end Layout
end TopicReader
