import TopicReader.Json.Number
import TopicReader.Json.Text

/-! Documents read into values. Containers nest to a fixed depth, and white space may stand around
every token. -/
namespace TopicReader.Json

def skipSpace (s : Bytes) : Bytes := s.dropWhile isSpace

def malformed {α : Type} (rest : Bytes) : Except Failure (α × Bytes) :=
  .error ⟨.malformed, rest.length⟩

/-- A value that holds no other values. -/
def readScalar (s : Bytes) : Except Failure (Value × Bytes) :=
  match s with
  | 0x22 :: rest => (Text.content rest).map fun (t, rest) => (.text t, rest)
  | 0x74 :: 0x72 :: 0x75 :: 0x65 :: rest => .ok (.bool true, rest)
  | 0x66 :: 0x61 :: 0x6C :: 0x73 :: 0x65 :: rest => .ok (.bool false, rest)
  | 0x6E :: 0x75 :: 0x6C :: 0x6C :: rest => .ok (.null, rest)
  | s => (Number.read s).map fun (n, rest) => (.number n, rest)

/-- Items up to the closing bracket, one or more; `done` holds the ones before, in reverse. Each
takes at least one byte, so the length of the text bounds their number. -/
def readItems (item : Bytes → Except Failure (Value × Bytes)) :
    Nat → List Value → Bytes → Except Failure (List Value × Bytes)
  | 0, _, s => malformed s
  | n + 1, done, s => do
    let (v, rest) ← item s
    match skipSpace rest with
    | 0x2C :: rest => readItems item n (v :: done) rest
    | 0x5D :: rest => .ok ((v :: done).reverse, rest)
    | rest => malformed rest

/-- Members up to the closing brace, one or more; `done` holds the ones before. -/
def readMembers (item : Bytes → Except Failure (Value × Bytes)) :
    Nat → List (String × Value) → Bytes → Except Failure (List (String × Value) × Bytes)
  | 0, _, s => malformed s
  | n + 1, done, s =>
    match skipSpace s with
    | 0x22 :: rest => do
      let (name, rest) ← Text.content rest
      match skipSpace rest with
      | 0x3A :: rest =>
        let (v, rest) ← item rest
        let done := insertMember name v done
        match skipSpace rest with
        | 0x2C :: rest => readMembers item n done rest
        | 0x7D :: rest => .ok (done, rest)
        | rest => malformed rest
      | rest => malformed rest
    | rest => malformed rest

/-- A value in which containers nest at most `depth` deep. -/
def readValue : Nat → Bytes → Except Failure (Value × Bytes)
  | 0, s =>
    match skipSpace s with
    | 0x5B :: rest | 0x7B :: rest => .error ⟨.recursionLimit, rest.length⟩
    | s => readScalar s
  | depth + 1, s =>
    match skipSpace s with
    | 0x5B :: rest =>
      match skipSpace rest with
      | 0x5D :: rest => .ok (.array [], rest)
      | rest => (readItems (readValue depth) rest.length [] rest).map
          fun (items, rest) => (.array items, rest)
    | 0x7B :: rest =>
      match skipSpace rest with
      | 0x7D :: rest => .ok (.object [], rest)
      | rest => (readMembers (readValue depth) rest.length [] rest).map
          fun (members, rest) => (.object members, rest)
    | s => readScalar s

/-- How deep containers may nest. -/
def depthLimit : Nat := 127

/-- The one value of a document. -/
def readDocument (s : Bytes) : Except Failure Value := do
  let (v, rest) ← readValue depthLimit s
  match skipSpace rest with
  | [] => .ok v
  | rest => .error ⟨.malformed, rest.length⟩

end TopicReader.Json
