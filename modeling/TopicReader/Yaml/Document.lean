import TopicReader.Yaml.Node
import TopicReader.Yaml.Scan

/-! A stream with at most one document. -/
namespace TopicReader.Yaml

structure Document where
  root : Node

namespace Node

mutual

/-- The anchored nodes inside a node, itself among them, in the order in which they start. -/
def anchored : Node → List (Nat × Node)
  | .alias _ => []
  | n@(.scalar p _ _) => (p.anchor.map (·, n)).toList
  | n@(.sequence p items) => (p.anchor.map (·, n)).toList ++ anchoredItems items
  | n@(.mapping p entries) => (p.anchor.map (·, n)).toList ++ anchoredEntries entries

def anchoredItems : List Node → List (Nat × Node)
  | [] => []
  | n :: rest => anchored n ++ anchoredItems rest

def anchoredEntries : List (Node × Node) → List (Nat × Node)
  | [] => []
  | (k, v) :: rest => anchored k ++ anchored v ++ anchoredEntries rest

end

end Node

namespace Document

/-- The node that an alias stands for; of several with one number, the last. -/
def follow (d : Document) : Node → Option Node
  | .alias number => d.root.anchored.reverse.lookup number
  | n => some n

/-- What the directives in front of a document set. Handles that are redefined hide the standard
ones, and nothing may be set twice. -/
structure Directives where
  version : Bool := false
  handles : Node.Handles := []

def directives : Directives → List Token → Option (Directives × List Token)
  | d, .version major minor :: rest =>
    if d.version ∨ major ≠ 1 ∨ (minor ≠ 1 ∧ minor ≠ 2) then none
    else directives { d with version := true } rest
  | d, .tagDirective handle start :: rest =>
    if (d.handles.lookup handle).isSome then none
    else directives { d with handles := (handle, start) :: d.handles } rest
  | d, rest => some (d, rest)

def isDirective : Token → Bool
  | .version .. | .tagDirective .. => true
  | _ => false

/-- Reads a node with all tokens in view; a node takes no more than a few steps for each. -/
def readNode (handles : Node.Handles) (tokens : List Token) : Option (Node × List Token) :=
  ((Node.read handles (4 * tokens.length + 4) true false).run { tokens }).map fun (n, r) =>
    (n, r.tokens)

/-- Reads the first document. One that starts with a border may be empty, and directives have to be
followed by such a border. -/
def first (tokens : List Token) : Option (Node × List Token) := do
  let (d, rest) ← directives {} tokens
  match rest with
  | .documentStart :: rest =>
    if rest.head?.all fun t => isDirective t || t = .documentStart || t = .documentEnd then
      return (Node.empty, rest)
    else readNode (d.handles ++ Node.Handles.standard) rest
  | _ => if rest.length < tokens.length then none else readNode Node.Handles.standard tokens

/-- The document of a stream. An empty stream has none; more than one, or anything else but borders
behind the first, is refused. -/
def ofTokens? (tokens : List Token) : Option (Option Document) :=
  if tokens = [] then some none
  else
    match first tokens with
    | some (root, rest) => if rest.all (· = .documentEnd) then some (some { root }) else none
    | none => none

def ofString? (s : String) : Option (Option Document) :=
  (Source.ofString? s).bind fun source => source.tokens?.bind ofTokens?

end Document
end TopicReader.Yaml
