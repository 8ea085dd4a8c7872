import TopicReader.Output.Layout
import TopicReader.Output.Writer

/-! Where records go: to a writer, which may break, or into memory. -/
namespace TopicReader

/-- The type of sinks `κ`. A record that is not taken ends the run. -/
class Sink (κ : Type) where
  emit : Record → ExceptT OutputError (StateM κ) Unit

/-- Why a record is not written as JSON: the writer failed, or what should be written has no such
form. -/
inductive SerializerError where
  | io (error : OutputError)
  | data (message : String)

/-- The writer's own error is passed on as it is. -/
def SerializerError.output : SerializerError → OutputError
  | .io error => error
  | .data message => ⟨.other, message⟩

/-- A sink that writes records in one layout and flushes the writer after each. The writer is a pipe if
nothing else is said. -/
structure Printer (ω : Type := Pipe) where
  layout : Layout
  shown : Shown := {}
  pipe : ω

namespace Printer

variable {ω : Type} [Writer ω]

/-- Writes a record as JSON, piece by piece. -/
def serialize (r : Record) : ExceptT SerializerError (StateM ω) Unit :=
  (Writer.writeEach ((Layout.object r).map Utf8.encode)).adapt .io

def print (layout : Layout) (shown : Shown) (r : Record) : ExceptT OutputError (StateM ω) Unit := do
  match layout with
  | .json =>
    (serialize r).adapt SerializerError.output
    Writer.writeAll (Utf8.encode "\n")
  | .text | .raw => Writer.writeEach ((layout.pieces shown r).map Utf8.encode)
  Writer.flush

instance : Sink (Printer ω) where
  emit r := fun p =>
    let (result, pipe) := (print p.layout p.shown r).run p.pipe
    (result, { p with pipe })

end Printer

/-- A sink that keeps the records. -/
structure Memory where
  records : List Record := []

instance : Sink Memory where
  emit r := modify fun m => { m with records := m.records ++ [r] }

/-- A sink that breaks after a number of records, if it has a limit. -/
structure Fragile (κ : Type) where
  inner : κ
  left : Option Nat := none

instance {κ : Type} [Sink κ] : Sink (Fragile κ) where
  emit r := fun f =>
    if f.left = some 0 then (.error Pipe.closed, f)
    else match (Sink.emit r).run f.inner with
      | (.ok (), inner) => (.ok (), ⟨inner, f.left.map (· - 1)⟩)
      | (.error e, inner) => (.error e, { f with inner })

end TopicReader
