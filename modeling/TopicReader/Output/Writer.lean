import TopicReader.RunError

/-! Writers: what takes bytes, call by call, and the pipe, which is one of them. -/
namespace TopicReader

/-- What a writer answers when it is given bytes: how many of them it took, or that it took none. -/
inductive WriterAnswer where
  | took (count : Nat)
  | interrupted
  | failed (error : OutputError)

/-- The type of writers `ω`. A call may take less than it is given. One that is interrupted may be made
again, and a writer is interrupted only so often before it answers otherwise. -/
class Writer (ω : Type) where
  write : Bytes → StateM ω WriterAnswer
  flush : ExceptT OutputError (StateM ω) Unit
  patience : ω → Nat
  took_le {bytes : Bytes} {w next : ω} {count : Nat} :
    (write bytes).run w = (.took count, next) → count ≤ bytes.length
  interrupted_lt {bytes : Bytes} {w next : ω} :
    (write bytes).run w = (.interrupted, next) → patience next < patience w

namespace Writer

variable {ω : Type} [Writer ω]

/-- The error of a writer that takes nothing and does not say why. -/
def stuck : OutputError := ⟨.other, "failed to write whole buffer"⟩

/-- Calls a writer until it has taken all bytes or fails. -/
def give (bytes : Bytes) (w : ω) : Except OutputError Unit × ω :=
  if bytes = [] then (.ok (), w)
  else match answer : (write bytes).run w with
    | (.took 0, next) => (.error stuck, next)
    | (.took (count + 1), next) => give (bytes.drop (count + 1)) next
    | (.interrupted, next) => give bytes next
    | (.failed e, next) => (.error e, next)
termination_by (bytes.length, patience w)
decreasing_by
  · have some := took_le answer
    rw [List.length_drop]
    exact Prod.Lex.left _ _ (by omega)
  · exact Prod.Lex.right _ (interrupted_lt answer)

def writeAll (bytes : Bytes) : ExceptT OutputError (StateM ω) Unit := fun w => give bytes w

def writeEach : List Bytes → ExceptT OutputError (StateM ω) Unit
  | [] => pure ()
  | bytes :: rest => do
    writeAll bytes
    writeEach rest

end Writer

/-- A pipe that takes bytes until its room is used up, if it has a limit. -/
structure Pipe where
  room : Option Nat := none
  flushable : Bool := true
  written : Bytes := []
  flushes : Nat := 0

namespace Pipe

def closed : OutputError := ⟨.brokenPipe, "closed"⟩
def unflushed : OutputError := ⟨.other, "flush failed"⟩

/-- The bytes that fit. -/
def fitting (p : Pipe) (bytes : Bytes) : Bytes :=
  match p.room with
  | none => bytes
  | some room => bytes.take room

def receive (p : Pipe) (bytes : Bytes) : Pipe :=
  { p with written := p.written ++ p.fitting bytes, room := p.room.map (· - bytes.length) }

/-- Takes what fits. A pipe without room fails. -/
def write (bytes : Bytes) : StateM Pipe WriterAnswer := do
  let p ← get
  if p.room = some 0 then return .failed closed
  set (p.receive bytes)
  return .took (p.fitting bytes).length

def flush : ExceptT OutputError (StateM Pipe) Unit := do
  let p ← get
  if p.flushable then set { p with flushes := p.flushes + 1 } else throw unflushed

theorem write_run (p : Pipe) (bytes : Bytes) :
    (write bytes).run p =
      if p.room = some 0 then (.failed closed, p)
      else (.took (p.fitting bytes).length, p.receive bytes) := by
  by_cases full : p.room = some 0
  · simp [write, full]
    rfl
  · simp [write, full]
    rfl

theorem length_fitting_le (p : Pipe) (bytes : Bytes) : (p.fitting bytes).length ≤ bytes.length := by
  unfold fitting
  cases p.room with
  | none => exact Nat.le_refl _
  | some room => exact List.length_take_le' _ _

instance : Writer Pipe where
  write := write
  flush := flush
  patience _ := 0
  took_le {bytes w next count} answer := by
    rw [write_run] at answer
    split at answer
    · cases answer
    · cases answer
      exact length_fitting_le w bytes
  interrupted_lt {bytes w next} answer := by
    rw [write_run] at answer
    split at answer <;> cases answer

end Pipe
end TopicReader
