import TopicReader.Proofs.Client.Stores
import TopicReader.Proofs.Engine.Reaches

/-! A store in use. Messages are appended, and readers are opened, called and closed, in any order. -/
namespace TopicReader

/-- A reader, and what has been received through it. A reader that was closed is gone. -/
structure Visit where
  topic : String
  partition : Int
  start : Int
  reader : Option LogReader
  received : List Message := []

/-- A message that a reader hands out is received; the reader is kept as it is from then on. -/
def Visit.take (v : Visit) (r : Response LogReader) : Visit :=
  { v with
    reader := some r.reader
    received := match r.delivery with
      | .message m => v.received ++ [m]
      | _ => v.received }

/-- A store that is in use. Its users have a name for each reader. -/
structure Usage where
  store : LogStore
  visits : Nat → Option Visit := fun _ => none

namespace Usage

inductive Call where
  | append (topic : String) (partition : Int) (m : Message)
  | openReader (name : Nat) (topic : String) (partition start : Int)
  | receive (name : Nat)
  | close (name : Nat)

inductive Answer where
  | appended (offset : Int)
  | opened (name : Nat)
  | refused (name : Nat) (error : RunError)
  | delivered (name : Nat) (delivery : Delivery)
  /-- The reader has found nothing and waits. -/
  | silent (name : Nat)
  | closed (name : Nat)

/-- The reader that is called, if one is. -/
def Call.name? : Call → Option Nat
  | .append _ _ _ => none
  | .openReader name _ _ _ | .receive name | .close name => some name

def Answer.name? : Answer → Option Nat
  | .appended _ => none
  | .opened name | .refused name _ | .delivered name _ | .silent name | .closed name => some name

/-- Whether a call grows the log of a partition. -/
def Call.appendsTo (topic : String) (p : Int) : Call → Bool
  | .append u q _ => (u, q) = (topic, p)
  | _ => false

def set (u : Usage) (name : Nat) (v : Visit) : Usage :=
  { u with visits := fun other => if other = name then some v else u.visits other }

/-- A name is given to one reader only, and a reader that was closed cannot be called any more. -/
def step (u : Usage) : Call → Option (Usage × List Answer)
  | .append topic p m =>
    some ({ u with store := u.store.append topic p m },
      [.appended (u.store.logOf topic p).newest])
  | .openReader name topic p start =>
    match u.visits name, LogStore.openReader topic p start u.store with
    | none, (.opened reader, store) =>
      some ({ u with store }.set name { topic, partition := p, start, reader := some reader },
        [.opened name])
    | none, (.failed e, store) => some ({ u with store }, [.refused name e])
    | _, _ => none
  | .receive name => do
    let v ← u.visits name
    let reader ← v.reader
    match u.store.respond reader with
    | some r => return (u.set name (v.take r), [.delivered name r.delivery])
    | none => return (u, [.silent name])
  | .close name => do
    let v ← u.visits name
    let _ ← v.reader
    return ({ u with store := Client.closeReader v.partition u.store }.set name
      { v with reader := none }, [.closed name])

def Moves (u : Usage) (c : Call) (answers : List Answer) (t : Usage) : Prop :=
  u.step c = some (t, answers)

/-- The calls that a store answers. -/
inductive Step (u : Usage) : Call → List Answer → Usage → Prop where
  | appended {topic p m} : Step u (.append topic p m) [.appended (u.store.logOf topic p).newest]
      { u with store := u.store.append topic p m }
  | opened {name topic p start} (free : u.visits name = none)
      (well : u.store.openFailures.contains p = false) :
      Step u (.openReader name topic p start) [.opened name]
        ({ u with store.opened := u.store.opened ++ [(p, start)] }.set name
          { topic, partition := p, start, reader := some ⟨topic, p, start, u.store.version⟩ })
  | refused {name topic p start} (free : u.visits name = none)
      (planted : u.store.openFailures.contains p = true) :
      Step u (.openReader name topic p start)
        [.refused name (.opening p "injected open failure")] u
  | delivered {name v reader m} (visit : u.visits name = some v) (held : v.reader = some reader)
      (first : (u.store.logOf reader.topic reader.partition).from? reader.next = some m) :
      Step u (.receive name) [.delivered name (.message m)]
        (u.set name { v with
          reader := some { reader with next := offsetAfter m.offset, seen := u.store.version }
          received := v.received ++ [m] })
  | silent {name v reader} (visit : u.visits name = some v) (held : v.reader = some reader)
      (nothing : (u.store.logOf reader.topic reader.partition).from? reader.next = none) :
      Step u (.receive name) [.silent name] u
  | closed {name v reader} (visit : u.visits name = some v) (held : v.reader = some reader) :
      Step u (.close name) [.closed name]
        ({ u with store.closed := u.store.closed ++ [v.partition] }.set name { v with reader := none })

variable {u t : Usage} {c : Call} {calls : List Call} {answers as : List Answer} {name : Nat}

/-- These are the cases of a step. -/
theorem moves_iff : Moves u c as t ↔ Step u c as t := by
  unfold Moves
  constructor
  · intro move
    cases c with
    | append topic p m =>
      cases move
      exact .appended
    | openReader name topic p start =>
      simp only [step, LogStore.openReader] at move
      cases free : u.visits name with
      | some v => simp [free] at move
      | none =>
        cases planted : u.store.openFailures.contains p with
        | true =>
          simp only [free, planted, if_true] at move
          cases move
          exact .refused free planted
        | false =>
          simp only [free, planted, Bool.false_eq_true, if_false] at move
          cases move
          exact .opened free planted
    | receive name =>
      simp only [step, Option.bind_eq_bind, Option.bind_eq_some_iff, Option.pure_def] at move
      obtain ⟨v, visit, reader, held, found⟩ := move
      rw [LogStore.respond_eq] at found
      cases first : (u.store.logOf reader.topic reader.partition).from? reader.next with
      | some m =>
        rw [first] at found
        cases found
        exact .delivered visit held first
      | none =>
        rw [first] at found
        cases found
        exact .silent visit held first
    | close name =>
      simp only [step, Option.bind_eq_bind, Option.bind_eq_some_iff, Option.pure_def] at move
      obtain ⟨v, visit, reader, held, same⟩ := move
      cases same
      exact .closed visit held
  · intro step
    cases step with
    | appended => rfl
    | opened free well =>
      simp only [Usage.step, LogStore.openReader, free, well]
      rfl
    | refused free planted =>
      simp only [Usage.step, LogStore.openReader, free, planted]
      rfl
    | delivered visit held first =>
      simp only [Usage.step, visit, Option.bind_eq_bind, Option.bind_some, held,
        LogStore.respond_eq, first]
      rfl
    | silent visit held nothing =>
      simp only [Usage.step, visit, Option.bind_eq_bind, Option.bind_some, held,
        LogStore.respond_eq, nothing]
      rfl
    | closed visit held =>
      simp only [Usage.step, visit, Option.bind_eq_bind, Option.bind_some, held]
      rfl

theorem visits_set_self {v : Visit} : (u.set name v).visits name = some v := if_pos rfl

theorem visits_set {v w : Visit} {other : Nat} (found : (u.set name v).visits other = some w) :
    (other = name ∧ w = v) ∨ u.visits other = some w := by
  simp only [set] at found
  split at found
  · rename_i same
    cases found
    exact .inl ⟨same, rfl⟩
  · exact .inr found

/-- Whether a call or an answer has to do with a reader. Appends have to do with all of them. -/
def concerns (name : Nat) (called : Option Nat) : Bool := called.all (· = name)

theorem concerns_some {other : Nat} : concerns name (some other) = true ↔ other = name := by
  simp [concerns]

/-- An answer goes to the reader that was called. -/
theorem Step.names (step : Step u c as t) : ∀ a ∈ as, a.name? = c.name? := by
  cases step <;> simp [Answer.name?, Call.name?]

end Usage
end TopicReader
