import TopicReader.Proofs.Json.Regular

/-! Places in a document and in its value. Where an object has several members of one name, the place
of that name is the last of them, and the same place in the value holds the value of what is there. -/
namespace TopicReader.Json

/-- A step from a container to something that it holds. -/
inductive Step where
  | item (index : Nat)
  | member (name : String)

namespace Tree

def child? : Tree → Step → Option Tree
  | .array items, .item index => items[index]?
  | .object members, .member name => members.reverse.lookup name
  | _, _ => none

/-- What stands at a place that is reached step by step. -/
def at? : List Step → Tree → Option Tree
  | [], t => some t
  | step :: path, t => (t.child? step).bind (at? path)

end Tree

namespace Value

def child? : Value → Step → Option Value
  | .array items, .item index => items[index]?
  | .object members, .member name => members.lookup name
  | _, _ => none

def at? : List Step → Value → Option Value
  | [], v => some v
  | step :: path, v => (v.child? step).bind (at? path)

end Value

namespace Tree

variable {t u : Tree} {v : Value} {path : List Step}

theorem item_value {ts : List Tree} {values : List Value} (h : itemValues? ts = some values) :
    ∀ i : Nat, ts[i]?.map value? = values[i]?.map some := by
  induction ts generalizing values with
  | nil =>
    cases h
    simp
  | cons t rest ih =>
    obtain ⟨v, value, vs, more, rfl⟩ := itemValues?_cons.mp h
    intro i
    cases i with
    | zero => simp [value]
    | succ i => simpa using ih more i

theorem member_value {ms : List (String × Tree)} {values : List (String × Value)}
    (h : memberValues? ms = some values) (name : String) :
    (ms.reverse.lookup name).map value? = (values.reverse.lookup name).map some := by
  induction ms generalizing values with
  | nil =>
    cases h
    rfl
  | cons m rest ih =>
    obtain ⟨key, t⟩ := m
    obtain ⟨v, value, vs, more, rfl⟩ := memberValues?_cons.mp h
    rw [List.reverse_cons, List.reverse_cons, List.lookup_append, List.lookup_append, Option.map_or,
      Option.map_or, ih more, lookup_cons_eq, lookup_cons_eq]
    split
    · rw [Option.map_some, Option.map_some, value]
    · rfl

theorem child_value (h : t.value? = some v) (step : Step) :
    (t.child? step).map value? = (v.child? step).map some := by
  cases t with
  | null | bool | text =>
    cases h
    rfl
  | number l =>
    obtain ⟨n, number, rfl⟩ := Option.map_eq_some_iff.mp h
    rfl
  | array items =>
    obtain ⟨values, all, rfl⟩ := Option.map_eq_some_iff.mp h
    cases step with
    | item index => exact item_value all index
    | member name => rfl
  | object members =>
    obtain ⟨values, all, rfl⟩ := Option.map_eq_some_iff.mp h
    cases step with
    | item index => rfl
    | member name =>
      exact (member_value all name).trans (congrArg (·.map some) lookup_insertMembers.symm)

/-- At each place, the value of a document holds the value of what is written there. -/
theorem at_value (h : t.value? = some v) (path : List Step) :
    (t.at? path).map value? = (v.at? path).map some := by
  induction path generalizing t v with
  | nil => simp [at?, Value.at?, h]
  | cons step path ih =>
    have held := child_value h step
    rw [at?, Value.at?]
    cases inside : t.child? step with
    | none =>
      rw [inside] at held
      rw [Option.map_eq_none_iff.mp held.symm]
      rfl
    | some u =>
      rw [inside] at held
      obtain ⟨w, found, value⟩ := Option.map_eq_some_iff.mp held.symm
      rw [found]
      exact ih value.symm

theorem at_eq (h : t.value? = some v) (path : List Step) :
    v.at? path = (t.at? path).bind value? := by
  have held := at_value h path
  cases place : t.at? path with
  | none =>
    rw [place] at held
    exact Option.map_eq_none_iff.mp held.symm
  | some u =>
    rw [place] at held
    obtain ⟨w, found, value⟩ := Option.map_eq_some_iff.mp held.symm
    rw [found]
    exact value

theorem at_number {l : Literal} (h : t.value? = some v) (place : t.at? path = some (.number l)) :
    ∃ n, l.value? = some n ∧ v.at? path = some (.number n) := by
  have held := at_value h path
  rw [place] at held
  obtain ⟨w, found, value⟩ := Option.map_eq_some_iff.mp held.symm
  obtain ⟨n, number, rfl⟩ := Option.map_eq_some_iff.mp value.symm
  exact ⟨n, number, found⟩

end Tree
end TopicReader.Json
