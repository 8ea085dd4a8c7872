import Mathlib.Tactic.Common
import TopicReader.Client.Script
import TopicReader.Proofs.Client.Calls
import TopicReader.Proofs.Resolution.Failures

/-! The rules for the bound of a partition, and what they cost. A bound takes one question to the
client at most, and the rule that applies says which one. Where a partition begins is said by the
last entry for it, before anything that is said for all partitions. -/
namespace TopicReader

/-- The offset that a position means in a partition with these watermarks. -/
def Position.offset (oldest newest : Int) : Position → Int
  | .exactly n => n
  | .oldest => oldest
  | .newest => newest

/-- How the offset is found that a position means. -/
def Position.find {σ ρ : Type} [Client σ ρ] (topic : String) (p : Int) : Position → Query σ Int
  | .exactly n => pure n
  | .oldest => Client.oldest topic p
  | .newest => Client.newest topic p

namespace Noted

variable {σ α β : Type} {call : Call} {question : Query σ α} {f : α → β} {client : σ}
  {calls : List Call}

/-- What comes of a query that makes one call. A call that fails is the last one, and its error is
that of the query; otherwise the result is made of its answer alone. -/
inductive OneCall (call : Call) (question : Query σ α) (f : α → β) (client : σ) (calls : List Call) :
    Except RunError β × Noted σ → Prop where
  | failed {e : RunError} {client' : σ} (failure : question.run client = (.error e, client')) :
      OneCall call question f client calls (.error e, ⟨client', calls ++ [call]⟩)
  | answered {a : α} {client' : σ} (answer : question.run client = (.ok a, client')) :
      OneCall call question f client calls (.ok (f a), ⟨client', calls ++ [call]⟩)

theorem oneCall_ask :
    OneCall call question f client calls ((f <$> ask call question).run ⟨client, calls⟩) := by
  rw [map_eq_pure_bind, Query.run_bind]
  cases asked : question.run client with
  | mk answer client' =>
    have noted : (ask call question).run ⟨client, calls⟩ = (answer, ⟨client', calls ++ [call]⟩) := by
      change ((question.run client).1, Noted.note _ call (question.run client).2) = _
      rw [asked]
      rfl
    rw [noted]
    cases answer with
    | error e => exact .failed asked
    | ok a => exact .answered asked

end Noted

namespace Request

variable {r : Request} {p : Int} {position : Position}

/-- Where the reading of a partition begins that is not read by its tail. The last entry for the
partition decides, if there is one. -/
inductive BeginsAt (r : Request) (p : Int) : Position → Prop where
  | entry {before after : List Start} {position : Position}
      (entries : r.starts = before ++ ⟨p, position⟩ :: after)
      (last : ∀ s ∈ after, s.partition ≠ p) : BeginsAt r p position
  | beginning (unasked : ∀ s ∈ r.starts, s.partition ≠ p) (all : r.fromBeginning = true) :
      BeginsAt r p .oldest
  | following (unasked : ∀ s ∈ r.starts, s.partition ≠ p) (new : r.fromBeginning = false) :
      BeginsAt r p .newest

theorem position?_eq_some_iff : r.position? p = some position ↔
    ∃ before after, r.starts = before ++ ⟨p, position⟩ :: after ∧ ∀ s ∈ after, s.partition ≠ p := by
  unfold position?
  constructor
  · intro found
    obtain ⟨s, first, rfl⟩ := Option.map_eq_some_iff.mp found
    obtain ⟨own, after, before, reversed, others⟩ := List.find?_eq_some_iff_append.mp first
    obtain rfl : s.partition = p := by simpa using own
    refine ⟨before.reverse, after.reverse, ?_, ?_⟩
    · have entries := congrArg List.reverse reversed
      simpa using entries
    · intro t member
      simpa using others t (List.mem_reverse.mp member)
  · rintro ⟨before, after, entries, last⟩
    have first : r.starts.reverse.find? (·.partition = p) = some ⟨p, position⟩ := by
      refine List.find?_eq_some_iff_append.mpr ⟨by simp, after.reverse, before.reverse, ?_, ?_⟩
      · simp [entries]
      · intro t member
        simpa using last t (List.mem_reverse.mp member)
    rw [first]
    rfl

theorem position?_eq_none_iff : r.position? p = none ↔ ∀ s ∈ r.starts, s.partition ≠ p := by
  simp [position?]

/-- What is said of a partition is enough to know where it begins. -/
theorem beginsAt_iff : r.BeginsAt p position ↔
    (r.position? p).getD (if r.fromBeginning then .oldest else .newest) = position := by
  constructor
  · intro begins
    cases begins with
    | entry entries last =>
      rw [position?_eq_some_iff.mpr ⟨_, _, entries, last⟩]
      rfl
    | beginning unasked all =>
      rw [position?_eq_none_iff.mpr unasked, all]
      rfl
    | following unasked new =>
      rw [position?_eq_none_iff.mpr unasked, new]
      rfl
  · rintro rfl
    cases asked : r.position? p with
    | some position =>
      obtain ⟨before, after, entries, last⟩ := position?_eq_some_iff.mp asked
      exact .entry entries last
    | none =>
      have unasked := position?_eq_none_iff.mp asked
      cases said : r.fromBeginning with
      | true => exact .beginning unasked said
      | false => exact .following unasked said

/-- Which requests are valid. -/
theorem validate_eq_ok_iff : r.validate = .ok () ↔
    (r.exit = true → r.fromBeginning = true ∨ r.starts ≠ []) ∧ r.tail ≠ some 0 ∧
      (r.tail.isSome → r.starts = []) ∧ r.topic ≠ "" := by
  have faultless : r.validate = .ok () ↔ r.fault? = none := by
    unfold validate
    cases r.fault? <;> simp
  rw [faultless, fault?]
  constructor
  · intro none
    split_ifs at none with ending zero both unnamed
    refine ⟨?_, zero, ?_, unnamed⟩
    · intro exit
      by_contra neither
      rw [not_or, not_not] at neither
      exact ending ⟨exit, neither.1, neither.2⟩
    · intro tail
      by_contra some
      exact both ⟨tail, some⟩
  · rintro ⟨ending, positive, alone, named⟩
    rw [if_neg, if_neg positive, if_neg, if_neg named]
    · rintro ⟨tail, some⟩
      exact some (alone tail)
    · rintro ⟨exit, unasked, none⟩
      exact (ending exit).elim unasked fun some => some none

section
variable {σ ρ : Type} [Client σ ρ]

/-- A start whose partition has known watermarks costs nothing. -/
theorem findStart_marked (begins : r.BeginsAt p position) (oldest newest : Int) :
    (r.findStart p (some (oldest, newest)) : Query σ Int) = pure (position.offset oldest newest) := by
  obtain rfl := beginsAt_iff.mp begins
  unfold findStart
  cases r.position? p with
  | none => cases r.fromBeginning <;> rfl
  | some position => cases position <;> rfl

/-- Otherwise it takes the question for the watermark that it is, if it is one. -/
theorem findStart_unmarked (begins : r.BeginsAt p position) :
    (r.findStart p none : Query σ Int) = position.find r.topic p := by
  obtain rfl := beginsAt_iff.mp begins
  unfold findStart
  cases r.position? p with
  | none => cases r.fromBeginning <;> rfl
  | some position => cases position <;> rfl

theorem resolve_invalid {e : RunError} (invalid : r.validate = .error e) :
    (r.resolve p : Query σ Bound) = throw e := by
  unfold resolve
  rw [invalid]

theorem resolve_tailed {count : Nat} (valid : r.validate = .ok ()) (tail : r.tail = some count) :
    (r.resolve p : Query σ Bound) =
      (fun marks => Bound.tail p marks.1 marks.2 count) <$> Client.watermarks r.topic p := by
  unfold resolve
  rw [valid, tail, map_eq_pure_bind]

theorem resolve_ending (valid : r.validate = .ok ()) (direct : r.tail = none)
    (ending : r.exit = true) (begins : r.BeginsAt p position) :
    (r.resolve p : Query σ Bound) =
      (fun marks => ⟨p, position.offset marks.1 marks.2, some (offsetBefore marks.2)⟩) <$>
        Client.watermarks r.topic p := by
  unfold resolve
  rw [valid, direct, map_eq_pure_bind]
  simp only [ending, if_true, findStart_marked begins, pure_bind]

theorem resolve_following (valid : r.validate = .ok ()) (direct : r.tail = none)
    (endless : r.exit = false) :
    (r.resolve p : Query σ Bound) = (fun start => ⟨p, start, none⟩) <$> r.findStart p none := by
  unfold resolve
  rw [valid, direct, map_eq_pure_bind]
  simp only [endless, Bool.false_eq_true, if_false]

end
end Request

/-- A tail starts so many offsets before the newest one, but not before the oldest one. -/
theorem Bound.tail_eq {oldest newest : Int} (p : Int) (count : Nat) (held : leastOffset ≤ oldest)
    (apart : newest - oldest ≤ greatestOffset) :
    Bound.tail p oldest newest count =
      ⟨p, max oldest (newest - count), some (offsetBefore newest)⟩ := by
  have start : max oldest (max leastOffset (newest - min (count : Int) greatestOffset)) =
      max oldest (newest - count) := by omega
  rw [Bound.tail, start]

section
variable {σ ρ : Type} [Client σ ρ]

open Noted (OneCall)

/-- The bound of a partition follows the rules, in their order, with one call or none. Offsets are
counted in words, so that the end before the least word is the greatest one. -/
theorem resolved_by_rules (r : Request) (p : Int) (client : σ) (calls : List Call) :
    (r.validate = .ok () ↔ (r.exit = true → r.fromBeginning = true ∨ r.starts ≠ []) ∧
      r.tail ≠ some 0 ∧ (r.tail.isSome → r.starts = []) ∧ r.topic ≠ "") ∧
    (∀ e, r.validate = .error e → e.isConfig = true ∧
      (r.resolve p : Query (Noted σ) Bound).run ⟨client, calls⟩ = (.error e, ⟨client, calls⟩)) ∧
    (∃! position, r.BeginsAt p position) ∧
    (∀ newest : Int64, offsetBefore newest.toInt = (newest - 1).toInt) ∧
    (∀ newest, leastOffset < newest → offsetBefore newest = newest - 1) ∧
    (∀ oldest newest count, leastOffset ≤ oldest → newest - oldest ≤ greatestOffset →
      Bound.tail p oldest newest count =
        ⟨p, max oldest (newest - count), some (offsetBefore newest)⟩) ∧
    (r.validate = .ok () →
      (∀ count, r.tail = some count →
        OneCall (.watermarks r.topic p) (Client.watermarks r.topic p)
          (fun (oldest, newest) => Bound.tail p oldest newest count) client calls
          ((r.resolve p : Query (Noted σ) Bound).run ⟨client, calls⟩)) ∧
      (r.tail = none → r.exit = true → ∀ position, r.BeginsAt p position →
        OneCall (.watermarks r.topic p) (Client.watermarks r.topic p)
          (fun (oldest, newest) => ⟨p, position.offset oldest newest, some (offsetBefore newest)⟩)
          client calls ((r.resolve p : Query (Noted σ) Bound).run ⟨client, calls⟩)) ∧
      (r.tail = none → r.exit = false →
        (∀ n, r.BeginsAt p (.exactly n) →
          (r.resolve p : Query (Noted σ) Bound).run ⟨client, calls⟩ =
            (.ok ⟨p, n, none⟩, ⟨client, calls⟩)) ∧
        (r.BeginsAt p .oldest →
          OneCall (.oldest r.topic p) (Client.oldest r.topic p) (fun oldest => ⟨p, oldest, none⟩)
            client calls ((r.resolve p : Query (Noted σ) Bound).run ⟨client, calls⟩)) ∧
        (r.BeginsAt p .newest →
          OneCall (.newest r.topic p) (Client.newest r.topic p) (fun newest => ⟨p, newest, none⟩)
            client calls ((r.resolve p : Query (Noted σ) Bound).run ⟨client, calls⟩)))) := by
  refine ⟨Request.validate_eq_ok_iff, ?_, ?_, offsetBefore_toInt, fun _ => offsetBefore_of_lt,
    fun oldest newest count => Bound.tail_eq p count, ?_⟩
  · intro e invalid
    refine ⟨Request.isConfig_of_invalid invalid, ?_⟩
    rw [Request.resolve_invalid invalid]
    rfl
  · refine ⟨_, Request.beginsAt_iff.mpr rfl, ?_⟩
    intro position begins
    exact (Request.beginsAt_iff.mp begins).symm
  · intro valid
    refine ⟨?_, ?_, ?_⟩
    · intro count tail
      rw [Request.resolve_tailed valid tail]
      exact Noted.oneCall_ask
    · intro direct ending position begins
      rw [Request.resolve_ending valid direct ending begins]
      exact Noted.oneCall_ask
    · intro direct endless
      rw [Request.resolve_following valid direct endless]
      refine ⟨?_, ?_, ?_⟩
      · intro n begins
        rw [Request.findStart_unmarked begins]
        rfl
      · intro begins
        rw [Request.findStart_unmarked begins]
        exact Noted.oneCall_ask
      · intro begins
        rw [Request.findStart_unmarked begins]
        exact Noted.oneCall_ask

end

/-- Up to the end, with two entries for the first partition, of which the last is a watermark. -/
def askedTwice : Request :=
  { topic := "t", exit := true, starts := [⟨0, .exactly 4⟩, ⟨1, .oldest⟩, ⟨0, .oldest⟩] }

/-- A client that knows the watermarks of the first partition only. -/
def oneKnown : Script := { parts := [{ id := 0, oldest := some 0, newest := some 10 }, { id := 1 }] }

/-- The last entry decides, and one call answers for both ends. Where a watermark is not known, the
call for it is the only one. -/
theorem askedTwice_by_rules :
    askedTwice.validate = .ok () ∧
    (∃ client', (askedTwice.resolve 0 : Query (Noted Script) Bound).run ⟨oneKnown, []⟩ =
      (.ok ⟨0, 0, some 9⟩, ⟨client', [.watermarks "t" 0]⟩)) ∧
    ∃ client', ({ askedTwice with exit := false }.resolve 1 : Query (Noted Script) Bound).run
      ⟨oneKnown, []⟩ = (.error (.offsets 1 "no oldest"), ⟨client', [.oldest "t" 1]⟩) := by
  refine ⟨rfl, ?_, ?_⟩
  · have begins : askedTwice.BeginsAt 0 .oldest :=
      @Request.BeginsAt.entry askedTwice 0 [⟨0, .exactly 4⟩, ⟨1, .oldest⟩] [] _ rfl (by simp)
    obtain ⟨_, _, _, _, _, _, rules⟩ := resolved_by_rules askedTwice 0 oneKnown []
    obtain ⟨_, ending, _⟩ := rules rfl
    have call := ending rfl rfl .oldest begins
    generalize (askedTwice.resolve 0 : Query (Noted Script) Bound).run _ = outcome at call ⊢
    cases call with
    | failed failure => cases failure
    | answered answer =>
      cases answer
      exact ⟨_, rfl⟩
  · have begins : { askedTwice with exit := false }.BeginsAt 1 .oldest :=
      @Request.BeginsAt.entry { askedTwice with exit := false } 1 [⟨0, .exactly 4⟩] [⟨0, .oldest⟩] _ rfl
        (by simp)
    obtain ⟨_, _, _, _, _, _, rules⟩ := resolved_by_rules { askedTwice with exit := false } 1 oneKnown []
    obtain ⟨_, _, following⟩ := rules rfl
    obtain ⟨_, oldest, _⟩ := following rfl rfl
    have call := oldest begins
    generalize ({ askedTwice with exit := false }.resolve 1 : Query (Noted Script) Bound).run _ =
      outcome at call ⊢
    cases call with
    | failed failure =>
      cases failure
      exact ⟨_, rfl⟩
    | answered answer => cases answer

end TopicReader
