import TopicReader.Client.Script
import TopicReader.Proofs.Accounting.Standings
import TopicReader.Proofs.Engine.Ledger
import TopicReader.Proofs.Engine.Replay
import TopicReader.Proofs.Outcome.Recordings

/-! The books of a supervision. Each partition with something to read is opened once and ends in one
way, whatever happens to it and to the others: no reader is left open by a worker that stopped, none
is closed twice, and no end of a worker is dropped. -/
namespace TopicReader

namespace Worker

variable {ρ : Type}

/-- How the reading of a worker's partition stands, as long as it has not ended. -/
def standing? (w : Worker ρ) : Option (Bound × Standing) :=
  match w.phase with
  | .receiving _ _ | .sending _ _ => some (w.bound, .reading)
  | .crashed false => some (w.bound, .lost)
  | _ => none

def stop? (w : Worker ρ) : Option (Int × StopReason) :=
  match w.phase with
  | .stopped reason => some (w.bound.partition, reason)
  | _ => none

end Worker

namespace Supervision

variable {σ ρ : Type}

/-- How the reading of all partitions stands: of those that wait, of those with a reader, of those
with a worker and of those that have ended. -/
def tally (waiting : List Bound) (readers : List (Bound × ρ)) (workers : List (Worker ρ))
    (endings : List (Bound × Ending)) : List (Bound × Standing) :=
  waiting.map (·, .waiting) ++ readers.map (·.1, .reading) ++ workers.filterMap Worker.standing? ++
    endings.map fun x => (x.1, .ended x.2)

section
variable {waiting : List Bound} {readers kept : List (Bound × ρ)} {workers others : List (Worker ρ)}
  {endings : List (Bound × Ending)} {b : Bound}

theorem tally_waiting {i : Nat} (next : waiting[i]? = some b) :
    (tally waiting readers workers endings).Perm
      ((b, .waiting) :: tally (waiting.eraseIdx i) readers workers endings) := by
  obtain ⟨bound, rfl⟩ := List.getElem?_eq_some_iff.mp next
  have front := (List.getElem_cons_eraseIdx_perm bound).symm.map (·, Standing.waiting)
  exact ((front.append_right _).append_right _).append_right _

theorem tally_perm (same_readers : readers.Perm kept) (same_workers : workers.Perm others) :
    (tally waiting readers workers endings).Perm (tally waiting kept others endings) :=
  (((same_readers.map _).append_left _).append (same_workers.filterMap _)).append_right _

theorem tally_reader {reader : ρ} :
    (tally waiting ((b, reader) :: readers) workers endings).Perm
      ((b, .reading) :: tally waiting readers workers endings) :=
  (List.perm_middle.append_right _).append_right _

theorem tally_worker {w : Worker ρ} :
    (tally waiting readers (w :: workers) endings).Perm
      (w.standing?.toList ++ tally waiting readers workers endings) := by
  unfold tally
  rw [filterMap_cons_toList, ← List.append_assoc, ← List.append_assoc, ← List.append_assoc]
  exact ((List.perm_append_comm.append_right _).trans (by simp)).append_right _

theorem tally_ending {e : Ending} :
    (tally waiting readers workers ((b, e) :: endings)).Perm
      ((b, .ended e) :: tally waiting readers workers endings) :=
  List.perm_middle

end

def standings (s : Supervision σ ρ) (endings : List (Bound × Ending)) : List (Bound × Standing) :=
  tally s.stage.waiting s.stage.readers s.workers endings

def account (s : Supervision (Noted σ) ρ) (events : List Event) : Account where
  calls := s.client.calls
  errors := (recordings events).map (·.1)
  crashes := TopicReader.crashes events
  stops := s.workers.filterMap Worker.stop?

/-- The books of a supervision whose client is asked for the given bounds, some of which have
ended. -/
structure Accounted (topic : String) (bounds : List Bound) (endings : List (Bound × Ending))
    (s : Supervision (Noted σ) ρ) (events : List Event) : Prop where
  subject : s.topic = topic
  whole : ((s.standings endings).map (·.1)).Perm bounds
  audit : Audit topic (s.standings endings) (s.account events)

namespace Accounted

variable {topic : String} {bounds : List Bound} {endings after : List (Bound × Ending)}
  {s t : Supervision (Noted σ) ρ} {es fs : List Event}

/-- A step that concerns no partition. -/
theorem frame (h : s.Accounted topic bounds endings es)
    (same : (t.standings endings).Perm (s.standings endings)) (subject : t.topic = s.topic)
    (calls : t.client.calls = s.client.calls) (unrecorded : recordings fs = [])
    (uncrashed : crashes fs = [])
    (stops : t.workers.filterMap Worker.stop? = s.workers.filterMap Worker.stop?) :
    t.Accounted topic bounds endings (es ++ fs) := by
  have unchanged : t.account (es ++ fs) = s.account es := by
    simp [account, calls, unrecorded, uncrashed, stops]
  exact ⟨subject.trans h.subject, (same.map _).trans h.whole, unchanged ▸ h.audit.perm same⟩

/-- A step that concerns one partition, which gets from one standing to another. -/
theorem move (h : s.Accounted topic bounds endings es) (apart : (bounds.map (·.partition)).Nodup)
    {b : Bound} {x y : Standing} {rest : List (Bound × Standing)} (more : Account)
    (old : (s.standings endings).Perm ((b, x) :: rest))
    (new : (t.standings after).Perm ((b, y) :: rest)) (subject : t.topic = s.topic)
    (grown : y.account topic b = x.account topic b ++ more)
    (calls : t.client.calls = s.client.calls ++ more.calls)
    (recorded : (recordings fs).map (·.1) = more.errors) (crashed : crashes fs = more.crashes)
    (stopped : (t.workers.filterMap Worker.stop?).Perm
      (s.workers.filterMap Worker.stop? ++ more.stops)) :
    t.Accounted topic bounds after (es ++ fs) := by
  have distinct : ((s.standings endings).map (·.1.partition)).Nodup := by
    have same := (h.whole.map (·.partition)).nodup_iff.mpr apart
    rwa [List.map_map] at same
  have whole : ((t.standings after).map (·.1)).Perm bounds :=
    (new.map (·.1)).trans ((old.map (·.1)).symm.trans h.whole)
  have moved := h.audit.move distinct old new grown
  have shown : t.account (es ++ fs) =
      { s.account es ++ more with stops := t.workers.filterMap Worker.stop? } := by
    rw [account, calls, recordings_append, crashes_append, List.map_append, recorded, crashed]
    rfl
  refine ⟨subject.trans h.subject, whole, ?_⟩
  rw [shown]
  exact { moved with stops := stopped.trans moved.stops }

/-- The opening of a reader, whatever comes of it. -/
theorem opening (h : s.Accounted topic bounds endings es)
    (apart : (bounds.map (·.partition)).Nodup) {i : Nat} {b : Bound} {waiting : List Bound}
    {opened : List (Bound × ρ)} {outcome : Opening Unit} {y : Standing}
    (stage : s.stage = .opening waiting opened) (next : waiting[i]? = some b)
    (new : (t.standings after).Perm
      ((b, y) :: tally (waiting.eraseIdx i) opened s.workers endings))
    (workers : t.workers = s.workers) (subject : t.topic = s.topic)
    (calls : t.client.calls =
      s.client.calls ++ [.openReader s.topic b.partition b.start outcome])
    (grown : y.account topic b =
      ⟨[.openReader topic b.partition b.start outcome], (recordings fs).map (·.1), [], []⟩)
    (uncrashed : crashes fs = []) : t.Accounted topic bounds after (es ++ fs) := by
  have old : (s.standings endings).Perm
      ((b, .waiting) :: tally (waiting.eraseIdx i) opened s.workers endings) := by
    rw [standings, stage]
    exact tally_waiting next
  rw [h.subject] at calls
  refine h.move apart ⟨[.openReader topic b.partition b.start outcome], _, [], []⟩ old new subject
    grown calls rfl uncrashed ?_
  rw [workers, List.append_nil]

/-- An opening without a reader ends its partition. -/
theorem unopened (h : s.Accounted topic bounds endings es)
    (apart : (bounds.map (·.partition)).Nodup) (e : Ending) {i : Nat} {b : Bound}
    {waiting : List Bound} {opened : List (Bound × ρ)} {outcome : Opening Unit}
    (stage : s.stage = .opening waiting opened) (next : waiting[i]? = some b)
    (left : t.stage = .after (waiting.eraseIdx i) opened) (workers : t.workers = s.workers)
    (subject : t.topic = s.topic)
    (calls : t.client.calls =
      s.client.calls ++ [.openReader s.topic b.partition b.start outcome])
    (ended : e.account topic b =
      ⟨[.openReader topic b.partition b.start outcome], (recordings fs).map (·.1), [], []⟩)
    (uncrashed : crashes fs = []) : t.Accounted topic bounds ((b, e) :: endings) (es ++ fs) := by
  refine h.opening apart (y := .ended e) stage next ?_ workers subject calls ended uncrashed
  rw [standings, left, waiting_after, workers]
  exact (tally_perm (readers_after _ _) (.refl _)).trans tally_ending

section
variable {i : Nat} {b : Bound} {old new : Worker.Phase ρ} {x y : Standing}

variable (endings) in
/-- The standings with and without that of one worker. -/
theorem standings_of_worker (worker : s.workers[i]? = some ⟨b, old⟩)
    (before : (Worker.mk b old).standing? = some (b, x)) :
    (s.standings endings).Perm
      ((b, x) :: tally s.stage.waiting s.stage.readers (s.workers.eraseIdx i) endings) := by
  obtain ⟨bound, here⟩ := List.getElem?_eq_some_iff.mp worker
  have front := (List.getElem_cons_eraseIdx_perm bound).symm
  rw [here] at front
  have split : (s.standings endings).Perm ((Worker.mk b old).standing?.toList ++
      tally s.stage.waiting s.stage.readers (s.workers.eraseIdx i) endings) :=
    (tally_perm (.refl _) front).trans tally_worker
  rwa [before] at split

variable (endings) in
theorem standings_after (turn : Turns s t i b old new) :
    (t.standings endings).Perm ((Worker.mk b new).standing?.toList ++
      tally s.stage.waiting s.stage.readers (s.workers.eraseIdx i) endings) := by
  have bound := (List.getElem?_eq_some_iff.mp turn.worker).1
  have front := List.set_perm_cons_eraseIdx bound (Worker.mk b new)
  rw [standings, turn.workers, turn.stage]
  exact (tally_perm (.refl _) front).trans tally_worker

/-- A worker that had not stopped adds its reason to those of the others when it stops. -/
theorem stops_after (turn : Turns s t i b old new)
    (before : (Worker.mk b old).standing? = some (b, x)) :
    (t.workers.filterMap Worker.stop?).Perm
      (s.workers.filterMap Worker.stop? ++ (Worker.mk b new).stop?.toList) := by
  obtain ⟨bound, here⟩ := List.getElem?_eq_some_iff.mp turn.worker
  have earlier := (List.getElem_cons_eraseIdx_perm bound).symm.filterMap Worker.stop?
  have later := (List.set_perm_cons_eraseIdx bound (Worker.mk b new)).filterMap Worker.stop?
  have none_given : (Worker.mk b old).stop? = none := by
    cases old with
    | stopped reason => cases before
    | _ => rfl
  rw [filterMap_cons_toList] at earlier later
  rw [here, none_given] at earlier
  rw [turn.workers]
  exact later.trans (List.perm_append_comm.trans (earlier.symm.append_right _))

/-- A worker that goes on, or crashes. -/
theorem goes_on (h : s.Accounted topic bounds endings es)
    (apart : (bounds.map (·.partition)).Nodup) (turn : Turns s t i b old new)
    (before : (Worker.mk b old).standing? = some (b, x))
    (now : (Worker.mk b new).standing? = some (b, y))
    (grown : y.account topic b = x.account topic b ++ { crashes := crashes fs })
    (calls : t.client.calls = s.client.calls) (unrecorded : recordings fs = []) :
    t.Accounted topic bounds endings (es ++ fs) := by
  have unstopped : (Worker.mk b new).stop? = none := by
    cases new with
    | stopped reason => cases now
    | _ => rfl
  have after := standings_after endings turn
  have stops := stops_after turn before
  rw [now] at after
  rw [unstopped] at stops
  refine h.move apart { crashes := crashes fs } (standings_of_worker endings turn.worker before)
    after turn.topic grown ?_ ?_ rfl stops
  · rw [calls, List.append_nil]
  · rw [unrecorded, List.map_nil]

/-- A worker that ends. -/
theorem ends (h : s.Accounted topic bounds endings es) (apart : (bounds.map (·.partition)).Nodup)
    (e : Ending) (more : Account) (turn : Turns s t i b old new)
    (before : (Worker.mk b old).standing? = some (b, x))
    (gone : (Worker.mk b new).standing? = none)
    (grown : e.account topic b = x.account topic b ++ more)
    (calls : t.client.calls = s.client.calls ++ more.calls)
    (recorded : (recordings fs).map (·.1) = more.errors) (crashed : crashes fs = more.crashes)
    (stopped : (Worker.mk b new).stop?.toList = more.stops) :
    t.Accounted topic bounds ((b, e) :: endings) (es ++ fs) := by
  have rest := standings_after endings turn
  rw [gone] at rest
  have after : (t.standings ((b, e) :: endings)).Perm ((b, .ended e) ::
      tally s.stage.waiting s.stage.readers (s.workers.eraseIdx i) endings) :=
    tally_ending.trans (rest.cons _)
  exact h.move apart more (standings_of_worker endings turn.worker before) after turn.topic grown
    calls recorded crashed (stopped ▸ stops_after turn before)

/-- A worker that stops closes its reader. -/
theorem stops (h : s.Accounted topic bounds endings es) (apart : (bounds.map (·.partition)).Nodup)
    {reason : StopReason} (turn : Turns s t i b old (.stopped reason))
    (before : (Worker.mk b old).standing? = some (b, .reading)) (other : reason ≠ .readerFailed)
    (calls : t.client.calls = s.client.calls ++ [.closeReader b.partition])
    (unrecorded : recordings fs = []) (uncrashed : crashes fs = []) :
    ∃ after, t.Accounted topic bounds after (es ++ fs) :=
  ⟨_, h.ends apart (.stopped reason other)
    ⟨[.closeReader b.partition], [], [], [(b.partition, reason)]⟩ turn before rfl rfl calls
    (by rw [unrecorded]; rfl) uncrashed rfl⟩

end

variable [Client σ ρ]

/-- Every step keeps the books, where changes from outside are no calls. -/
theorem step {a : Action (Noted σ)} (h : s.Accounted topic bounds endings es)
    (apart : (bounds.map (·.partition)).Nodup) (step : Step s a fs t)
    (outside : ∀ f, a = .change f → ∀ c, (f c).calls = c.calls) :
    ∃ after, t.Accounted topic bounds after (es ++ fs) := by
  cases step with
  | @opened i waiting done b reader client stage next answer =>
    have kept : (Stage.after (waiting.eraseIdx i) (done ++ [(b, reader)])).readers.Perm
        ((b, reader) :: done) := (readers_after _ _).trans (List.perm_append_singleton _ _)
    refine ⟨endings, h.opening apart (y := .reading) stage next ?_ rfl rfl
      (Noted.calls_openReader answer) rfl rfl⟩
    rw [standings, waiting_after]
    exact (tally_perm kept (.refl _)).trans tally_reader
  | @openFailed _ _ _ _ e _ stage next answer =>
    refine ⟨_, h.unopened apart (.refused e) stage next rfl rfl rfl
      (Noted.calls_openReader answer) ?_ (by simp [recordEvents])⟩
    simp [Ending.account, recordEvents, Opening.outcome]
  | openCrashed stage next answer =>
    refine ⟨_, h.unopened apart .openingCrashed stage next rfl rfl rfl
      (Noted.calls_openReader answer) ?_ (by simp [recordEvents])⟩
    simp [Ending.account, recordEvents, Opening.outcome]
  | @started b reader rest stage =>
    refine ⟨endings, h.frame ?_ rfl rfl rfl rfl (by simp [Worker.stop?])⟩
    rw [standings, standings, stage]
    refine (tally_perm (.refl _) (List.perm_append_singleton _ _)).trans ?_
    exact tally_worker.trans tally_reader.symm
  | allStarted stage =>
    refine ⟨endings, h.frame ?_ rfl rfl rfl rfl rfl⟩
    rw [standings, standings, stage]
    exact .refl _
  | delivered worker going answer message =>
    exact ⟨endings, h.goes_on apart ⟨worker, rfl, rfl, rfl, rfl, rfl⟩ rfl rfl rfl rfl rfl⟩
  | exhausted worker going answer ended =>
    exact h.stops apart ⟨worker, rfl, rfl, rfl, rfl, rfl⟩ rfl (by decide) rfl rfl rfl
  | @readerFailed i b reader since r e worker going answer failed =>
    refine ⟨_, h.ends apart (.failed e)
      ⟨[.closeReader b.partition], [e], [], [(b.partition, .readerFailed)]⟩
      ⟨worker, rfl, rfl, rfl, rfl, rfl⟩ rfl rfl rfl rfl ?_ ?_ rfl⟩
    · simp [recordEvents]
    · simp [recordEvents]
  | workerCrashed worker going answer crashed =>
    exact ⟨endings, h.goes_on apart (y := .lost) ⟨worker, rfl, rfl, rfl, rfl, rfl⟩ rfl rfl rfl rfl
      rfl⟩
  | idled worker going silent late =>
    exact h.stops apart ⟨worker, rfl, rfl, rfl, rfl, rfl⟩ rfl (by decide) rfl rfl rfl
  | sent worker going receiving room within =>
    exact ⟨endings, h.goes_on apart ⟨worker, rfl, rfl, rfl, rfl, rfl⟩ rfl rfl rfl rfl rfl⟩
  | boundaryReached worker going receiving room last =>
    exact h.stops apart ⟨worker, rfl, rfl, rfl, rfl, rfl⟩ rfl (by decide) rfl rfl rfl
  | funnelClosed worker going deaf =>
    exact h.stops apart ⟨worker, rfl, rfl, rfl, rfl, rfl⟩ rfl (by decide) rfl rfl rfl
  | stopsReceiving worker closing =>
    exact h.stops apart ⟨worker, rfl, rfl, rfl, rfl, rfl⟩ rfl (by decide) rfl rfl rfl
  | stopsSending worker closing =>
    exact h.stops apart ⟨worker, rfl, rfl, rfl, rfl, rfl⟩ rfl (by decide) rfl rfl rfl
  | joined worker =>
    refine ⟨_, h.ends apart .crashed { errors := [crashError] }
      ⟨worker, rfl, rfl, rfl, rfl, rfl⟩ rfl rfl rfl (List.append_nil _).symm ?_ ?_ rfl⟩
    · simp [recordEvents]
    · simp [recordEvents]
  | taken | deafened | shutDown | advanced => exact ⟨endings, h.frame (.refl _) rfl rfl rfl rfl rfl⟩
  | changed => exact ⟨endings, h.frame (.refl _) rfl (outside _ rfl _) rfl rfl rfl⟩

omit [Client σ ρ] in
theorem start (client : σ) (topic : String) (idle : Option Nat) (bounds : List Bound) :
    (ofBounds (ρ := ρ) (Noted.mk client []) topic idle bounds).Accounted topic
      (bounds.filter fun b => !b.isEmpty) [] [] := by
  have all_wait : (ofBounds (ρ := ρ) (Noted.mk client []) topic idle bounds).standings [] =
      (bounds.filter fun b => !b.isEmpty).map (·, .waiting) := by
    have no_readers := (readers_after (ρ := ρ) (bounds.filter fun b => !b.isEmpty) []).eq_nil
    simp [standings, tally, ofBounds, no_readers]
  refine ⟨rfl, ?_, ?_⟩
  · rw [all_wait, List.map_map]
    exact .of_eq (List.map_id _)
  · rw [all_wait]
    refine ⟨?_, fun _ _ => rfl, ?_, ?_, ?_⟩
    · intro x member
      obtain ⟨b, _, rfl⟩ := List.mem_map.mp member
      rfl
    all_goals simp [Standing.account, account, List.flatMap_map, ofBounds]

theorem of_reaches {client : σ} {idle : Option Nat} {actions : List (Action (Noted σ))}
    (apart : (bounds.map (·.partition)).Nodup)
    (outside : ∀ f, .change f ∈ actions → ∀ c, (f c).calls = c.calls)
    (run : Reaches Moves (ofBounds (ρ := ρ) (Noted.mk client []) topic idle bounds) actions es s) :
    ∃ endings, s.Accounted topic (bounds.filter fun b => !b.isEmpty) endings es := by
  have distinct : ((bounds.filter fun b => !b.isEmpty).map (·.partition)).Nodup :=
    apart.sublist (List.filter_sublist.map _)
  induction run with
  | refl => exact ⟨[], start client topic idle bounds⟩
  | next before move ih =>
    obtain ⟨endings, accounted⟩ := ih fun f member => outside f (List.mem_append_left _ member)
    exact accounted.step distinct (step_cases move) fun f same => outside f (by simp [same])

omit [Client σ ρ] in
/-- A supervision that is finished has only endings in its books. -/
theorem standings_of_finished (finished : s.isFinished = true) :
    s.standings endings = endings.map fun x => (x.1, .ended x.2) := by
  obtain ⟨running, settled⟩ := isFinished_iff.mp finished
  have none_open : s.workers.filterMap Worker.standing? = [] := by
    refine List.filterMap_eq_nil_iff.mpr fun w member => ?_
    obtain ⟨b, phase⟩ := w
    have settled := settled _ member
    cases phase with
    | crashed reported =>
      cases reported with
      | true => rfl
      | false => cases settled
    | stopped reason => rfl
    | _ => cases settled
  simp [standings, tally, running, Stage.waiting, Stage.readers, none_open]

end Accounted

/-- No ending gives two reasons for stopping. -/
theorem stops_sublist (topic : String) (endings : List (Bound × Ending)) :
    ((endings.flatMap fun x => (x.2.account topic x.1).stops).map (·.1)).Sublist
      (endings.map (·.1.partition)) := by
  induction endings with
  | nil => exact .slnil
  | cons x rest ih =>
    obtain ⟨b, e⟩ := x
    rw [List.flatMap_cons, List.map_append, List.map_cons]
    cases e with
    | failed e | stopped reason => exact ih.cons_cons _
    | _ => exact ih.cons _

/-- Reasons for stopping come in the order of their partitions, one for each. -/
theorem stops_ordered {s : Supervision σ ρ} {topic : String} {endings : List (Bound × Ending)}
    (apart : (endings.map (·.1.partition)).Nodup)
    (given : s.stops.Perm (endings.flatMap fun x => (x.2.account topic x.1).stops)) :
    s.stops.Pairwise (·.1 < ·.1) := by
  have sorted : s.stops.Pairwise (·.1 ≤ ·.1) := by
    refine List.Pairwise.imp of_decide_eq_true (List.pairwise_mergeSort ?_ ?_ _)
    · intro a b c
      simp only [decide_eq_true_eq]
      omega
    · intro a b
      simp only [Bool.or_eq_true, decide_eq_true_eq]
      omega
  have distinct : (s.stops.map (·.1)).Nodup :=
    ((given.map (·.1)).nodup_iff).mpr (apart.sublist (stops_sublist topic endings))
  exact sorted.imp₂ (fun _ _ le ne => by omega) (List.pairwise_map.mp distinct)

variable [Client σ ρ]

/-- A finished supervision has brought each partition with something to read to one end. The calls,
errors, crashes and reasons that were seen are those that these ends account for. -/
theorem partitions_accounted {client : σ} {topic : String} {idle : Option Nat} {bounds : List Bound}
    {actions : List (Action (Noted σ))} {events : List Event} {s : Supervision (Noted σ) ρ}
    (apart : (bounds.map (·.partition)).Nodup)
    (outside : ∀ f, .change f ∈ actions → ∀ c, (f c).calls = c.calls)
    (run : Reaches Moves (ofBounds (Noted.mk client []) topic idle bounds) actions events s)
    (finished : s.isFinished = true) :
    ∃ endings : List (Bound × Ending),
      (endings.map (·.1)).Perm (bounds.filter fun b => !b.isEmpty) ∧
      (∀ x ∈ endings,
        callsOn x.1.partition s.client.calls = (x.2.account topic x.1).calls) ∧
      (∀ p, (∀ b ∈ bounds, b.partition = p → b.isEmpty = true) → callsOn p s.client.calls = []) ∧
      ((recordings events).map (·.1)).Perm
        (endings.flatMap fun x => (x.2.account topic x.1).errors) ∧
      (crashes events).Perm (endings.flatMap fun x => (x.2.account topic x.1).crashes) ∧
      s.stops.Perm (endings.flatMap fun x => (x.2.account topic x.1).stops) ∧
      s.stops.Pairwise (·.1 < ·.1) := by
  obtain ⟨endings, -, whole, audit⟩ := Accounted.of_reaches apart outside run
  rw [Accounted.standings_of_finished finished, List.map_map] at whole
  rw [Accounted.standings_of_finished finished] at audit
  obtain ⟨calls, others, errors, crashes, stops⟩ := audit
  rw [List.flatMap_map] at errors crashes stops
  have ended : (endings.map (·.1)).Perm (bounds.filter fun b => !b.isEmpty) := whole
  have distinct : (endings.map (·.1.partition)).Nodup := by
    have same := (ended.map (·.partition)).nodup_iff.mpr
      (apart.sublist (List.filter_sublist.map _))
    rwa [List.map_map] at same
  have given : s.stops.Perm (endings.flatMap fun x => (x.2.account topic x.1).stops) :=
    (List.mergeSort_perm _ _).trans stops
  refine ⟨endings, ended, ?_, ?_, errors, crashes, given, stops_ordered distinct given⟩
  · exact fun x member => calls (x.1, .ended x.2) (List.mem_map_of_mem member)
  · intro p empty
    refine others p fun member => ?_
    rw [List.map_map] at member
    obtain ⟨x, inside, rfl⟩ := List.mem_map.mp member
    obtain ⟨known, some⟩ := List.mem_filter.mp (ended.mem_iff.mp (List.mem_map_of_mem inside))
    simp [empty x.1 known rfl] at some

/-- The first partition is empty, the second one is read up to its end, the third one cannot be
opened, the worker of the fourth one crashes, and the reader of the last one fails. -/
def assortedBounds : List Bound :=
  [⟨0, 4, some 3⟩, ⟨1, 0, some 0⟩, ⟨2, 0, some 5⟩, ⟨3, 0, some 5⟩, ⟨4, 7, none⟩]

def assorted : Supervision (Noted Script) (List Script.Step) :=
  ofBounds (Noted.mk
    { parts := [
      { id := 1, steps := [.deliver (.message { partition := 1, offset := 0 })] },
      { id := 2, opens := .failing (.opening 2 "no leader") },
      { id := 3, steps := [.deliver .crashed] },
      { id := 4, steps := [.deliver (.failed (.broker "reader lost"))] }] } []) "t" none
    assortedBounds

def assortedSteps : List (Action (Noted Script)) :=
  [.openReader 1, .openReader 0, .openReader 1, .openReader 0, .start, .start, .start, .start,
    .work 1, .work 0, .work 0, .work 2, .join 1]

theorem assorted_accounted :
    ∃ (s : Supervision (Noted Script) (List Script.Step)) (events : List Event),
      Reaches Moves assorted assortedSteps events s ∧ s.isFinished = true ∧
      s.stops = [(1, .boundaryReached), (4, .readerFailed)] ∧ crashes events = [3] ∧
      callsOn 0 s.client.calls = [] ∧
      callsOn 3 s.client.calls = [.openReader "t" 3 0 (.opened ())] ∧
      ∃ endings : List (Bound × Ending), (endings.map (·.1)).Perm (assortedBounds.drop 1) ∧
        (∀ x ∈ endings,
          callsOn x.1.partition s.client.calls = (x.2.account "t" x.1).calls) ∧
        ((recordings events).map (·.1)).Perm
          (endings.flatMap fun x => (x.2.account "t" x.1).errors) := by
  have replayed : (replayWith step assorted assortedSteps).any (fun (s, events) =>
      s.isFinished && s.stops = [(1, .boundaryReached), (4, .readerFailed)] &&
        crashes events = [3] &&
          callsOn 3 s.client.calls = [.openReader "t" 3 0 (.opened ())]) = true := by
    cbv
  obtain ⟨s, events, run, seen⟩ := exists_of_replayWith replayed
  simp only [Bool.and_eq_true, decide_eq_true_eq] at seen
  obtain ⟨⟨⟨finished, stops⟩, lost⟩, unclosed⟩ := seen
  obtain ⟨endings, whole, calls, others, errors, -⟩ := partitions_accounted (by decide)
    (by simp [assortedSteps]) run finished
  exact ⟨s, events, run, finished, stops, lost, others 0 (by decide), unclosed, endings, whole,
    calls, errors⟩

end Supervision
end TopicReader
