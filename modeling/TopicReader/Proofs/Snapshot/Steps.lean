import TopicReader.Proofs.Snapshot.Underway

/-! The steps of a run that nothing hinders. Each step of the run itself takes it nearer to its end,
and what happens beside it does not take it away. -/
namespace TopicReader

namespace Run

variable {κ : Type} [Sink κ] {init : LogStore} {request : Request} {chain : Chain} {sink : κ}
  {r t : Run LogStore LogReader κ} {events fs : List Event}

/-- A bound on the steps of the run itself that are left. -/
def left (init : LogStore) (r : Run LogStore LogReader κ) : Nat :=
  r.stage.left init r.request + r.supervision.left init + r.drain.left

omit [Sink κ] in
theorem demanded_ascending (regular : ∀ p, (init.logOf request.topic p).Regular) (p : Int) :
    (init.demanded request p).Pairwise (·.offset < ·.offset) := by
  unfold LogStore.demanded
  split
  · exact (regular p).ascending.sublist List.filter_sublist
  · exact .nil

theorem Intact.underway (h : Intact init request chain r events) : Underway init request r events :=
  ⟨h.accounts, h.tracks, h.going, h.resolving, h.covered⟩

theorem Underway.intact (h : Underway init request r events) (asked : r.request = request)
    (flows : r.Flows chain events) (writes : r.drain.Writes) : Intact init request chain r events :=
  ⟨asked, h.accounts, flows, h.tracks, writes, h.going, h.resolving, h.covered⟩

theorem Unhindered.begin_intact (h : Unhindered init request chain sink) :
    Intact init request chain (begin request chain init sink) [] := by
  have underway : Underway init request (begin request chain init sink : Run LogStore LogReader κ)
      [] := underway_begin h.valid h.held h.known h.openings h.offsets rfl rfl
  refine underway.intact ?_ (flows_begin h.direct) ?_
  · rw [begin_eq h.valid h.held]
  · rw [begin_eq h.valid h.held, h.direct]
    exact ⟨h.accepts, .inl ⟨none, 0, rfl⟩⟩

namespace Intact

theorem heard (h : Intact init request chain r events)
    (going : r.supervision.funnel.senders ≠ 0) : r.supervision.funnel.receiving = true := by
  have listening := h.accounts.listening
  rcases h.writes.phase with ⟨hand, n, phase⟩ | ⟨n, phase⟩
  · rw [phase] at listening
    exact listening
  · rw [phase, h.tracks.calm] at listening
    rcases listening.2 with closing | none_left
    · cases closing
    · exact absurd none_left going

/-- A message in hand is one of those that the store had, so it can be decoded. -/
theorem decodable (h : Intact init request chain r events)
    (unhindered : Unhindered init request chain sink) {m : Message} {n : Nat}
    (phase : r.drain.phase = .direct (some m) n) : ∃ record, r.drain.chain.record m = .ok record := by
  obtain ⟨same, dealt, pending, flow⟩ := h.flows
  rw [phase] at flow
  obtain ⟨p, rest, rfl, _⟩ := flow.in_hand
  have sent : m ∈ ofPartition p (forwarded events) := by
    rw [mem_ofPartition, flow.entered]
    simp
  have delivered := (h.accounts.ledger.forwarded_front p).subset sent
  rw [same]
  exact unhindered.decodes_logOf (h.tracks.mem_logOf h.accounts.ledger delivered)

omit [Sink κ] in
theorem left_eq (asked : r.request = request) : left init r = ahead init request r + r.drain.left := by
  rw [left, ahead, asked]

/-- The output writes each message as it comes. -/
theorem serves (h : Intact init request chain r events)
    (unhindered : Unhindered init request chain sink) : r.Serves Drain.left := by
  refine ⟨h.heard, ?_, ?_⟩
  · intro result phase
    obtain ⟨n, rfl⟩ := h.writes.ended phase
    have listening := h.accounts.listening
    rw [phase, h.tracks.calm] at listening
    exact ⟨⟨n, rfl⟩, listening.2.resolve_left (by simp)⟩
  · intro o step
    exact (h.writes.step (fun m n phase => h.decodable unhindered phase) step).2

/-- A bound is found in the store as it was. -/
theorem answer (h : Intact init request chain r events)
    (unhindered : Unhindered init request chain sink) {p : Int} (waits : p ∈ r.stage.waiting) :
    (r.request.resolve p : Query LogStore Bound).run r.supervision.client =
      (.ok (init.boundOf request p),
        { r.supervision.client with fetches := r.supervision.client.fetches + 1 }) := by
  have selected := h.underway.selected waits
  rw [h.asked, LogStore.resolve_run unhindered.valid unhindered.direct unhindered.ending
    h.tracks.grown.offsets (h.tracks.grown.known p selected.1), h.tracks.grown.logOf_eq waits]
  rfl

/-- When a run returns, all has been read and written. -/
theorem fulfilled (h : Intact init request chain r events)
    (unhindered : Unhindered init request chain sink) {n : Nat} (stage : r.stage = .joining (.ok n))
    (finished : r.supervision.isFinished = true) (well : t.stage = .returned (.ok ())) :
    Fulfilled init request chain t (events ++ [.closing]) := by
  have free : r.supervision.coordination.firstError = none := by rw [h.tracks.calm]
  have excused : r.Excused := by
    intro closing
    rw [h.tracks.calm] at closing
    cases closing
  obtain ⟨records_eq, decoded, _⟩ :=
    nothing_pending h.flows h.accounts excused finished free stage
  refine ⟨well, forwarded events, ?_, ?_⟩
  · simpa [records_eq] using map_ok_records decoded
  · intro p
    simpa using h.underway.forwarded_eq unhindered.logOf_regular stage finished p

/-- Every step of the run itself brings it nearer to its end, and none beside it takes it away. -/
theorem step (h : Intact init request chain r events)
    (unhindered : Unhindered init request chain sink) {a : Action LogStore}
    (move : Proceeds r a fs t) :
    (Intact init request chain t (events ++ fs) ∨ Fulfilled init request chain t (events ++ fs)) ∧
      left init t + (if a.isOwn then 1 else 0) ≤ left init r := by
  have step := step_cases move.1
  obtain ⟨asked, output⟩ := step.frame
  obtain ⟨state, fewer⟩ := h.underway.step (h.serves unhindered) unhindered.logOf_regular
    (by rw [h.asked]) (fun p waits => h.answer unhindered waits) move
  rw [left_eq (asked.trans h.asked), left_eq h.asked]
  refine ⟨?_, fewer⟩
  rcases state with next | well
  · have writes : t.drain.Writes := by
      rcases output with same | ⟨o, same, step⟩
      · rw [same]
        exact h.writes
      · rw [same]
        exact (h.writes.step (fun m n phase => h.decodable unhindered phase)
          (h.tracks.calm ▸ step)).1
    exact .inl (next.intact (asked.trans h.asked) (h.flows.step h.accounts step) writes)
  · obtain ⟨rfl, finished, _, n, stage⟩ := step.ended_well well
    exact .inr (h.fulfilled unhindered stage finished well)

end Intact
end Run
end TopicReader
