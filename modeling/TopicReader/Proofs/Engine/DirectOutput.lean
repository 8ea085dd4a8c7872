import TopicReader.Proofs.Engine.Accounts

/-! Output that is written as it comes. Every message that entered the funnel is either dealt with,
in hand, or still queued, in the order in which it entered; so what is written for a partition comes
from the beginning of what its reader delivered. A run that ends well without a request from outside
has dealt with everything. -/
namespace TopicReader

namespace Chain

variable {chain : Chain} {m : Message} {r : Record}

/-- The record of a message that can be decoded. -/
def record? (chain : Chain) (m : Message) : Option Record := (chain.record m).toOption

theorem record?_of_ok (h : chain.record m = .ok r) : chain.record? m = some r := by
  simp [record?, h, Except.toOption]

theorem record?_of_error {e : DecodeError} (h : chain.record m = .error e) :
    chain.record? m = none := by
  simp [record?, h, Except.toOption]

theorem ok_of_record? (h : chain.record? m = some r) : chain.record m = .ok r := by
  cases decoded : chain.record m with
  | ok r' =>
    rw [record?_of_ok decoded] at h
    cases h
    rfl
  | error e => simp [record?_of_error decoded] at h

/-- A record takes over what needs no decoding. -/
theorem record_fields (h : chain.record m = .ok r) :
    r.partition = m.partition ∧ r.offset = m.offset ∧ r.timestamp = m.timestamp := by
  unfold record at h
  cases key : chain.decodeOptional .key m.key with
  | error e => simp [key, bind, Except.bind] at h
  | ok k =>
    cases value : chain.decodeOptional .value m.value with
    | error e => simp [key, value, bind, Except.bind] at h
    | ok v =>
      simp only [key, value, bind, Except.bind, pure, Except.pure, Except.ok.injEq] at h
      rw [← h]
      exact ⟨rfl, rfl, rfl⟩

/-- A record is of the partition that its message is of. -/
theorem record_partition (h : chain.record m = .ok r) : r.partition = m.partition :=
  (record_fields h).1

end Chain

/-- The records of messages that can be decoded, in order. -/
def records (chain : Chain) (messages : List (Int × Message)) : List Record :=
  messages.filterMap fun x => chain.record? x.2

section
variable {chain : Chain} {messages : List (Int × Message)}

theorem records_append {more : List (Int × Message)} :
    records chain (messages ++ more) = records chain messages ++ records chain more :=
  List.filterMap_append

/-- Where all messages can be decoded, each has its record. -/
theorem map_ok_records (decoded : ∀ x ∈ messages, ∃ r, chain.record x.2 = .ok r) :
    messages.map (fun x => chain.record x.2) = (records chain messages).map .ok := by
  induction messages with
  | nil => rfl
  | cons x rest ih =>
    obtain ⟨r, ok⟩ := decoded x List.mem_cons_self
    have shorter := ih fun y member => decoded y (List.mem_cons_of_mem _ member)
    have front : records chain (x :: rest) = r :: records chain rest :=
      List.filterMap_cons_some (Chain.record?_of_ok ok)
    rw [front, List.map_cons, List.map_cons, ok, shorter]

/-- If the readers of all partitions deliver only messages of their own, the records of a partition
are those of the messages that came from it. -/
theorem records_of_partition (own : ∀ x ∈ messages, x.2.partition = x.1) (p : Int) :
    (records chain messages).filter (·.partition = p) =
      (ofPartition p messages).filterMap chain.record? := by
  induction messages with
  | nil => rfl
  | cons x rest ih =>
    have shorter := ih fun y member => own y (List.mem_cons_of_mem _ member)
    have front : records chain (x :: rest) = (chain.record? x.2).toList ++ records chain rest :=
      filterMap_cons_toList
    rw [front, List.filter_append, shorter, ← List.singleton_append (l := rest),
      ofPartition_append, List.filterMap_append]
    congr 1
    have mine := own x List.mem_cons_self
    cases decoded : chain.record? x.2 with
    | none => by_cases here : x.1 = p <;> simp [ofPartition, here, decoded]
    | some r =>
      have partition := Chain.record_partition (Chain.ok_of_record? decoded)
      by_cases here : x.1 = p <;> simp [ofPartition, here, decoded, partition, mine]

end

/-- The messages that entered the funnel are those dealt with and those that are pending. -/
structure Drain.Flow (chain : Chain) (phase : Drain.Phase) (c : Coordination) (f : Funnel)
    (events : List Event) (dealt pending : List (Int × Message)) : Prop where
  entered : forwarded events = dealt ++ pending
  written : emitted events = records chain dealt
  decoded : c.firstError = none → ∀ x ∈ dealt, ∃ r, chain.record x.2 = .ok r
  place : match phase with
    | .direct hand _ => pending.map (·.2) = hand.toList ++ f.queue
    | .finished (.ok _) => c.closing = true ∨ pending = []
    | .finished (.error _) => True
    | _ => False

namespace Drain.Flow

variable {chain : Chain} {c : Coordination} {f : Funnel} {events fs : List Event}
  {dealt pending : List (Int × Message)}

section
variable {κ : Type} [Sink κ] {d : Drain κ} {o : Outcome κ}

/-- The message in hand is the first one that is pending. -/
theorem in_hand {m : Message} {n : Nat}
    (h : Flow chain (.direct (some m) n) c f events dealt pending) :
    ∃ p rest, pending = (p, m) :: rest ∧ rest.map (·.2) = f.queue := by
  have place := h.place
  cases pending with
  | nil => simp at place
  | cons x rest =>
    simp only [List.map_cons, Option.toList_some, List.cons_append, List.nil_append,
      List.cons.injEq] at place
    exact ⟨x.1, rest, by rw [← place.1], place.2⟩

/-- The message in hand is dealt with. If it cannot be decoded there is a first error from then
on. -/
theorem deal {m : Message} {n n' : Nat} {c' : Coordination}
    (h : Flow chain (.direct (some m) n) c f events dealt pending) (none_sent : forwarded fs = [])
    (written : emitted fs = (chain.record? m).toList)
    (decoded : c'.firstError = none → c.firstError = none ∧ ∃ r, chain.record m = .ok r) :
    ∃ dealt pending, Flow chain (.direct none n') c' f (events ++ fs) dealt pending := by
  obtain ⟨p, rest, rfl, queue⟩ := h.in_hand
  refine ⟨dealt ++ [(p, m)], rest, ?_, ?_, ?_, queue⟩
  · simp [none_sent, h.entered]
  · rw [emitted_append, written, h.written, records_append]
    congr 1
  · intro free x member
    obtain ⟨free_before, good⟩ := decoded free
    rcases List.mem_append.mp member with old | new
    · exact h.decoded free_before x old
    · obtain rfl := List.mem_singleton.mp new
      exact good

theorem drain (h : Flow chain d.phase c f events dealt pending) (same : d.chain = chain)
    (step : Step d c f o) :
    ∃ dealt pending, Flow chain o.drain.phase o.coordination o.funnel (events ++ o.events)
      dealt pending := by
  subst same
  cases step with
  | wrote phase decoded taken =>
    rw [phase] at h
    exact h.deal rfl (by simp [Chain.record?_of_ok decoded]) fun free => ⟨free, _, decoded⟩
  | refused phase decoded broken =>
    exact ⟨dealt, pending, by simp [h.entered], by simp [h.written], h.decoded, trivial⟩
  | undecodableFirst phase failed free =>
    rw [phase] at h
    exact h.deal rfl (by simp [Chain.record?_of_error failed]) fun impossible => by cases impossible
  | undecodableLater phase failed taken =>
    rw [phase] at h
    apply h.deal rfl (by simp [Chain.record?_of_error failed])
    intro free
    rw [taken] at free
    cases free
  | halted phase closing =>
    exact ⟨dealt, pending, by simp [h.entered], by simp [h.written], h.decoded, .inl closing⟩
  | took phase going queue =>
    rw [phase] at h
    have place := h.place
    refine ⟨dealt, pending, by simp [h.entered], by simp [h.written], h.decoded, ?_⟩
    simpa [queue] using place
  | ended phase going queue closed =>
    rw [phase] at h
    have place := h.place
    refine ⟨dealt, pending, by simp [h.entered], by simp [h.written], h.decoded, .inr ?_⟩
    simpa [queue] using place
  | kept phase =>
    rw [phase] at h
    exact h.place.elim
  | collected phase =>
    rw [phase] at h
    exact h.place.elim
  | wroteKept phase =>
    rw [phase] at h
    exact h.place.elim
  | refusedKept phase =>
    rw [phase] at h
    exact h.place.elim
  | undecodableKept phase =>
    rw [phase] at h
    exact h.place.elim
  | emptied phase =>
    rw [phase] at h
    exact h.place.elim

end

section
variable {σ ρ : Type} [Client σ ρ] {s t : Supervision σ ρ} {a : Supervision.Action σ}
  {phase : Phase}

theorem supervise (h : Flow chain phase s.coordination s.funnel events dealt pending)
    (listening : phase.Listening s.coordination s.funnel) (step : Supervision.Step s a fs t)
    (not_take : a ≠ .take) (not_drop : a ≠ .dropReceiver) :
    ∃ pending, Flow chain phase t.coordination t.funnel (events ++ fs) dealt pending := by
  have written : emitted (events ++ fs) = records chain dealt := by
    rw [emitted_append, step.emitted_eq, List.append_nil, h.written]
  have decoded (free : t.coordination.firstError = none) :
      ∀ x ∈ dealt, ∃ r, chain.record x.2 = .ok r := by
    refine h.decoded ?_
    cases first : s.coordination.firstError with
    | none => rfl
    | some e =>
      rw [step.firstError_eq first] at free
      cases free
  have place := h.place
  obtain ⟨_, ⟨none_sent, queue⟩ | ⟨x, sent, queue, receiving⟩⟩ := step.queue_eq not_take not_drop
  · refine ⟨pending, by rw [forwarded_append, none_sent, List.append_nil, h.entered], written,
      decoded, ?_⟩
    cases phase with
    | direct hand n => exact queue ▸ place
    | finished result =>
      cases result with
      | ok n => exact place.imp_left step.closing_mono
      | error e => trivial
    | collecting => exact place.elim
    | emptying => exact place.elim
  · refine ⟨pending ++ [x], by rw [forwarded_append, sent, h.entered, List.append_assoc], written,
      decoded, ?_⟩
    cases phase with
    | direct hand n => rw [queue, List.map_append, place, List.append_assoc, List.map_singleton]
    | finished result =>
      cases result with
      | ok n =>
        rw [listening.1] at receiving
        cases receiving
      | error e => trivial
    | collecting => exact place.elim
    | emptying => exact place.elim

end

/-- A run that closes by itself leaves the messages where they are. -/
theorem shut {phase : Phase} (h : Flow chain phase c f events dealt pending) :
    Flow chain phase c.shutdown f (events ++ [.closing]) dealt pending := by
  refine ⟨by simp [h.entered], by simp [h.written], h.decoded, ?_⟩
  have place := h.place
  cases phase with
  | finished result =>
    cases result with
    | ok n => exact .inl rfl
    | error e => trivial
  | direct => exact place
  | collecting => exact place
  | emptying => exact place

end Drain.Flow

namespace Run

variable {σ ρ κ : Type} [Client σ ρ] [Sink κ] {request : Request} {chain : Chain} {client : σ}
  {sink : κ} {actions : List (Action σ)} {events : List Event} {r s t : Run σ ρ κ}

/-- What a run without a tail knows of its messages. -/
def Flows (chain : Chain) (r : Run σ ρ κ) (events : List Event) : Prop :=
  r.drain.chain = chain ∧ ∃ dealt pending,
    Drain.Flow chain r.drain.phase r.supervision.coordination r.supervision.funnel events dealt
      pending

omit [Sink κ] in
theorem flows_begin (direct : request.tail = none) :
    Flows chain (begin request chain client sink : Run σ ρ κ) [] := by
  obtain ⟨client', stage, opening, same⟩ := begin_cases (ρ := ρ) request chain client sink
  rw [same, direct]
  exact ⟨rfl, [], [], rfl, rfl, by simp, rfl⟩

theorem Flows.step {a : Action σ} {fs : List Event} (h : r.Flows chain events)
    (accounts : r.Accounts events) (step : Step r a fs t) : t.Flows chain (events ++ fs) := by
  obtain ⟨same, dealt, pending, flow⟩ := h
  cases step with
  | supervised allowed step =>
    obtain ⟨pending, flow⟩ := flow.supervise accounts.listening step
      (by rintro rfl; cases allowed) (by rintro rfl; cases allowed)
    exact ⟨same, dealt, pending, flow⟩
  | drained active step =>
    refine ⟨?_, flow.drain same step⟩
    rw [← same]
    cases step <;> rfl
  | outputFailed stage result => exact ⟨same, dealt, pending, flow.shut⟩
  | returned stage finished => exact ⟨same, dealt, pending, flow.shut⟩
  | _ => exact ⟨same, dealt, pending, by simpa using flow⟩

theorem flows_of_reaches (direct : request.tail = none)
    (run : Reaches Moves (begin request chain client sink) actions events r) :
    r.Flows chain events := by
  induction run with
  | refl => exact flows_begin direct
  | next before move ih => exact ih.step (accounts_of_reaches before) (step_cases move)

end Run
end TopicReader
