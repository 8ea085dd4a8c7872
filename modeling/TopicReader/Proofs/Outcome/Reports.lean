import TopicReader.Proofs.Outcome.Verdict

/-! Where the errors of a run end up. Recording the first error tells nobody of it, since the run is
expected to return it; but if the sink fails afterwards, its failure is returned instead. One error
may be lost in this way, and no other. -/
namespace TopicReader

/-- What may go wrong once a run has begun its work. -/
inductive Mishap where
  | notOpened (error : RunError)
  | openerCrashed
  | readerFailed (error : RunError)
  | workerCrashed
  | undecodable (partition offset : Int) (error : DecodeError)
  | sinkFailed (error : OutputError)
  deriving DecidableEq, Repr

namespace Mishap

def error : Mishap → RunError
  | .notOpened e | .readerFailed e => e
  | .openerCrashed | .workerCrashed => Supervision.crashError
  | .undecodable partition offset e => .decoding partition offset e
  | .sinkFailed e => .output e

/-- Whether its error is only recorded. -/
def isQuiet : Mishap → Bool
  | .openerCrashed | .readerFailed _ | .workerCrashed => true
  | _ => false

end Mishap

section
variable {σ ρ κ : Type}

/-- What goes wrong in a step of the supervision. -/
def Supervision.mishap? [Client σ ρ] (s : Supervision σ ρ) : Action σ → Option Mishap
  | .openReader i =>
    match s.stage with
    | .opening waiting _ => waiting[i]?.bind fun b =>
      match (Client.openReader s.topic b.partition b.start s.client : Opening ρ × σ).1 with
      | .opened _ => none
      | .failed e => some (.notOpened e)
      | .crashed => some .openerCrashed
    | _ => none
  | .work i =>
    match s.workers[i]? with
    | some ⟨_, .receiving reader since⟩ =>
      if s.coordination.closing then none
      else (s.answer? reader since).bind fun r =>
        match r.delivery with
        | .failed e => some (.readerFailed e)
        | .crashed => some .workerCrashed
        | _ => none
    | _ => none
  | _ => none

/-- What goes wrong in a step of the output. -/
def Drain.mishap? [Sink κ] (d : Drain κ) : Option Mishap :=
  match d.phase with
  | .direct (some m) _ | .emptying (m :: _) _ =>
    match d.chain.record m with
    | .error e => some (.undecodable m.partition m.offset e)
    | .ok r =>
      match ((Sink.emit r).run d.sink).1 with
      | .error e => some (.sinkFailed e)
      | .ok _ => none
  | _ => none

namespace Run

variable [Client σ ρ] [Sink κ]

def mishap? (r : Run σ ρ κ) : Action σ → Option Mishap
  | .supervise a => r.supervision.mishap? a
  | .drain => r.drain.mishap?
  | .resolve _ | .settle => none

/-- What goes wrong while the actions are taken, in order. -/
def mishaps (r : Run σ ρ κ) : List (Action σ) → List Mishap
  | [] => []
  | a :: rest =>
    match r.step a with
    | some (t, _) => (r.mishap? a).toList ++ t.mishaps rest
    | none => []

theorem mishaps_cons {r s : Run σ ρ κ} {a : Action σ} {fs : List Event} (move : Moves r a fs s)
    (rest : List (Action σ)) : r.mishaps (a :: rest) = (r.mishap? a).toList ++ s.mishaps rest := by
  rw [mishaps, show r.step a = some (s, fs) from move]

theorem mishaps_append {r s : Run σ ρ κ} {actions : List (Action σ)} {events : List Event}
    (run : Reaches Moves r actions events s) (more : List (Action σ)) :
    r.mishaps (actions ++ more) = r.mishaps actions ++ s.mishaps more := by
  induction run generalizing more with
  | refl => rfl
  | @next actions events s a fs t before move ih =>
    rw [List.append_assoc, List.singleton_append, ih, mishaps_cons move, ih [a], mishaps_cons move,
      mishaps, List.append_nil, List.append_assoc]

end Run
end

/-- The error that a warning tells of. -/
def Warning.error? : Warning → Option RunError
  | .discarded e | .notStarted _ e => some e
  | .undecodable partition offset e => some (.decoding partition offset e)
  | .quiet _ => none

namespace Event

@[simp] def reported? : Event → Option RunError
  | .warned w => w.error?
  | _ => none

/-- The error that an event tells somebody of: whoever reads the log, or the output. -/
@[simp] def told? : Event → Option RunError
  | .warned w => w.error?
  | .refused e => some (.output e)
  | _ => none

end Event

/-- The errors that were reported in warnings, in order. -/
def reported (events : List Event) : List RunError := events.filterMap Event.reported?

def told (events : List Event) : List RunError := events.filterMap Event.told?

/-- The errors that a run makes known: the one that it returns, and those that it reported. -/
def surfaced (result : Except RunError Unit) (events : List Event) : List RunError :=
  match result with
  | .ok _ => reported events
  | .error e => e :: reported events

section
variable {e : Event} {es fs : List Event}

@[simp] theorem told_nil : told [] = [] := rfl

@[simp] theorem told_cons : told (e :: es) = e.told?.toList ++ told es := filterMap_cons_toList

@[simp] theorem told_append : told (es ++ fs) = told es ++ told fs := List.filterMap_append

@[simp] theorem told_recordEvents (c : Coordination) (e : RunError) :
    told (c.recordEvents e) = if c.isFree then [] else [e] := by
  by_cases free : c.isFree <;>
    simp [Coordination.recordEvents, Coordination.recordWarnings, Warning.error?, free]

/-- Somebody is told of an error by a warning or by the sink. -/
theorem count_told (x : RunError) :
    (told es).count x = (reported es).count x + ((refusals es).map RunError.output).count x := by
  induction es with
  | nil => rfl
  | cons e rest ih =>
    have head : e.told?.toList.count x =
        e.reported?.toList.count x + (e.refused?.toList.map RunError.output).count x := by
      cases e <;> simp
    rw [told_cons, refusals_cons, reported, filterMap_cons_toList, List.map_append,
      List.count_append, List.count_append, List.count_append, ih, head, reported]
    omega

/-- What was reported is known. -/
theorem count_reported_le {result : Except RunError Unit} (x : RunError) :
    (reported es).count x ≤ (surfaced result es).count x := by
  cases result with
  | ok _ => exact Nat.le_refl _
  | error e => exact List.count_le_count_cons

end

/-- The books of what has gone wrong: the errors are those that somebody was told of, those that
nobody has noticed yet, and one that may be lost. That one is the first error. It is lost only if
nothing but the record tells of it; or the output is about to end well, and the run returns it. -/
structure Books (seen : List Mishap) (halting : Prop) (c : Coordination) (told owed : List RunError)
    (lost : Option RunError) : Prop where
  covered : ∀ e, (seen.map Mishap.error).count e ≤
    told.count e + owed.count e + lost.toList.count e
  owing : ∀ e ∈ owed, halting ∨ ∃ x ∈ seen, x.isQuiet = true ∧ x.error = e
  kept : ∀ e, lost = some e →
    c.firstError = some e ∧ (halting ∨ ∃ x ∈ seen, x.isQuiet = true ∧ x.error = e)

namespace Books

variable {seen more : List Mishap} {halting halting' : Prop} {c c' : Coordination}
  {told telling owed owed' : List RunError} {lost : Option RunError}

/-- Every new error has been told, or is owed now. -/
theorem change (h : Books seen halting c told owed lost) (still : halting → halting')
    (first : ∀ e, c.firstError = some e → c'.firstError = some e)
    (balance : ∀ e, (more.map Mishap.error).count e + owed.count e ≤
      telling.count e + owed'.count e)
    (owing : ∀ e ∈ owed', e ∈ owed ∨ halting' ∨ ∃ x ∈ more, x.isQuiet = true ∧ x.error = e) :
    Books (seen ++ more) halting' c' (told ++ telling) owed' lost := by
  have excused {e : RunError} (old : halting ∨ ∃ x ∈ seen, x.isQuiet = true ∧ x.error = e) :
      halting' ∨ ∃ x ∈ seen ++ more, x.isQuiet = true ∧ x.error = e := by
    refine old.imp still ?_
    rintro ⟨x, member, rest⟩
    exact ⟨x, List.mem_append_left _ member, rest⟩
  refine ⟨?_, ?_, ?_⟩
  · intro e
    have before := h.covered e
    have now := balance e
    rw [List.map_append, List.count_append, List.count_append]
    omega
  · intro e member
    rcases owing e member with old | new
    · exact excused (h.owing e old)
    · refine new.imp_right ?_
      rintro ⟨x, member, rest⟩
      exact ⟨x, List.mem_append_right _ member, rest⟩
  · intro e same
    exact (h.kept e same).imp (first e) excused

/-- A mishap that somebody is told of at once, among other things. -/
theorem tell (h : Books seen halting c told owed lost) (still : halting → halting')
    (first : ∀ e, c.firstError = some e → c'.firstError = some e) (x : Mishap) :
    Books (seen ++ [x]) halting' c' (told ++ x.error :: telling) owed lost := by
  refine h.change still first ?_ fun _ => .inl
  intro e
  simp only [List.map_cons, List.map_nil, List.count_cons, List.count_nil]
  omega

/-- Nothing has gone wrong in between. -/
theorem mono (h : Books seen halting c told owed lost) (still : halting → halting')
    (first : ∀ e, c.firstError = some e → c'.firstError = some e) :
    Books seen halting' c' told owed lost :=
  ⟨h.covered, fun e member => (h.owing e member).imp_left still,
    fun e same => (h.kept e same).imp (first e) (Or.imp_left still)⟩

/-- The errors that are owed may be listed in another order. -/
theorem recount (h : Books seen halting c told owed lost)
    (same : ∀ e, owed'.count e = owed.count e) : Books seen halting c told owed' lost := by
  refine ⟨?_, ?_, h.kept⟩
  · intro e
    rw [same e]
    exact h.covered e
  · intro e member
    refine h.owing e (List.count_pos_iff.mp ?_)
    rw [← same e]
    exact List.count_pos_iff.mpr member

/-- A mishap that nobody has been told of is owed. -/
theorem incur (h : Books seen halting c told owed lost) (still : halting → halting') {x : Mishap}
    (excused : halting' ∨ x.isQuiet = true) :
    Books (seen ++ [x]) halting' c told (x.error :: owed) lost := by
  have books : Books (seen ++ [x]) halting' c (told ++ []) (x.error :: owed) lost := by
    refine h.change still (fun _ => id) ?_ ?_
    · intro e
      simp only [List.map_cons, List.map_nil, List.count_cons, List.count_nil]
      omega
    · intro e member
      rcases List.mem_cons.mp member with rfl | old
      · exact .inr (excused.imp_right fun quiet => ⟨x, List.mem_singleton_self x, quiet, rfl⟩)
      · exact .inl old
  rwa [List.append_nil] at books

/-- The first error to be recorded is kept, and nobody is told of it. -/
theorem lose {e : RunError} (h : Books seen halting c told (e :: owed) lost)
    (free : c.firstError = none) (first : c'.firstError = some e) :
    Books seen halting c' told owed (some e) := by
  have none_lost : lost = none := by
    refine Option.eq_none_iff_forall_not_mem.mpr ?_
    intro x same
    have slot := (h.kept x same).1
    rw [free] at slot
    cases slot
  refine ⟨?_, fun x member => h.owing x (List.mem_cons_of_mem e member), ?_⟩
  · intro x
    have before := h.covered x
    rw [none_lost, Option.toList_none, List.count_nil, List.count_cons] at before
    rw [Option.toList_some, List.count_singleton]
    omega
  · intro x same
    cases same
    exact ⟨first, h.owing e List.mem_cons_self⟩

/-- Recording an error that is owed tells of it, or keeps it. -/
theorem record {e : RunError} (h : Books seen halting c told (e :: owed) lost) :
    ∃ lost', Books seen halting (c.record e) (told ++ TopicReader.told (c.recordEvents e)) owed
      lost' := by
  rw [told_recordEvents]
  cases slot : c.firstError with
  | none =>
    have free : c.isFree = true := by simp [Coordination.isFree, slot]
    rw [if_pos free, List.append_nil]
    exact ⟨some e, h.lose slot (by simp [slot])⟩
  | some first =>
    have taken : c.isFree = false := by simp [Coordination.isFree, slot]
    rw [Coordination.record, taken]
    refine ⟨lost, ?_, fun x member => h.owing x (List.mem_cons_of_mem e member), h.kept⟩
    intro x
    have before := h.covered x
    rw [List.count_cons] at before
    rw [if_neg Bool.false_ne_true, List.count_append, List.count_singleton]
    omega

end Books

/-- The error of a crash that nobody has noticed. -/
def Worker.owed {ρ : Type} (w : Worker ρ) : List RunError :=
  match w.phase with
  | .crashed false => [Supervision.crashError]
  | _ => []

namespace Supervision

variable {σ ρ : Type}

def owed (s : Supervision σ ρ) : List RunError := s.workers.flatMap Worker.owed

theorem owed_of_finished {s : Supervision σ ρ} (finished : s.isFinished = true) : s.owed = [] := by
  refine List.flatMap_eq_nil_iff.mpr ?_
  intro w member
  have settled := (isFinished_iff.mp finished).2 w member
  cases phase : w.phase with
  | crashed noticed => cases noticed <;> simp_all [Worker.owed, Worker.isSettled]
  | _ => simp [Worker.owed, phase]

variable {s t : Supervision σ ρ} {i : Nat} {b : Bound} {old new : Worker.Phase ρ}

theorem count_owed (worker : s.workers[i]? = some ⟨b, old⟩)
    (workers : t.workers = s.workers.set i ⟨b, new⟩) (e : RunError) :
    t.owed.count e + (Worker.owed ⟨b, old⟩).count e =
      s.owed.count e + (Worker.owed ⟨b, new⟩).count e := by
  have moved := sum_set (b := ⟨b, new⟩) (fun w => (Worker.owed w).count e) worker
  simp only [owed, workers, List.count_flatMap]
  exact moved

/-- A worker that owes nothing before and after it has moved. -/
theorem owed_moved (worker : s.workers[i]? = some ⟨b, old⟩)
    (workers : t.workers = s.workers.set i ⟨b, new⟩) (before : Worker.owed ⟨b, old⟩ = [])
    (after : Worker.owed ⟨b, new⟩ = []) (e : RunError) : t.owed.count e = s.owed.count e := by
  have moved := count_owed worker workers e
  rw [before, after] at moved
  exact moved

variable [Client σ ρ] {a : Action σ} {fs : List Event} {seen : List Mishap} {halting : Prop}
  {known : List RunError} {lost : Option RunError}

/-- A step in which nothing goes wrong and nobody is told of anything. -/
theorem books_silent (h : Books seen halting s.coordination known s.owed lost)
    (fine : s.mishap? a = none) (untold : told fs = [])
    (first : t.coordination.firstError = s.coordination.firstError)
    (owes : ∀ e, t.owed.count e = s.owed.count e) :
    ∃ lost', Books (seen ++ (s.mishap? a).toList) halting t.coordination (known ++ told fs) t.owed
      lost' := by
  refine ⟨lost, (h.recount owes).change id (fun e slot => first.trans slot) ?_ fun _ => .inl⟩
  intro e
  rw [fine, untold]
  simp

/-- A step of the supervision keeps the books. -/
theorem Step.books (step : Step s a fs t) (h : Books seen halting s.coordination known s.owed lost) :
    ∃ lost', Books (seen ++ (s.mishap? a).toList) halting t.coordination (known ++ told fs) t.owed
      lost' := by
  have recorded (e x : RunError) (slot : s.coordination.firstError = some x) :
      (s.coordination.record e).firstError = some x := by
    simp [slot]
  cases step with
  | opened stage next answer =>
    exact books_silent h (by simp [mishap?, stage, next, answer]) rfl rfl fun _ => rfl
  | @openFailed i waiting done b e client stage next answer =>
    have wrong : s.mishap? (.openReader i) = some (.notOpened e) := by
      simp [mishap?, stage, next, answer]
    rw [wrong]
    exact ⟨lost, h.tell id (recorded e) (.notOpened e)⟩
  | @openCrashed i waiting done b client stage next answer =>
    have wrong : s.mishap? (.openReader i) = some .openerCrashed := by
      simp [mishap?, stage, next, answer]
    rw [wrong]
    exact (h.incur id (.inr rfl)).record
  | started stage =>
    refine books_silent h rfl rfl rfl ?_
    intro e
    simp [owed, Worker.owed]
  | allStarted stage => exact books_silent h rfl rfl rfl fun _ => rfl
  | delivered worker going answer message =>
    exact books_silent h (by simp [mishap?, worker, going, answer, message]) rfl rfl
      (owed_moved worker rfl rfl rfl)
  | exhausted worker going answer ended =>
    exact books_silent h (by simp [mishap?, worker, going, answer, ended]) rfl rfl
      (owed_moved worker rfl rfl rfl)
  | @readerFailed i b reader since r e worker going answer failed =>
    have wrong : s.mishap? (.work i) = some (.readerFailed e) := by
      simp [mishap?, worker, going, answer, failed]
    have untold : told (s.recordEvents e ++ [.stopped b.partition .readerFailed]) =
        told (s.recordEvents e) := by simp
    obtain ⟨lost', books⟩ := (h.incur (x := .readerFailed e) id (.inr rfl)).record
    rw [wrong, untold]
    exact ⟨lost', books.recount (owed_moved worker rfl rfl rfl)⟩
  | @workerCrashed i b reader since r worker going answer crashed =>
    have wrong : s.mishap? (.work i) = some .workerCrashed := by
      simp [mishap?, worker, going, answer, crashed]
    have untold : told [.crashed b.partition] = [] := rfl
    rw [wrong, untold, List.append_nil]
    refine ⟨lost, (h.incur (x := .workerCrashed) id (.inr rfl)).recount ?_⟩
    intro e
    have moved := count_owed (t := s.setWorker i b (.crashed false)) worker rfl e
    rw [← List.singleton_append, List.count_append, Nat.add_comm]
    exact moved
  | idled worker going silent late =>
    exact books_silent h (by simp [mishap?, worker, silent]) rfl rfl
      (owed_moved worker rfl rfl rfl)
  | sent worker =>
    exact books_silent h (by simp [mishap?, worker]) rfl rfl (owed_moved worker rfl rfl rfl)
  | boundaryReached worker =>
    exact books_silent h (by simp [mishap?, worker]) rfl rfl (owed_moved worker rfl rfl rfl)
  | funnelClosed worker =>
    exact books_silent h (by simp [mishap?, worker]) rfl rfl (owed_moved worker rfl rfl rfl)
  | stopsReceiving worker closing =>
    exact books_silent h (by simp [mishap?, worker, closing]) rfl rfl
      (owed_moved worker rfl rfl rfl)
  | stopsSending worker =>
    exact books_silent h (by simp [mishap?, worker]) rfl rfl (owed_moved worker rfl rfl rfl)
  | @joined i b worker =>
    have fine : s.mishap? (.join i) = none := rfl
    rw [fine, Option.toList_none, List.append_nil]
    refine Books.record (h.recount ?_)
    intro e
    have moved :=
      count_owed (t := (s.record crashError).setWorker i b (.crashed true)) worker rfl e
    rw [← List.singleton_append, List.count_append, Nat.add_comm]
    exact moved
  | _ => exact books_silent h rfl rfl rfl fun _ => rfl

end Supervision

namespace Drain

/-- Output that is about to end well, or has done so, in a run that is closing. -/
def Phase.Halting (c : Coordination) : Phase → Prop
  | .direct none _ | .finished (.ok _) => c.closing = true
  | _ => False

variable {c c' : Coordination}

theorem Phase.Halting.mono {phase : Phase} (h : phase.Halting c)
    (closing : c.closing = true → c'.closing = true) : phase.Halting c' := by
  unfold Phase.Halting at h ⊢
  split at h <;> first | exact closing h | cases h

variable {κ : Type} [Sink κ] {d : Drain κ} {f : Funnel} {o : Outcome κ} {seen : List Mishap}
  {known owed : List RunError} {lost : Option RunError}

theorem Step.halting (step : Step d c f o) (h : d.phase.Halting c) :
    o.drain.phase.Halting o.coordination := by
  cases step with
  | halted phase closing => exact closing
  | took phase going => simp [Phase.Halting, phase, going] at h
  | ended phase going => simp [Phase.Halting, phase, going] at h
  | _ => simp_all [Phase.Halting]

/-- A step of the output keeps the books. -/
theorem Step.books (step : Step d c f o) (h : Books seen (d.phase.Halting c) c known owed lost) :
    ∃ lost', Books (seen ++ d.mishap?.toList) (o.drain.phase.Halting o.coordination) o.coordination
      (known ++ told o.events) owed lost' := by
  have still := step.halting
  have silent {o : Outcome κ} (fine : d.mishap? = none) (untold : told o.events = [])
      (same : o.coordination = c)
      (still : d.phase.Halting c → o.drain.phase.Halting o.coordination) :
      ∃ lost', Books (seen ++ d.mishap?.toList) (o.drain.phase.Halting o.coordination)
        o.coordination (known ++ told o.events) owed lost' := by
    refine ⟨lost, h.change still (fun e slot => by rwa [same]) ?_ fun _ => .inl⟩
    intro e
    rw [fine, untold]
    simp
  cases step with
  | wrote phase decoded taken =>
    exact silent (by simp [mishap?, phase, decoded, taken]) rfl rfl still
  | @refused m n r e sink phase decoded broken =>
    have wrong : d.mishap? = some (.sinkFailed e) := by simp [mishap?, phase, decoded, broken]
    rw [wrong]
    exact ⟨lost, h.tell still (fun _ => id) (.sinkFailed e)⟩
  | @undecodableFirst m n e phase failed free =>
    have wrong : d.mishap? = some (.undecodable m.partition m.offset e) := by
      simp [mishap?, phase, failed]
    have untold : told [.recorded (.decoding m.partition m.offset e) true, .closing] = [] := rfl
    have owing := h.incur (x := .undecodable m.partition m.offset e) still (.inl rfl)
    rw [wrong, untold, List.append_nil]
    exact ⟨_, owing.lose free rfl⟩
  | @undecodableLater m n e first phase failed taken =>
    have wrong : d.mishap? = some (.undecodable m.partition m.offset e) := by
      simp [mishap?, phase, failed]
    rw [wrong]
    exact ⟨lost, h.tell still (fun _ => id) (.undecodable m.partition m.offset e)⟩
  | @undecodableKept m rest n e phase failed =>
    have wrong : d.mishap? = some (.undecodable m.partition m.offset e) := by
      simp [mishap?, phase, failed]
    have recorded (x : RunError) (slot : c.firstError = some x) :
        (c.record (.decoding m.partition m.offset e)).firstError = some x := by
      simp [slot]
    rw [wrong]
    exact ⟨lost, h.tell still recorded (.undecodable m.partition m.offset e)⟩
  | wroteKept phase decoded taken =>
    exact silent (by simp [mishap?, phase, decoded, taken]) rfl rfl still
  | @refusedKept m rest n r e sink phase decoded broken =>
    have wrong : d.mishap? = some (.sinkFailed e) := by simp [mishap?, phase, decoded, broken]
    rw [wrong]
    exact ⟨lost, h.tell still (fun _ => id) (.sinkFailed e)⟩
  | _ => exact silent (by simp [mishap?, *]) rfl rfl still

end Drain

namespace Run

variable {σ ρ κ : Type} [Client σ ρ] [Sink κ] {request : Request} {chain : Chain} {client : σ}
  {sink : κ} {actions : List (Action σ)} {events fs : List Event} {r s t : Run σ ρ κ}
  {a : Action σ} {seen : List Mishap} {known : List RunError}

/-- Whether the books of a run are in order, after the mishaps seen and with the errors known. -/
def Balanced (r : Run σ ρ κ) (seen : List Mishap) (known : List RunError)
    (lost : Option RunError) : Prop :=
  Books seen (r.drain.phase.Halting r.supervision.coordination) r.supervision.coordination known
    r.supervision.owed lost

/-- A step of a run keeps its books. -/
theorem Step.balanced {lost : Option RunError} (step : Step r a fs t)
    (h : r.Balanced seen known lost) :
    ∃ lost', t.Balanced (seen ++ (r.mishap? a).toList) (known ++ told fs) lost' := by
  have silent (phase : t.drain.phase = r.drain.phase)
      (closing : r.supervision.coordination.closing = true →
        t.supervision.coordination.closing = true)
      (first : t.supervision.coordination.firstError = r.supervision.coordination.firstError)
      (owed : t.supervision.owed = r.supervision.owed)
      (fine : r.mishap? a = none) (untold : told fs = []) :
      ∃ lost', t.Balanced (seen ++ (r.mishap? a).toList) (known ++ told fs) lost' := by
    rw [fine, untold, Option.toList_none, List.append_nil, List.append_nil]
    refine ⟨lost, ?_⟩
    unfold Balanced
    rw [owed, phase]
    exact h.mono (fun halts => halts.mono closing) fun e slot => first.trans slot
  cases step with
  | supervised allowed step =>
    obtain ⟨lost', books⟩ := Supervision.Step.books step h
    exact ⟨lost', books.mono (fun halts => halts.mono step.closing_mono) fun _ => id⟩
  | drained active step => exact step.books h
  | outputFailed => exact silent rfl (fun _ => rfl) rfl rfl rfl rfl
  | returned => exact silent rfl (fun _ => rfl) rfl rfl rfl rfl
  | _ => exact silent rfl id rfl rfl rfl rfl

theorem balanced_of_reaches
    (run : Reaches Moves (begin request chain client sink) actions events r) :
    ∃ lost, r.Balanced ((begin request chain client sink : Run σ ρ κ).mishaps actions) (told events)
      lost := by
  induction run with
  | refl =>
    obtain ⟨client', stage, opening, same⟩ := begin_cases (ρ := ρ) request chain client sink
    refine ⟨none, ?_, ?_, by simp⟩
    · intro e
      exact Nat.zero_le _
    · intro e member
      rw [same] at member
      cases member
  | @next actions events s a fs t before move ih =>
    obtain ⟨lost, balanced⟩ := ih
    have one : s.mishaps [a] = (s.mishap? a).toList := by
      rw [mishaps_cons move, mishaps, List.append_nil]
    rw [mishaps_append before, one, told_append]
    exact (step_cases move).balanced balanced

omit [Client σ ρ] [Sink κ] in
/-- What is known of a run that has returned: no crash went unnoticed, and if an error was recorded
or the sink failed, the result is what these call for. -/
theorem settled_of_returned (started : s.Unstarted events ∨ s.Started events)
    {result : Except RunError Unit} (returned : s.stage = .returned result) :
    s.supervision.owed = [] ∧ (recordings events = [] ∧ refusals events = [] ∨
      result = verdict (refusals events) ((recordings events).map (·.1))) := by
  rcases started with unstarted | active | ⟨finished, judged⟩
  · exact ⟨by simp [Supervision.owed, unstarted.idle], .inl ⟨unstarted.unrecorded, unstarted.unrefused⟩⟩
  · simp [isActive, returned] at active
  · rw [returned] at judged
    exact ⟨Supervision.owed_of_finished finished, .inr (Stage.returned.inj judged)⟩

/-- When a run returns, each of its errors is the one that it returns or was reported, except for one
at most. That one can be lost only if the sink has failed: it is the first error that was recorded,
and its reader failed or its worker or its opening crashed. -/
theorem errors_surface (run : Reaches Moves (begin request chain client sink) actions events s)
    {result : Except RunError Unit} (returned : s.result? = some result) :
    ∃ lost : Option RunError,
      (((begin request chain client sink : Run σ ρ κ).mishaps actions).map Mishap.error).Subperm
        (surfaced result events ++ lost.toList) ∧
      ∀ e, lost = some e → refusals events ≠ [] ∧
        s.supervision.coordination.firstError = some e ∧
        ∃ x ∈ (begin request chain client sink : Run σ ρ κ).mishaps actions,
          x.isQuiet = true ∧ x.error = e := by
  obtain ⟨lost, books⟩ := balanced_of_reaches run
  obtain ⟨holds, output⟩ := recordsFailures_of_reaches run
  obtain ⟨noticed, judged⟩ := settled_of_returned (started_of_reaches run)
    (stage_of_result? returned)
  have covered (e : RunError) := books.covered e
  simp only [noticed, List.count_nil, count_told] at covered
  cases refused : refusals events with
  | nil =>
    -- The first error is the result, so none is lost.
    refine ⟨none, List.subperm_ext_iff.mpr ?_, by simp⟩
    intro e _
    have listed := covered e
    simp only [refused, List.map_nil, List.count_nil, Option.toList_none, List.append_nil]
      at listed ⊢
    cases lost with
    | none =>
      have shown : (reported events).count e ≤ (surfaced result events).count e :=
        count_reported_le e
      simp only [Option.toList_none, List.count_nil] at listed
      omega
    | some first =>
      have slot := holds.firstError_eq.symm.trans (books.kept first rfl).1
      obtain ⟨recorded, head, rfl⟩ := Option.map_eq_some_iff.mp slot
      obtain ⟨rest, log⟩ := List.head?_eq_some_iff.mp head
      have decided : result = .error recorded.1 := by
        rcases judged with ⟨silent, _⟩ | judged
        · simp [silent] at log
        · rw [judged, refused, log]
          rfl
      simp only [decided, surfaced, List.count_cons, Option.toList_some, List.count_nil] at listed ⊢
      omega
  | cons x rest =>
    have failed : s.drain.phase = .finished (.error (.output x)) ∧ rest = [] := by
      rw [refused] at output
      unfold Drain.Phase.FailsWhenRefused at output
      split at output
      · rename_i phase
        obtain ⟨y, rfl, same⟩ := output
        cases same
        exact ⟨phase, rfl⟩
      · cases output
    obtain ⟨phase, rfl⟩ := failed
    have decided : result = .error (.output x) := by
      rcases judged with ⟨_, silent⟩ | judged
      · simp [silent] at refused
      · rw [judged, refused]
        rfl
    refine ⟨lost, List.subperm_ext_iff.mpr ?_, ?_⟩
    · intro e _
      have listed := covered e
      simp only [refused, decided, surfaced, List.map_cons, List.map_nil, List.count_append,
        List.count_cons, List.count_nil] at listed ⊢
      omega
    · intro e same
      obtain ⟨slot, excused⟩ := books.kept e same
      rw [phase] at excused
      exact ⟨by simp, slot, excused.resolve_left id⟩

/-- One partition cannot be opened, and the reader of the other one fails. -/
def unlucky : Script where
  parts := [
    { id := 0, oldest := some 0, newest := some 1, opens := .failing (.opening 0 "no leader") },
    { id := 1, oldest := some 0, newest := some 1,
      steps := [.deliver (.failed (.broker "reader lost"))] }]

def unluckyRun : Run Script (List Script.Step) Memory :=
  begin { topic := "t", fromBeginning := true } .default unlucky {}

/-- Its steps from the first bound to the end. -/
def giving : List (Action Script) :=
  [.resolve 0, .resolve 0, .supervise (.openReader 0), .supervise (.openReader 0),
    .supervise .start, .supervise .start, .supervise (.work 0), .drain, .settle, .settle]

/-- The first error is returned and the second one reported. -/
theorem unlucky_errors_surface :
    ∃ (s : Run Script (List Script.Step) Memory) (events : List Event),
      Reaches Moves unluckyRun giving events s ∧
      s.result? = some (.error (.opening 0 "no leader")) ∧
      List.Subperm [.opening 0 "no leader", .broker "reader lost"]
        (surfaced (.error (.opening 0 "no leader")) events) := by
  have replayed : (unluckyRun.replay giving).any (fun (s, events) =>
      s.result? = some (.error (.opening 0 "no leader")) && refusals events = []) = true := by
    cbv
  have wrong : (unluckyRun.mishaps giving).map Mishap.error =
      [.opening 0 "no leader", .broker "reader lost"] := by
    cbv
  obtain ⟨s, events, run, seen⟩ := exists_of_replay replayed
  simp only [Bool.and_eq_true, decide_eq_true_eq] at seen
  obtain ⟨returned, unrefused⟩ := seen
  obtain ⟨lost, listed, excused⟩ := errors_surface run returned
  have none_lost : lost = none :=
    Option.eq_none_iff_forall_not_mem.mpr fun e same => (excused e same).1 unrefused
  rw [none_lost, Option.toList_none, List.append_nil] at listed
  exact ⟨s, events, run, returned, wrong ▸ listed⟩

/-- A reader has failed, and the sink after it: nobody learns what the error of the reader was. -/
theorem reader_error_lost :
    ∃ (s : Run Script (List Script.Step) (Fragile Memory)) (events : List Event)
      (result : Except RunError Unit),
      Reaches Moves refusing (finding ++ failing) events s ∧ s.result? = some result ∧
      .readerFailed (.broker "reader lost") ∈ refusing.mishaps (finding ++ failing) ∧
      .broker "reader lost" ∉ surfaced result events := by
  have replayed : (refusing.replay (finding ++ failing)).any (fun (s, events) =>
      s.result? = some (.error (.output Pipe.closed)) && reported events = []) = true := by
    cbv
  have wrong : refusing.mishaps (finding ++ failing) =
      [.readerFailed (.broker "reader lost"), .sinkFailed Pipe.closed] := by
    cbv
  obtain ⟨s, events, run, seen⟩ := exists_of_replay replayed
  simp only [Bool.and_eq_true, decide_eq_true_eq] at seen
  obtain ⟨returned, unreported⟩ := seen
  refine ⟨s, events, _, run, returned, by simp [wrong], ?_⟩
  simp [surfaced, unreported]

end Run
end TopicReader
