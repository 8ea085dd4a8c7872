import TopicReader.Engine.Supervision

/-! The reading of one partition by itself. There are no other partitions, no funnel that may be full
and no clock: a reader answers each request after some time or never, and nobody waits longer than
the idle window. -/
namespace TopicReader

/-- How far the reading of a partition has come. -/
inductive Fate where
  /-- There is nothing to read, or no reader. -/
  | unread
  | reading
  | stopped (reason : StopReason)
  | crashed
  deriving DecidableEq, Repr

namespace Worker.Phase

variable {ρ : Type} {phase : Phase ρ}

/-- How far a worker has come with its partition. -/
def fate : Phase ρ → Fate
  | .receiving _ _ | .sending _ _ => .reading
  | .stopped reason => .stopped reason
  | .crashed _ => .crashed

theorem fate_eq_stopped {reason : StopReason} :
    phase.fate = .stopped reason ↔ phase = .stopped reason := by
  cases phase <;> simp [fate]

end Worker.Phase

/-- A partition by itself: what its readers answer to a request, how long a silence is borne, and
what is to be read. -/
structure Solo (ρ : Type) where
  answers : ρ → Option (Response ρ)
  idle : Option Nat
  bound : Bound

namespace Solo

variable {ρ : Type} (p : Solo ρ)

/-- The answer to a request, unless the silence before it lasts too long. -/
def heard (reader : ρ) : Option (Response ρ) :=
  (p.answers reader).filter fun r => p.idle.all (r.delay ≤ ·)

/-- What is sent after at most `n` requests to a reader, and how far the reading has come by then. -/
def reads : Nat → ρ → List Message × Fate
  | 0, _ => ([], .reading)
  | n + 1, reader =>
    match p.heard reader with
    | none => ([], if p.idle.isSome then .stopped .idle else .reading)
    | some r =>
      match r.delivery with
      | .message m =>
        if p.bound.reachedBy m.offset then ([m], .stopped .boundaryReached)
        else (m :: (reads n r.reader).1, (reads n r.reader).2)
      | .ended => ([], .stopped .exhausted)
      | .failed _ => ([], .stopped .readerFailed)
      | .crashed => ([], .crashed)

/-- The course of the reading, from the opening of the reader on. -/
def course (opening : Opening ρ) (n : Nat) : List Message × Fate :=
  match opening with
  | .opened reader => if p.bound.isEmpty then ([], .unread) else p.reads n reader
  | _ => ([], .unread)

/-- The reader that `start` has become after some messages, none of which was the last one to be
read. -/
inductive Sends (start : ρ) : List Message → ρ → Prop where
  | begins : Sends start [] start
  | next {sent reader r m} : Sends start sent reader → p.heard reader = some r →
      r.delivery = .message m → p.bound.reachedBy m.offset = false →
        Sends start (sent ++ [m]) r.reader

/-- The reading comes to an end once some messages have been sent. -/
def Ends (start : ρ) (sent : List Message) (fate : Fate) : Prop :=
  ∀ n, sent.length < n → p.reads n start = (sent, fate)

variable {p} {start reader : ρ} {sent : List Message} {r : Response ρ} {m : Message}

/-- After some messages the reading goes on as it would with the reader that is left. -/
theorem reads_of_sends (h : p.Sends start sent reader) (n : Nat) :
    p.reads (sent.length + n) start = (sent ++ (p.reads n reader).1, (p.reads n reader).2) := by
  induction h generalizing n with
  | begins => simp
  | @next sent reader r m before heard message within ih =>
    have more : (sent ++ [m]).length + n = sent.length + (n + 1) := by
      simp only [List.length_append, List.length_singleton]
      omega
    rw [more, ih (n + 1), reads, heard]
    simp [message, within]

theorem reads_of_sends_length (h : p.Sends start sent reader) :
    p.reads sent.length start = (sent, .reading) := by
  have all := reads_of_sends h 0
  simpa [reads] using all

/-- Where one more request brings the reading to an end, it ends. -/
theorem ends_of_sends (h : p.Sends start sent reader) {last : List Message} {fate : Fate}
    (finish : ∀ n, p.reads (n + 1) reader = (last, fate)) : p.Ends start (sent ++ last) fate := by
  intro n later
  rw [List.length_append] at later
  obtain ⟨k, rfl⟩ : ∃ k, n = sent.length + (k + 1) := ⟨n - sent.length - 1, by omega⟩
  rw [reads_of_sends h, finish]

theorem ends_at (h : p.Sends start sent reader) {fate : Fate}
    (finish : ∀ n, p.reads (n + 1) reader = ([], fate)) : p.Ends start sent fate := by
  have ends := ends_of_sends h finish
  rwa [List.append_nil] at ends

theorem ends_boundary (h : p.Sends start sent reader) (heard : p.heard reader = some r)
    (message : r.delivery = .message m) (last : p.bound.reachedBy m.offset = true) :
    p.Ends start (sent ++ [m]) (.stopped .boundaryReached) :=
  ends_of_sends h (by simp [reads, heard, message, last])

theorem ends_exhausted (h : p.Sends start sent reader) (heard : p.heard reader = some r)
    (ended : r.delivery = .ended) : p.Ends start sent (.stopped .exhausted) :=
  ends_at h (by simp [reads, heard, ended])

theorem ends_failed (h : p.Sends start sent reader) (heard : p.heard reader = some r)
    {e : RunError} (failed : r.delivery = .failed e) :
    p.Ends start sent (.stopped .readerFailed) :=
  ends_at h (by simp [reads, heard, failed])

theorem ends_crashed (h : p.Sends start sent reader) (heard : p.heard reader = some r)
    (crashed : r.delivery = .crashed) : p.Ends start sent .crashed :=
  ends_at h (by simp [reads, heard, crashed])

theorem ends_idle (h : p.Sends start sent reader) (unheard : p.heard reader = none)
    (window : p.idle.isSome = true) : p.Ends start sent (.stopped .idle) :=
  ends_at h (by simp [reads, unheard, window])

/-- A reader that never answers keeps the reading where it is if its silence is borne. -/
theorem reads_of_silent (h : p.Sends start sent reader) (silent : p.answers reader = none)
    (patient : p.idle = none) {n : Nat} (later : sent.length ≤ n) :
    p.reads n start = (sent, .reading) := by
  obtain ⟨k, rfl⟩ := Nat.exists_eq_add_of_le later
  rw [reads_of_sends h]
  cases k with
  | zero => simp [reads]
  | succ k => simp [reads, heard, silent, patient]

end Solo
end TopicReader
