import TopicReader.Output.Sink

/-! What reaches a writer that takes so many bytes in all. However the writer divides them among the
calls, it ends up as the pipe that was given them at once, and so it does not matter in which pieces a
record is written. -/
namespace TopicReader

namespace Pipe

variable {p : Pipe} {bytes more : Bytes} {n : Nat}

/-- Whether a pipe takes all of some bytes. -/
def Fits (p : Pipe) (bytes : Bytes) : Prop := p.fitting bytes = bytes

instance : Decidable (p.Fits bytes) := inferInstanceAs (Decidable (_ = _))

theorem fits_of_limitless (limitless : p.room = none) (bytes : Bytes) : p.Fits bytes := by
  simp [Fits, fitting, limitless]

theorem fits_iff_of_limited (limited : p.room = some n) : p.Fits bytes ↔ bytes.length ≤ n := by
  simp only [Fits, fitting, limited]
  constructor
  · intro whole
    rw [← whole]
    exact List.length_take_le _ _
  · exact List.take_of_length_le

@[simp] theorem fits_nil : p.Fits [] := by
  cases room : p.room <;> simp [Fits, fitting, room]

@[simp] theorem receive_nil : p.receive [] = p := by
  cases p with
  | mk room flushable written flushes => cases room <;> simp [receive, fitting]

theorem receive_append : p.receive (bytes ++ more) = (p.receive bytes).receive more := by
  cases p with
  | mk room flushable written flushes =>
    cases room with
    | none => simp [receive, fitting]
    | some room => simp [receive, fitting, List.take_append, Nat.sub_sub]

theorem fits_append : p.Fits (bytes ++ more) ↔ p.Fits bytes ∧ (p.receive bytes).Fits more := by
  cases room : p.room with
  | none => simp [fits_of_limitless, receive, room]
  | some n =>
    have rest : (p.receive bytes).room = some (n - bytes.length) := by simp [receive, room]
    rw [fits_iff_of_limited room, fits_iff_of_limited room, fits_iff_of_limited rest,
      List.length_append]
    omega

theorem receive_of_full (full : p.room = some 0) : p.receive bytes = p := by
  cases p with
  | mk room flushable written flushes =>
    cases full
    simp [receive, fitting]

/-- Once bytes did not fit, nothing more is received. -/
theorem receive_append_of_not_fits (cut : ¬p.Fits bytes) :
    p.receive (bytes ++ more) = p.receive bytes := by
  rw [receive_append]
  apply receive_of_full
  cases room : p.room with
  | none => exact absurd (fits_of_limitless room bytes) cut
  | some n =>
    rw [fits_iff_of_limited room] at cut
    simp only [receive, room, Option.map_some, Option.some.injEq]
    omega

theorem take_length_fitting : bytes.take (p.fitting bytes).length = p.fitting bytes := by
  cases room : p.room with
  | none => simp [fitting, room]
  | some n => simp [fitting, room, List.take_eq_take_iff]

theorem length_fitting_pos (some : bytes ≠ []) (available : p.room ≠ .some 0) :
    0 < (p.fitting bytes).length := by
  have positive := List.length_pos_iff.mpr some
  cases room : p.room with
  | none => simpa [fitting, room] using positive
  | some n =>
    have left : n ≠ 0 := fun zero => available (room.trans (congrArg _ zero))
    simp only [fitting, room, List.length_take]
    omega

theorem fits_fitting : p.Fits (p.fitting bytes) := by
  cases room : p.room with
  | none => exact fits_of_limitless room _
  | some n =>
    rw [fits_iff_of_limited room]
    simp only [fitting, room]
    exact List.length_take_le _ _

theorem receive_fitting : p.receive (p.fitting bytes) = p.receive bytes := by
  cases p with
  | mk room flushable written flushes =>
    cases room with
    | none => rfl
    | some room =>
      have same : room - min room bytes.length = room - bytes.length := by omega
      simp [receive, fitting, same, List.take_take]

/-- A pipe that was flushed some more times. -/
def flushed (p : Pipe) (times : Nat) : Pipe := { p with flushes := p.flushes + times }

theorem flushed_flushed {more : Nat} : (p.flushed n).flushed more = p.flushed (n + more) := by
  simp [flushed, Nat.add_assoc]

@[simp] theorem receive_flushed : (p.flushed n).receive bytes = (p.receive bytes).flushed n := rfl

theorem flush_run (flushable : p.flushable = true) : flush.run p = (.ok (), p.flushed 1) := by
  cases p with
  | mk room flushable written flushes =>
    cases flushable
    rfl

end Pipe

namespace Writer

/-- The answers that a writer may give when it is handed bytes and stands as a pipe does: it takes some
of those that fit, is interrupted, or is full and fails. -/
inductive Answers {ω : Type} (fault : OutputError) (stands : ω → Pipe → Prop) (p : Pipe)
    (bytes : Bytes) : WriterAnswer × ω → Prop where
  | took {count : Nat} {next : ω} (some : 0 < count) (fits : p.Fits (bytes.take count))
      (received : stands next (p.receive (bytes.take count))) :
      Answers fault stands p bytes (.took count, next)
  | interrupted {next : ω} (same : stands next p) : Answers fault stands p bytes (.interrupted, next)
  | failed {next : ω} (full : p.room = some 0) (same : stands next p) :
      Answers fault stands p bytes (.failed fault, next)

/-- Writers that take so many bytes in all and then fail with an error of their own. Such a writer
`stands` as a pipe that has received the same bytes, was flushed as often and has as much room. -/
structure ActsAs {ω : Type} [Writer ω] (fault : OutputError) (stands : ω → Pipe → Prop) :
    Prop where
  write {w : ω} {p : Pipe} {bytes : Bytes} : stands w p → bytes ≠ [] →
    Answers fault stands p bytes ((Writer.write bytes).run w)
  flush {w : ω} {p : Pipe} : stands w p → p.flushable = true →
    ∃ next, (Writer.flush (ω := ω)).run w = (.ok (), next) ∧
      stands next (p.flushed 1)

/-- Writing that hands over some bytes in all, in whatever pieces. -/
def Writes {ω : Type} (fault : OutputError) (stands : ω → Pipe → Prop)
    (act : ExceptT OutputError (StateM ω) Unit) (bytes : Bytes) : Prop :=
  ∀ w p, stands w p → ∃ next,
    act.run w = (if p.Fits bytes then .ok () else .error fault, next) ∧
      stands next (p.receive bytes)

section
variable {ω : Type} {w next : ω} {first second : ExceptT OutputError (StateM ω) Unit}

theorem run_seq (done : first.run w = (.ok (), next)) :
    (do first; second).run w = second.run next := by
  rw [ExceptT.run_bind]
  change StateT.bind first.run _ w = _
  unfold StateT.bind
  rw [done]
  rfl

theorem run_seq_of_error {e : OutputError} (failed : first.run w = (.error e, next)) :
    (do first; second).run w = (.error e, next) := by
  rw [ExceptT.run_bind]
  change StateT.bind first.run _ w = _
  unfold StateT.bind
  rw [failed]
  rfl

end

section
variable {ω : Type} {fault : OutputError} {stands : ω → Pipe → Prop}
  {first second : ExceptT OutputError (StateM ω) Unit} {bytes more : Bytes}

theorem Writes.nothing : Writes fault stands (pure ()) [] := by
  intro w p standing
  refine ⟨w, ?_, ?_⟩
  · rw [if_pos Pipe.fits_nil]
    rfl
  · rw [Pipe.receive_nil]
    exact standing

/-- What was cut off in the first part is not made up for in the second. -/
theorem Writes.seq (front : Writes fault stands first bytes)
    (back : Writes fault stands second more) :
    Writes fault stands (do first; second) (bytes ++ more) := by
  intro w p standing
  obtain ⟨middle, wrote, there⟩ := front w p standing
  by_cases fits : p.Fits bytes
  · obtain ⟨last, wroteMore, arrived⟩ := back middle _ there
    rw [if_pos fits] at wrote
    refine ⟨last, ?_, ?_⟩
    · rw [run_seq wrote, wroteMore]
      simp only [Pipe.fits_append, fits, true_and]
    · rw [Pipe.receive_append]
      exact arrived
  · rw [if_neg fits] at wrote
    refine ⟨middle, ?_, ?_⟩
    · rw [run_seq_of_error wrote, if_neg]
      intro both
      exact fits (Pipe.fits_append.mp both).1
    · rw [Pipe.receive_append_of_not_fits fits]
      exact there

end

section
variable {ω : Type} [Writer ω] {fault : OutputError} {stands : ω → Pipe → Prop}

/-- The loop of calls. A call that takes some of the bytes leaves the rest to the next one. -/
theorem ActsAs.give (acts : ActsAs fault stands) (bytes : Bytes) (w : ω) {p : Pipe}
    (standing : stands w p) :
    ∃ next, Writer.give bytes w = (if p.Fits bytes then .ok () else .error fault, next) ∧
      stands next (p.receive bytes) := by
  fun_induction Writer.give bytes w generalizing p with
  | case1 w =>
    refine ⟨w, ?_, ?_⟩
    · rw [if_pos Pipe.fits_nil]
    · rw [Pipe.receive_nil]
      exact standing
  | case2 bytes w some next answer =>
    have answered := acts.write standing some
    rw [answer] at answered
    cases answered with
    | took positive => exact absurd positive (Nat.lt_irrefl 0)
  | case3 bytes w some count next answer ih =>
    have answered := acts.write standing some
    rw [answer] at answered
    cases answered with
    | took _ fits received =>
      obtain ⟨last, given, arrived⟩ := ih received
      have parts : bytes.take (count + 1) ++ bytes.drop (count + 1) = bytes :=
        List.take_append_drop _ _
      have whole : p.Fits bytes ↔
          (p.receive (bytes.take (count + 1))).Fits (bytes.drop (count + 1)) := by
        rw [← Pipe.fits_append.trans (and_iff_right fits), parts]
      refine ⟨last, ?_, ?_⟩
      · rw [given]
        simp only [whole]
      · rw [← Pipe.receive_append, parts] at arrived
        exact arrived
  | case4 bytes w some next answer ih =>
    have answered := acts.write standing some
    rw [answer] at answered
    cases answered with
    | interrupted same => exact ih same
  | case5 bytes w some e next answer =>
    have answered := acts.write standing some
    rw [answer] at answered
    cases answered with
    | failed full same =>
      refine ⟨next, ?_, ?_⟩
      · rw [if_neg]
        intro fits
        exact some (List.length_eq_zero_iff.mp
          (Nat.le_zero.mp ((Pipe.fits_iff_of_limited full).mp fits)))
      · rw [Pipe.receive_of_full full]
        exact same

theorem ActsAs.writeAll (acts : ActsAs fault stands) (bytes : Bytes) :
    Writes fault stands (Writer.writeAll bytes) bytes := by
  intro w p standing
  exact acts.give bytes w standing

theorem ActsAs.writeEach (acts : ActsAs fault stands) (chunks : List Bytes) :
    Writes fault stands (Writer.writeEach chunks) chunks.flatten := by
  induction chunks with
  | nil => exact Writes.nothing
  | cons chunk chunks ih => exact Writes.seq (acts.writeAll chunk) ih

end

/-- A pipe acts as itself. -/
theorem pipe_actsAs : ActsAs Pipe.closed (Eq (α := Pipe)) where
  write {w p bytes} same some := by
    cases same
    change Answers _ _ w bytes ((Pipe.write bytes).run w)
    rw [Pipe.write_run]
    by_cases full : w.room = .some 0
    · rw [if_pos full]
      exact .failed full rfl
    · rw [if_neg full]
      refine .took ?_ ?_ ?_
      · exact Pipe.length_fitting_pos some full
      · rw [Pipe.take_length_fitting]
        exact Pipe.fits_fitting
      · rw [Pipe.take_length_fitting, Pipe.receive_fitting]
  flush {w p} same flushable := by
    cases same
    exact ⟨_, Pipe.flush_run flushable, rfl⟩

end Writer

namespace Layout

/-- What a record is written as. -/
def bytes (layout : Layout) (shown : Shown) (r : Record) : Bytes :=
  ((layout.pieces shown r).map Utf8.encode).flatten

/-- What records are written as, one after the other. -/
def rendered (layout : Layout) (shown : Shown) (records : List Record) : Bytes :=
  records.flatMap (layout.bytes shown)

@[simp] theorem rendered_nil {layout : Layout} {shown : Shown} : layout.rendered shown [] = [] := rfl

theorem rendered_cons {layout : Layout} {shown : Shown} {r : Record} {records : List Record} :
    layout.rendered shown (r :: records) = layout.bytes shown r ++ layout.rendered shown records :=
  List.flatMap_cons

end Layout

namespace Printer
open Writer (ActsAs Writes)

theorem adapt_adapt {ω ε η : Type} {f : ε → η} {g : η → ε} (back : ∀ e, g (f e) = e)
    (act : ExceptT ε (StateM ω) Unit) : (act.adapt f).adapt g = act := by
  funext w
  change ((Except.mapError g (Except.mapError f (act w).1), (act w).2) : Except ε Unit × ω) = act w
  cases act w with
  | mk result next =>
    cases result with
    | ok _ => rfl
    | error e => exact congrArg (fun e => (Except.error e, next)) (back e)

variable {ω : Type} [Writer ω] {fault : OutputError} {stands : ω → Pipe → Prop}

/-- An error of the writer gets through the serializer as it is. -/
theorem adapt_serialize (r : Record) :
    (serialize (ω := ω) r).adapt SerializerError.output =
      Writer.writeEach ((Layout.object r).map Utf8.encode) :=
  adapt_adapt (fun _ => rfl) _

/-- Printing writes the record and then flushes. -/
theorem print_writes (acts : ActsAs fault stands) (layout : Layout) (shown : Shown) (r : Record) :
    ∃ act, print layout shown r = (do act; Writer.flush) ∧
      Writes fault stands act (layout.bytes shown r) := by
  cases layout with
  | text => exact ⟨_, rfl, acts.writeEach _⟩
  | raw => exact ⟨_, rfl, acts.writeEach _⟩
  | json =>
    refine ⟨do
      Writer.writeEach ((Layout.object r).map Utf8.encode)
      Writer.writeAll (Utf8.encode "\n"), ?_, ?_⟩
    · simp only [print, adapt_serialize, bind_assoc]
    · have both := Writes.seq (acts.writeEach ((Layout.object r).map Utf8.encode))
        (acts.writeAll (Utf8.encode "\n"))
      simpa [Layout.bytes, Layout.pieces] using both

/-- What a pipe is after a record. One that was cut off is not flushed. -/
def printed (p : Pipe) (bytes : Bytes) : Pipe :=
  if p.Fits bytes then (p.receive bytes).flushed 1 else p.receive bytes

theorem print_run (acts : ActsAs fault stands) (layout : Layout) (shown : Shown) (r : Record) {w : ω}
    {p : Pipe} (standing : stands w p) (flushable : p.flushable = true) :
    ∃ next, (print layout shown r).run w =
        (if p.Fits (layout.bytes shown r) then .ok () else .error fault, next) ∧
      stands next (printed p (layout.bytes shown r)) := by
  obtain ⟨act, same, writes⟩ := print_writes acts layout shown r
  obtain ⟨next, wrote, there⟩ := writes w p standing
  rw [same, printed]
  by_cases fits : p.Fits (layout.bytes shown r)
  · rw [if_pos fits] at wrote ⊢
    rw [if_pos fits]
    obtain ⟨last, flushed, arrived⟩ := acts.flush there flushable
    exact ⟨last, (Writer.run_seq wrote).trans flushed, arrived⟩
  · rw [if_neg fits] at wrote ⊢
    rw [if_neg fits]
    exact ⟨next, Writer.run_seq_of_error wrote, there⟩

theorem emit_run (acts : ActsAs fault stands) (layout : Layout) (shown : Shown) (r : Record) {w : ω}
    {p : Pipe} (standing : stands w p) (flushable : p.flushable = true) :
    ∃ next, (Sink.emit r).run (⟨layout, shown, w⟩ : Printer ω) =
        (if p.Fits (layout.bytes shown r) then .ok () else .error fault, ⟨layout, shown, next⟩) ∧
      stands next (printed p (layout.bytes shown r)) := by
  obtain ⟨next, wrote, arrived⟩ := print_run acts layout shown r standing flushable
  refine ⟨next, ?_, arrived⟩
  change (((print layout shown r).run w).1,
    Printer.mk layout shown ((print layout shown r).run w).2) = _
  rw [wrote]

end Printer
end TopicReader
