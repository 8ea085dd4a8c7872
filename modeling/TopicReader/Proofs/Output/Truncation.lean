import TopicReader.Proofs.Output.Emission
import TopicReader.Proofs.Output.Writers

/-! What reaches a writer that breaks. Records are emitted until one is not taken, and what has arrived
by then is the beginning of what an unlimited writer would have received. -/
namespace TopicReader

namespace Printer
open Writer (ActsAs)

section
variable {ω : Type} {fault : OutputError} {stands : ω → Pipe → Prop} {p : Pipe}
  {layout : Layout} {shown : Shown} {records : List Record}

/-- How records were emitted to a writer that stood as the pipe `p`: all that fits arrived, and each
record that fits was flushed. Either all records fit, or the first one that does not ended it. -/
structure Emitted (fault : OutputError) (stands : ω → Pipe → Prop) (p : Pipe) (layout : Layout)
    (shown : Shown) (records : List Record) (out : Emission (Printer ω)) : Prop where
  arrived : stands out.sink.pipe ((p.receive (layout.rendered shown records)).flushed out.taken)
  fits : p.Fits (layout.rendered shown (records.take out.taken))
  ending : out.error = none ∧ out.taken = records.length ∨
    out.error = some fault ∧ out.taken < records.length ∧
      ¬p.Fits (layout.rendered shown (records.take (out.taken + 1)))

theorem emitAll_emitted [Writer ω] (acts : ActsAs fault stands) (records : List Record) {w : ω}
    (standing : stands w p) (flushable : p.flushable = true) :
    Emitted fault stands p layout shown records (Sink.emitAll ⟨layout, shown, w⟩ records) := by
  induction records generalizing w p with
  | nil =>
    refine ⟨?_, Pipe.fits_nil, .inl ⟨rfl, rfl⟩⟩
    rw [Layout.rendered_nil, Pipe.receive_nil]
    exact standing
  | cons r rest ih =>
    obtain ⟨next, given, there⟩ := emit_run acts layout shown r standing flushable
    by_cases fits : p.Fits (layout.bytes shown r)
    · rw [printed, if_pos fits] at there
      rw [if_pos fits] at given
      obtain ⟨arrived, laterFits, ending⟩ := ih there flushable
      rw [Sink.emitAll_cons_of_taken given]
      refine ⟨?_, ?_, ?_⟩
      · rw [Pipe.receive_flushed, Pipe.flushed_flushed, Nat.add_comm] at arrived
        rw [Layout.rendered_cons, Pipe.receive_append]
        exact arrived
      · rw [List.take_succ_cons, Layout.rendered_cons, Pipe.fits_append]
        exact ⟨fits, laterFits⟩
      · rcases ending with ⟨none, all⟩ | ⟨failed, short, cut⟩
        · exact .inl ⟨none, congrArg (· + 1) all⟩
        · refine .inr ⟨failed, Nat.succ_lt_succ short, ?_⟩
          rw [List.take_succ_cons, Layout.rendered_cons, Pipe.fits_append]
          intro both
          exact cut both.2
    · rw [printed, if_neg fits] at there
      rw [if_neg fits] at given
      rw [Sink.emitAll_cons_of_refused given]
      refine ⟨?_, Pipe.fits_nil, .inr ⟨rfl, Nat.zero_lt_succ _, ?_⟩⟩
      · rw [Layout.rendered_cons, Pipe.receive_append_of_not_fits fits]
        exact there
      · rw [List.take_succ_cons, List.take_zero, Layout.rendered_cons, Layout.rendered_nil,
          List.append_nil]
        exact fits

theorem length_rendered_take_le {k j : Nat} (before : k ≤ j) :
    (layout.rendered shown (records.take k)).length ≤
      (layout.rendered shown (records.take j)).length := by
  obtain ⟨rest, parts⟩ := List.take_prefix_take_left (l := records) before
  rw [← parts]
  simp [Layout.rendered]

/-- The records that were taken are those up to which all fits. -/
theorem Emitted.le_taken_iff {n k : Nat} {out : Emission (Printer ω)}
    (h : Emitted fault stands p layout shown records out) (limited : p.room = some n)
    (range : k ≤ records.length) :
    k ≤ out.taken ↔ (layout.rendered shown (records.take k)).length ≤ n := by
  constructor
  · intro taken
    exact Nat.le_trans (length_rendered_take_le taken) ((Pipe.fits_iff_of_limited limited).mp h.fits)
  · intro fits
    rcases h.ending with ⟨_, all⟩ | ⟨_, _, cut⟩
    · rw [all]
      exact range
    · rw [Pipe.fits_iff_of_limited limited] at cut
      apply Nat.le_of_not_lt
      intro later
      exact cut (Nat.le_trans (length_rendered_take_le later) fits)

theorem Emitted.taken_le {out : Emission (Printer ω)}
    (h : Emitted fault stands p layout shown records out) : out.taken ≤ records.length := by
  rcases h.ending with ⟨_, all⟩ | ⟨_, short, _⟩
  · exact Nat.le_of_eq all
  · exact Nat.le_of_lt short

theorem Emitted.error_eq {n : Nat} {out : Emission (Printer ω)}
    (h : Emitted fault stands p layout shown records out) (limited : p.room = some n) :
    out.error = if (layout.rendered shown records).length ≤ n then none else some fault := by
  have all := h.le_taken_iff limited (Nat.le_refl _)
  rw [List.take_length] at all
  rcases h.ending with ⟨none, taken⟩ | ⟨failed, short, _⟩
  · rw [if_pos (all.mp (Nat.le_of_eq taken.symm)), none]
  · rw [if_neg fun fits => Nat.not_le_of_lt short (all.mpr fits), failed]

theorem Emitted.error_eq_none {out : Emission (Printer ω)}
    (h : Emitted fault stands p layout shown records out) (limitless : p.room = none) :
    out.error = none := by
  rcases h.ending with ⟨none, _⟩ | ⟨_, _, cut⟩
  · exact none
  · exact absurd (Pipe.fits_of_limitless limitless _) cut

end

/-- A writer that takes a number of bytes leaves that beginning of the whole output. The first record
that does not fit fails with the writer's own error, and those before it are flushed. -/
theorem limited_writer_truncates {ω : Type} [Writer ω] {fault : OutputError}
    {stands : ω → Pipe → Prop} (acts : ActsAs fault stands) {w : ω} {n : Nat}
    (fresh : stands w { room := some n }) (layout : Layout) (shown : Shown)
    (records : List Record) :
    let whole := Sink.emitAll (⟨layout, shown, {}⟩ : Printer) records
    let out := Sink.emitAll (⟨layout, shown, w⟩ : Printer ω) records
    whole.error = none ∧ whole.sink.pipe.written = layout.rendered shown records ∧
      stands out.sink.pipe
        { room := some (n - whole.sink.pipe.written.length)
          written := whole.sink.pipe.written.take n
          flushes := out.taken } ∧
      out.taken ≤ records.length ∧
      (∀ k ≤ records.length,
        k ≤ out.taken ↔ (layout.rendered shown (records.take k)).length ≤ n) ∧
      out.error = if whole.sink.pipe.written.length ≤ n then none else some fault := by
  intro whole out
  have unlimited : Emitted Pipe.closed Eq {} layout shown records whole :=
    emitAll_emitted Writer.pipe_actsAs records rfl rfl
  have limited : Emitted fault stands { room := some n } layout shown records out :=
    emitAll_emitted acts records fresh rfl
  have written : whole.sink.pipe.written = layout.rendered shown records := by
    rw [unlimited.arrived]
    rfl
  rw [written]
  refine ⟨unlimited.error_eq_none rfl, rfl, ?_, limited.taken_le, ?_, limited.error_eq rfl⟩
  · simpa [Pipe.receive, Pipe.fitting, Pipe.flushed] using limited.arrived
  · intro k range
    exact limited.le_taken_iff rfl range

def bareRecords : List Record := [{ partition := 0, offset := 0 }, { partition := 0, offset := 1 }]

/-- Each of the two lines has 27 bytes. -/
theorem bare_cut_after_thirty :
    let out := Sink.emitAll (⟨.json, {}, { room := some 30 }⟩ : Printer) bareRecords
    out.taken = 1 ∧ out.error = some Pipe.closed ∧ out.sink.pipe.flushes = 1 ∧
      out.sink.pipe.written = (Layout.rendered .json {} bareRecords).take 30 := by
  obtain ⟨_, written, arrived, _, taken, error⟩ :=
    limited_writer_truncates Writer.pipe_actsAs (Eq.refl ({ room := some 30 } : Pipe)) .json {}
      bareRecords
  have first := (taken 1 (by decide)).mpr (by decide)
  have second := mt (taken 2 (by decide)).mp (by decide)
  have one := Nat.le_antisymm (Nat.le_of_not_lt second) first
  refine ⟨one, ?_, ?_, ?_⟩
  · rw [error, written]
    decide
  · rw [arrived, one]
  · rw [arrived, written]

end Printer

/-- At any time what the output of a run has left in such a writer is the beginning of what the records
would look like, of which at most the last one is cut off. The others were flushed, and the output has
been stopped by nothing but the writer's own error. -/
theorem Run.output_truncated {σ ρ ω : Type} [Client σ ρ] [Writer ω] {fault : OutputError}
    {stands : ω → Pipe → Prop} (acts : Writer.ActsAs fault stands) {w : ω} {n : Nat}
    (fresh : stands w { room := some n }) {layout : Layout} {shown : Shown} {request : Request}
    {chain : Chain} {client : σ} {actions : List (Action σ)} {events : List Event}
    {r : Run σ ρ (Printer ω)}
    (run : Reaches Moves (begin request chain client (⟨layout, shown, w⟩ : Printer ω)) actions
      events r) :
    ∃ cut : Option Record,
      let whole := layout.rendered shown (emitted events ++ cut.toList)
      stands r.drain.sink.pipe
        { room := some (n - whole.length)
          written := whole.take n
          flushes := (emitted events).length } ∧
      refusals events = (cut.map fun _ => fault).toList := by
  obtain ⟨failure, refused, emission⟩ := emission_of_reaches run
  have stopped : Printer.Emitted fault stands _ layout shown _ _ :=
    Printer.emitAll_emitted acts (emitted events ++ (failure.map (·.1)).toList) fresh rfl
  rw [emission] at stopped
  refine ⟨failure.map (·.1), ?_, ?_⟩
  · simpa [Pipe.receive, Pipe.fitting, Pipe.flushed] using stopped.arrived
  · rw [refused]
    rcases stopped.ending with ⟨none, _⟩ | ⟨failed, _, _⟩
    · cases failure with
      | none => rfl
      | some lost => cases none
    · cases failure with
      | none => cases failed
      | some lost =>
        cases failed
        rfl

end TopicReader
