import TopicReader.Engine.Supervision
import TopicReader.Proofs.Client.Calls

/-! How the reading of a partition stands, and how it ends. Each standing accounts for the calls
that the client got, the errors that were recorded, the crashes and the reasons for stopping, so the
books of a supervision are right if its partitions together account for all of them. -/
namespace TopicReader

/-- What the reading of partitions leaves behind: calls to the client, errors that were recorded,
partitions whose workers crashed, and the reasons why workers stopped. -/
structure Account where
  calls : List Call := []
  errors : List RunError := []
  crashes : List Int := []
  stops : List (Int × StopReason) := []

instance : Append Account where
  append a b :=
    ⟨a.calls ++ b.calls, a.errors ++ b.errors, a.crashes ++ b.crashes, a.stops ++ b.stops⟩

/-- How the reading of a partition ends. -/
inductive Ending where
  /-- No reader could be opened. -/
  | refused (error : RunError)
  /-- The opening of its reader crashed. -/
  | openingCrashed
  /-- Its worker crashed. -/
  | crashed
  /-- Its worker stopped because its reader failed. -/
  | failed (error : RunError)
  /-- Its worker stopped, and its reader had not failed. -/
  | stopped (reason : StopReason) (other : reason ≠ .readerFailed)

/-- Each reading has asked once for a reader. Only a worker that stops closes it, and has a
reason. -/
def Ending.account (topic : String) (b : Bound) : Ending → Account
  | .refused e => { calls := [.openReader topic b.partition b.start (.failed e)], errors := [e] }
  | .openingCrashed =>
    { calls := [.openReader topic b.partition b.start .crashed]
      errors := [Supervision.crashError] }
  | .crashed =>
    { calls := [.openReader topic b.partition b.start (.opened ())]
      errors := [Supervision.crashError]
      crashes := [b.partition] }
  | .failed e =>
    { calls := [.openReader topic b.partition b.start (.opened ()), .closeReader b.partition]
      errors := [e]
      stops := [(b.partition, .readerFailed)] }
  | .stopped reason _ =>
    { calls := [.openReader topic b.partition b.start (.opened ()), .closeReader b.partition]
      stops := [(b.partition, reason)] }

/-- How the reading of a partition stands. -/
inductive Standing where
  /-- Its reader has not been opened. -/
  | waiting
  /-- Its reader is open. -/
  | reading
  /-- Its worker crashed, which nobody has noticed yet. -/
  | lost
  | ended (ending : Ending)

namespace Standing

def account (topic : String) (b : Bound) : Standing → Account
  | .waiting => {}
  | .reading => { calls := [.openReader topic b.partition b.start (.opened ())] }
  | .lost =>
    { calls := [.openReader topic b.partition b.start (.opened ())], crashes := [b.partition] }
  | .ended ending => ending.account topic b

theorem partition_of_call (topic : String) (b : Bound) (x : Standing) :
    ∀ c ∈ (x.account topic b).calls, c.partition? = some b.partition := by
  cases x with
  | ended e => cases e <;> simp [account, Ending.account, Call.partition?]
  | _ => simp [account, Call.partition?]

end Standing

/-- The calls on each partition are those that its standing accounts for, and so are all errors,
crashes and stops. -/
structure Audit (topic : String) (standings : List (Bound × Standing)) (total : Account) :
    Prop where
  calls : ∀ x ∈ standings, callsOn x.1.partition total.calls = (x.2.account topic x.1).calls
  others : ∀ p ∉ standings.map (·.1.partition), callsOn p total.calls = []
  errors : total.errors.Perm (standings.flatMap fun x => (x.2.account topic x.1).errors)
  crashes : total.crashes.Perm (standings.flatMap fun x => (x.2.account topic x.1).crashes)
  stops : total.stops.Perm (standings.flatMap fun x => (x.2.account topic x.1).stops)

/-- Where one item of a list is replaced by one that accounts for more, the whole list does. -/
theorem flatMap_perm_of_replaced {α β : Type} {f : α → List β} {xs ys rest : List α} {x y : α}
    {total more : List β} (whole : total.Perm (xs.flatMap f)) (before : xs.Perm (x :: rest))
    (after : ys.Perm (y :: rest)) (grown : f y = f x ++ more) :
    (total ++ more).Perm (ys.flatMap f) := by
  have split : total.Perm (f x ++ rest.flatMap f) := whole.trans (before.flatMap_right f)
  have join : (ys.flatMap f).Perm (f x ++ more ++ rest.flatMap f) := by
    simpa only [List.flatMap_cons, grown] using after.flatMap_right f
  have swap : (f x ++ rest.flatMap f ++ more).Perm (f x ++ more ++ rest.flatMap f) := by
    simpa only [List.append_assoc] using List.perm_append_comm.append_left (f x)
  exact (split.append_right more).trans (swap.trans join.symm)

namespace Audit

variable {topic : String} {before after rest : List (Bound × Standing)} {total more : Account}

theorem perm (h : Audit topic before total) (same : after.Perm before) :
    Audit topic after total where
  calls x member := h.calls x (same.mem_iff.mp member)
  others p unknown := h.others p fun member => unknown ((same.map _).mem_iff.mpr member)
  errors := h.errors.trans (same.symm.flatMap_right _)
  crashes := h.crashes.trans (same.symm.flatMap_right _)
  stops := h.stops.trans (same.symm.flatMap_right _)

/-- One partition gets on, and the books with it. -/
theorem move (h : Audit topic before total) (apart : (before.map (·.1.partition)).Nodup) {b : Bound}
    {x y : Standing} (old : before.Perm ((b, x) :: rest)) (new : after.Perm ((b, y) :: rest))
    (grown : y.account topic b = x.account topic b ++ more) :
    Audit topic after (total ++ more) := by
  have own : ∀ c ∈ more.calls, c.partition? = some b.partition := fun c member =>
    y.partition_of_call topic b c (grown ▸ List.mem_append_right _ member)
  have single := (old.map (·.1.partition)).nodup_iff.mp apart
  simp only [List.map_cons, List.nodup_cons] at single
  refine ⟨?_, ?_, flatMap_perm_of_replaced h.errors old new (congrArg Account.errors grown),
    flatMap_perm_of_replaced h.crashes old new (congrArg Account.crashes grown),
    flatMap_perm_of_replaced h.stops old new (congrArg Account.stops grown)⟩
  · intro z member
    refine callsOn_append.trans ?_
    rcases List.mem_cons.mp (new.mem_iff.mp member) with rfl | other
    · rw [h.calls (b, x) (old.mem_iff.mpr List.mem_cons_self), callsOn_self own]
      exact (congrArg Account.calls grown).symm
    · have foreign : z.1.partition ≠ b.partition := fun same =>
        single.1 (same ▸ List.mem_map_of_mem other)
      rw [h.calls z (old.mem_iff.mpr (List.mem_cons_of_mem _ other)), callsOn_other own foreign,
        List.append_nil]
  · intro p unknown
    have absent : p ∉ (b.partition :: rest.map (·.1.partition)) := fun member =>
      unknown ((new.map (·.1.partition)).mem_iff.mpr member)
    have foreign : p ≠ b.partition := List.ne_of_not_mem_cons absent
    have unknown : p ∉ before.map (·.1.partition) := fun member =>
      absent ((old.map (·.1.partition)).mem_iff.mp member)
    refine callsOn_append.trans ?_
    rw [h.others p unknown, callsOn_other own foreign]
    rfl

end Audit
end TopicReader
