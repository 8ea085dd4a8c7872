import TopicReader.Proofs.Json.Unambiguous
import TopicReader.Proofs.Payload.StandardChain
import TopicReader.Proofs.Text.Utf8Reading

/-! What the default chain makes of values. A value is claimed if it can be read as an array or an
object, so each of those is laid out, and what is left to the raw encoding is none of them and stays
as it is. -/
namespace TopicReader

open Json

namespace Json

def Tree.IsContainer : Tree → Prop
  | .array _ | .object _ => True
  | _ => False

def Value.IsContainer : Value → Prop
  | .array _ | .object _ => True
  | _ => False

theorem Tree.isContainer_value {t : Tree} {v : Value} (h : t.value? = some v) :
    v.IsContainer ↔ t.IsContainer := by
  cases t with
  | null | bool | text =>
    cases h
    exact Iff.rfl
  | number | array | object =>
    obtain ⟨_, _, rfl⟩ := Option.map_eq_some_iff.mp h
    exact Iff.rfl

/-- The first byte tells a container. -/
theorem Tree.Begins.isContainer {t : Tree} {b : UInt8} (h : t.Begins b) :
    t.IsContainer ↔ b = 0x7B ∨ b = 0x5B := by
  rcases t with _ | (_ | _) | _ | _ | _ | _
  case number =>
    refine iff_of_false id ?_
    rintro (rfl | rfl)
    · exact absurd h (by simp [Begins, isDigit])
    · exact absurd h (by simp [Begins, isDigit])
  all_goals
    cases h
    simp [IsContainer]

/-- No document begins with a form feed. -/
theorem not_document_formFeed {number : Literal → Prop} {text : Bytes → Prop} {d : Nat}
    {s tail : Bytes} (begins : skipSpace s = 0x0C :: tail) : ¬ Document number text d s := by
  rintro ⟨rest, value, _⟩
  obtain ⟨b, u, after, shape, _, begun⟩ := Scan.begins [] value
  cases begins.symm.trans shape
  cases begun

end Json

namespace Codec

variable {payload text tail : Bytes} {t : Tree} {b : UInt8} {d : Nat}

/-- White space of a document is skipped before the first byte is looked at. -/
theorem opensContainer_skipSpace : opensContainer (skipSpace payload) = opensContainer payload := by
  induction payload with
  | nil => rfl
  | cons b rest ih =>
    cases space : isSpace b with
    | false => rw [skipSpace, List.dropWhile_cons_of_neg (by simp [space])]
    | true =>
      have leading : isLeadingSpace b = true := by
        rcases isSpace_iff.mp space with rfl | rfl | rfl | rfl <;> rfl
      rw [skipSpace, List.dropWhile_cons_of_pos space, ← skipSpace, ih]
      simp [opensContainer, leading]

theorem opensContainer_cons (other : isLeadingSpace b = false) :
    opensContainer (b :: tail) = (b = 0x7B || b = 0x5B) := by
  simp [opensContainer, other]

theorem opensContainer_formFeed (begins : skipSpace payload = 0x0C :: tail) :
    opensContainer payload = opensContainer tail := by
  rw [← opensContainer_skipSpace, begins]
  rfl

theorem not_leadingSpace (h : t.Begins b) : isLeadingSpace b = false := by
  rcases t with _ | (_ | _) | _ | _ | _ | _
  case number =>
    rcases h with rfl | digit
    · rfl
    · cases leading : isLeadingSpace b with
      | false => rfl
      | true =>
        simp only [isLeadingSpace, Bool.or_eq_true, decide_eq_true_eq] at leading
        rcases leading with (((rfl | rfl) | rfl) | rfl) | rfl <;> cases digit
  all_goals
    cases h
    rfl

/-- The first byte that is looked at is that of the document. -/
theorem opensContainer_iff (written : Written d t payload) :
    opensContainer payload = true ↔ t.IsContainer := by
  obtain ⟨rest, spells, _⟩ := written
  obtain ⟨b, tail, shape, begins⟩ := spells.begins
  rw [← opensContainer_skipSpace, shape, opensContainer_cons (not_leadingSpace begins),
    begins.isContainer]
  simp

/-- Of the values that can be read, the arrays and objects are claimed. -/
theorem json_claims_written (written : Written d t payload) :
    Codec.json.claims .value payload = true ↔ t.IsContainer := by
  rw [json_claims_iff, opensContainer_iff written]
  obtain ⟨rest, spells, ended⟩ := written
  have document : ∃ d, Document (fun _ => True) (fun _ => True) d payload :=
    ⟨d, rest, spells.shape.mono (fun _ => id) (fun _ _ => trivial) (Nat.le_refl d), ended⟩
  simp [document]

theorem json_claims_read {v : Value} (read : readDocument payload = .ok v) :
    Codec.json.claims .value payload = true ↔ v.IsContainer := by
  obtain ⟨t, written, value⟩ := readDocument_eq_ok.mp read
  rw [json_claims_written written, Tree.isContainer_value value]

theorem render_read {v : Value} (read : readDocument payload = .ok v) :
    Codec.json.render .value payload = .ok (String.ofList (v.pretty 0)) := by
  simp [Codec.json, renderJson, read]

end Codec

namespace Chain

variable {payload : Bytes}

theorem default_decode_claimed (claimed : Codec.json.claims .value payload = true) :
    default.decode .value payload = Codec.json.render .value payload := by
  have found : default.codecs.find? (·.claims .value payload) = some .json :=
    List.find?_cons_of_pos claimed
  simp only [decode, found]

theorem default_decode_unclaimed (unclaimed : Codec.json.claims .value payload = false) :
    default.decode .value payload = .ok (Utf8.lossy payload) := by
  have none_found : default.codecs.find? (·.claims .value payload) = none :=
    List.find?_eq_none.mpr fun c member => by
      obtain rfl := List.mem_singleton.mp member
      simp [unclaimed]
  simp only [decode, none_found]
  rfl

/-- No document is missed. Every array and every object that can be read is claimed and laid out;
what is not claimed can be read as neither, and comes out unchanged if it is the text of some
characters. After a form feed the first byte is looked for further on, but nothing can be read. -/
theorem default_misses_no_document (payload : Bytes) :
    (∀ v, readDocument payload = .ok v → v.IsContainer →
      Codec.json.claims .value payload = true ∧
        Codec.json.render .value payload = .ok (String.ofList (v.pretty 0)) ∧
          default.decode .value payload = .ok (String.ofList (v.pretty 0))) ∧
    (Codec.json.claims .value payload = false →
      (∀ v, readDocument payload = .ok v → ¬ v.IsContainer) ∧
        default.decode .value payload = .ok (Utf8.lossy payload) ∧
          ∀ text, payload = Utf8.encode text → default.decode .value payload = .ok text) ∧
    ∀ rest, skipSpace payload = 0x0C :: rest →
      Codec.opensContainer payload = Codec.opensContainer rest ∧
        (∀ v, readDocument payload ≠ .ok v) ∧
          default.decode .value payload = .ok (Utf8.lossy payload) := by
  refine ⟨?_, ?_, ?_⟩
  · intro v read container
    have claimed := (Codec.json_claims_read read).mpr container
    have rendered := Codec.render_read read
    exact ⟨claimed, rendered, (default_decode_claimed claimed).trans rendered⟩
  · intro unclaimed
    have raw := default_decode_unclaimed unclaimed
    refine ⟨?_, raw, ?_⟩
    · intro v read container
      rw [(Codec.json_claims_read read).mpr container] at unclaimed
      cases unclaimed
    · rintro text rfl
      rw [raw, Utf8.lossy_encode]
  · intro rest feed
    have unclaimed : Codec.json.claims .value payload = false := by
      refine Bool.eq_false_iff.mpr fun claimed => ?_
      obtain ⟨_, _, d, document⟩ := Codec.json_claims_iff.mp claimed
      exact not_document_formFeed feed document
    refine ⟨Codec.opensContainer_formFeed feed, ?_, default_decode_unclaimed unclaimed⟩
    intro v read
    exact not_document_formFeed feed (readDocument_iff.mp ⟨v, read⟩)

/-- A document with an escaped character outside the first plane is laid out, a line of a log that
opens a bracket is not, and neither is an array behind a form feed. -/
theorem default_tells_documents :
    default.decode .value (Utf8.encode " [\x7b\"ä\": \"\\ud83d\\ude00\"\x7d]") =
      .ok "[\n  \x7b\n    \"ä\": \"😀\"\n  \x7d\n]" ∧
    default.decode .value (Utf8.encode "[INFO] started") = .ok "[INFO] started" ∧
    Codec.opensContainer (Utf8.encode "\x0c[1]") = true ∧
      default.decode .value (Utf8.encode "\x0c[1]") = .ok "\x0c[1]" := by
  have read : readDocument (Utf8.encode " [\x7b\"ä\": \"\\ud83d\\ude00\"\x7d]") =
      .ok (.array [.object [("ä", .text "😀")]]) := by with_unfolding_all rfl
  have log : Codec.json.claims .value (Utf8.encode "[INFO] started") = false := by decide +kernel
  have feed : skipSpace (Utf8.encode "\x0c[1]") = 0x0C :: Utf8.encode "[1]" := by decide +kernel
  have decoded := ((default_misses_no_document _).1 _ read trivial).2.2
  have raw := ((default_misses_no_document _).2.2 _ feed).2.2
  refine ⟨decoded, ((default_misses_no_document _).2.1 log).2.2 _ rfl, ?_, ?_⟩
  · rw [((default_misses_no_document _).2.2 _ feed).1]
    decide +kernel
  · rw [raw, Utf8.lossy_encode]

end Chain
end TopicReader
