import TopicReader.Payload.Chain
import TopicReader.Proofs.Json.Reading
import TopicReader.Proofs.Json.ScanSound

/-! When the standard chain fails. It claims values by a scan that bounds nothing, and then reads
them with the bounds of the reader; what lies between the two is an error. -/
namespace TopicReader

open Json

namespace Codec

variable {payload : Bytes}

theorem json_claims_iff {field : Field} : Codec.json.claims field payload = true ↔
    field = .value ∧ opensContainer payload = true ∧
      ∃ d, Document (fun _ => True) (fun _ => True) d payload := by
  simp [Codec.json, wellFormed_iff, and_assoc]

/-- A rendering fails if and only if the document is not one that can be read. -/
theorem renderJson_fails_iff : (∃ e, renderJson payload = .error e) ↔
    ¬ Document Literal.Fits Decodable depthLimit payload := by
  rw [← readDocument_iff]
  unfold renderJson
  cases readDocument payload with
  | ok v => simp
  | error f => simp

end Codec

namespace Chain

/-- The standard chain fails exactly on values that open a container and are documents of the
grammar, but have a number that is too large, a text that stands for none, or containers that nest
too deep; and it does so only where JSON is laid out and values are written raw. -/
theorem standard_fails_iff {formatJson : Bool} {keyEncoding valueEncoding : Encoding} {field : Field}
    {payload : Bytes} :
    (∃ e, (standard formatJson keyEncoding valueEncoding).decode field payload = .error e) ↔
      (formatJson = true ∧ valueEncoding = .raw ∧ field = .value) ∧
      Codec.opensContainer payload = true ∧
      (∃ d, Document (fun _ => True) (fun _ => True) d payload) ∧
      ¬ Document Literal.Fits Decodable depthLimit payload := by
  have unclaimed (codecs : List Codec) (none_claims : ∀ c ∈ codecs, c.claims field payload = false) :
      ¬ ∃ e, decode ⟨codecs, keyEncoding, valueEncoding⟩ field payload = .error e := by
    have none_found : codecs.find? (·.claims field payload) = none :=
      List.find?_eq_none.mpr fun c member => by simp [none_claims c member]
    simp [decode, none_found]
  by_cases formats : formatJson = true ∧ valueEncoding = .raw
  · obtain ⟨rfl, rfl⟩ := formats
    have codecs : standard true keyEncoding .raw = ⟨[.json], keyEncoding, .raw⟩ := rfl
    rw [codecs]
    cases claims : Codec.json.claims field payload with
    | true =>
      have decoded : decode ⟨[.json], keyEncoding, .raw⟩ field payload = Codec.renderJson payload := by
        have found : [Codec.json].find? (·.claims field payload) = some .json :=
          List.find?_cons_of_pos claims
        simp only [decode, found]
        rfl
      obtain ⟨is_value, opens, document⟩ := Codec.json_claims_iff.mp claims
      rw [decoded, Codec.renderJson_fails_iff]
      simp [is_value, opens, document]
    | false =>
      refine iff_of_false (unclaimed _ (by simp [claims])) ?_
      rintro ⟨⟨_, _, is_value⟩, opens, document, _⟩
      rw [Codec.json_claims_iff.mpr ⟨is_value, opens, document⟩] at claims
      cases claims
  · have codecs : standard formatJson keyEncoding valueEncoding = ⟨[], keyEncoding, valueEncoding⟩ := by
      simp only [standard, Bool.and_eq_true, decide_eq_true_eq, formats, if_false]
    rw [codecs]
    refine iff_of_false (unclaimed [] (by simp)) ?_
    rintro ⟨⟨formats_json, raw, _⟩, _⟩
    exact formats ⟨formats_json, raw⟩

/-- An array that holds a number past the range of binary64 is claimed, but cannot be rendered. -/
theorem default_fails_on_large_number :
    Codec.json.claims .value (Utf8.encode "[1e999]") = true ∧
      default.decode .value (Utf8.encode "[1e999]") =
        .error ⟨"json", "number out of range at line 1 column 6"⟩ := by
  refine ⟨by decide +kernel, ?_⟩
  have failure : (match default.decode .value (Utf8.encode "[1e999]") with
      | .error e => some e
      | .ok _ => none) = some ⟨"json", "number out of range at line 1 column 6"⟩ := by
    decide +kernel
  split at failure
  · rename_i e failed
    rw [failed, Option.some.inj failure]
  · cases failure

end Chain
end TopicReader
