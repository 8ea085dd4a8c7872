import TopicReader.Proofs.Json.Rendering
import TopicReader.Proofs.Payload.DefaultChain

/-! Documents that have been laid out. If all their numbers are integers that 64 bits hold, laying
them out again changes nothing. Other integers are altered: each is written at its place as the
integer that it is if and only if it is exact. -/
namespace TopicReader.Codec

open Json

variable {payload : Bytes} {text : String}

/-- A rendered payload is written as a tree that opens a container, and the value of that tree is laid
out. -/
theorem renders (claimed : Codec.json.claims .value payload = true)
    (rendered : Codec.json.render .value payload = .ok text) :
    ∃ t v, Written depthLimit t payload ∧ t.value? = some v ∧ v.IsContainer ∧
      Utf8.encode text = v.bytes := by
  cases read : readDocument payload with
  | error f => simp [Codec.json, renderJson, read] at rendered
  | ok v =>
    obtain ⟨t, written, value⟩ := readDocument_eq_ok.mp read
    obtain ⟨⟩ := (render_read read).symm.trans rendered
    exact ⟨t, v, written, value, (json_claims_read read).mp claimed, rfl⟩

/-- Laying out is idempotent where all numbers are exact. The text is claimed and laid out as itself,
and it reads as the value of the payload: at each place that of the last member of a name, with the
names of each object in the order of their bytes. -/
theorem render_idempotent (claimed : Codec.json.claims .value payload = true)
    (rendered : Codec.json.render .value payload = .ok text)
    (exact : ∀ depth t, Written depth t payload → ∀ l ∈ t.literals, l.Exact) :
    Codec.json.claims .value (Utf8.encode text) = true ∧
      Codec.json.render .value (Utf8.encode text) = .ok text ∧
        ∃ t v, Written depthLimit t payload ∧ readDocument payload = .ok v ∧
          readDocument (Utf8.encode text) = .ok v ∧
            (∀ path, v.at? path = (t.at? path).bind Tree.value?) ∧
              ∀ path members, v.at? path = some (.object members) →
                (members.map fun m => Utf8.encode m.1).Pairwise (· < ·) := by
  obtain ⟨t, v, written, value, container, bytes⟩ := renders claimed rendered
  have regular : v.Regular Number.InRange depthLimit :=
    written.regular value fun l member n => Number.inRange_of_exact (exact _ t written l member)
  have read : readDocument payload = .ok v := readDocument_eq_ok.mpr ⟨t, written, value⟩
  have again : readDocument (Utf8.encode text) = .ok v := by
    rw [bytes]
    exact readDocument_eq_ok.mpr
      ⟨v.tree, regular.written, regular.tree_value fun n => Number.InRange.literal_value?⟩
  refine ⟨(json_claims_read again).mpr container, ?_, t, v, written, read, again,
    Tree.at_eq value, fun path members => regular.names_ascending⟩
  rw [render_read again, ← render_read read, rendered]

/-- Names out of order, one of them given twice, and an escape that is not needed. -/
def unordered : Bytes :=
  Utf8.encode "\x7b\"b\":[-1],\"a\":\"\\u000a\",\"b\":18446744073709551615\x7d"

def unorderedTree : Tree :=
  .object [("b", .array [.number (.ofInt (-1))]), ("a", .text "\n"),
    ("b", .number (.ofInt 18446744073709551615))]

def unorderedText : String := "\x7b\n  \"a\": \"\\n\",\n  \"b\": 18446744073709551615\n\x7d"

theorem unordered_written : Written depthLimit unorderedTree unordered := by
  have line : Means (Utf8.encode "\\u000a") "\n" :=
    ⟨Utf8.encode "\n", .unicode (n := 10) (by decide) rfl rfl .nil, Utf8.decode?_encode "\n"⟩
  refine ⟨[], ?_, rfl⟩
  apply Spells.object (t := Utf8.encode ",\"a\":\"\\u000a\",\"b\":18446744073709551615\x7d")
  · exact .member (c := [0x62]) (Text.means_written "b") rfl
      (.array (spells_ofInt (-1) (Utf8.encode "],\"a\":\"\\u000a\",\"b\":18446744073709551615\x7d"))
        .lastItem)
  · apply Spells.nextMember (t := Utf8.encode ",\"b\":18446744073709551615\x7d")
    · exact .member (c := [0x61]) (Text.means_written "a") rfl
        (.text (c := Utf8.encode "\\u000a") line)
    · apply Spells.nextMember (t := [0x7D])
      · exact .member (c := [0x62]) (Text.means_written "b") rfl
          (spells_ofInt 18446744073709551615 [0x7D])
      · exact .lastMember

theorem unordered_claimed : Codec.json.claims .value unordered = true := by decide +kernel

theorem unordered_rendered : Codec.json.render .value unordered = .ok unorderedText := by
  have least : (Literal.ofInt (-1)).value? = some (.whole (-1)) :=
    Number.InRange.literal_value? ⟨_, rfl, by decide, by decide⟩
  have greatest : (Literal.ofInt 18446744073709551615).value? =
      some (.whole 18446744073709551615) :=
    Number.InRange.literal_value? ⟨_, rfl, by decide, by decide⟩
  have value : unorderedTree.value? = some (.object [("a", .text "\n"),
      ("b", .number (.whole 18446744073709551615))]) := by
    simp only [unorderedTree, Tree.value?, Tree.memberValues?, Tree.itemValues?, least, greatest]
    rfl
  exact render_read (readDocument_eq_ok.mpr ⟨unorderedTree, unordered_written, value⟩)

theorem unordered_idempotent : Codec.json.claims .value (Utf8.encode unorderedText) = true ∧
    Codec.json.render .value (Utf8.encode unorderedText) = .ok unorderedText := by
  have exact : ∀ depth t, Written depth t unordered → ∀ l ∈ t.literals, l.Exact := by
    intro depth t written l member
    obtain rfl := unordered_written.unique written
    rcases List.mem_pair.mp member with rfl | rfl
    · exact Literal.ofInt_exact (by decide) (by decide)
    · exact Literal.ofInt_exact (by decide) (by decide)
  have again := render_idempotent unordered_claimed unordered_rendered exact
  exact ⟨again.1, again.2.1⟩

/-- Which integers are kept. Where a payload has an integer, its text has a number, and that is the
same integer if and only if the integer is exact. -/
theorem integer_kept_iff (claimed : Codec.json.claims .value payload = true)
    (rendered : Codec.json.render .value payload = .ok text) :
    ∃ t u, Written depthLimit t payload ∧ Written depthLimit u (Utf8.encode text) ∧
      ∀ path l, t.at? path = some (.number l) → l.IsInteger →
        ∃ m, u.at? path = some (.number m) ∧
          (m.IsInteger ∧ m.integer = l.integer ↔ l.Exact) := by
  obtain ⟨t, v, written, value, _, bytes⟩ := renders claimed rendered
  have regular : v.Regular (fun _ => True) depthLimit := written.regular value (by simp)
  refine ⟨t, v.tree, written, bytes ▸ regular.written, ?_⟩
  intro path l place integer
  obtain ⟨n, number, held⟩ := Tree.at_number value place
  refine ⟨n.literal, by rw [regular.at_tree, held]; rfl, ?_⟩
  constructor
  · rintro ⟨again, _⟩
    obtain ⟨k, rfl⟩ := Number.literal_isInteger.mp again
    exact ((Literal.value?_eq_whole integer).mp number).1
  · intro exact
    obtain rfl := Option.some.inj (exact.value?.symm.trans number)
    exact ⟨Literal.ofInt_isInteger, Literal.ofInt_integer⟩

/-- The greatest integer that 64 bits hold is kept, behind another member of the same name. -/
theorem greatest_integer_kept : ∃ u m, Written depthLimit u (Utf8.encode unorderedText) ∧
    u.at? [.member "b"] = some (.number m) ∧ m.IsInteger ∧ m.integer = 18446744073709551615 := by
  obtain ⟨t, u, written, again, kept⟩ := integer_kept_iff unordered_claimed unordered_rendered
  obtain rfl := unordered_written.unique written
  obtain ⟨m, place, same⟩ := kept [.member "b"] _ rfl Literal.ofInt_isInteger
  obtain ⟨integer, value⟩ := same.mpr (Literal.ofInt_exact (by decide) (by decide))
  exact ⟨u, m, again, place, integer, value.trans Literal.ofInt_integer⟩

/-- The integer after that one is not: what stands at its place is no integer. -/
theorem next_integer_altered :
    Codec.json.claims .value (Utf8.encode "[18446744073709551616]") = true ∧
    Codec.json.render .value (Utf8.encode "[18446744073709551616]") =
      .ok "[\n  1.8446744073709552e+19\n]" ∧
    (∃ t l, Written depthLimit t (Utf8.encode "[18446744073709551616]") ∧
      t.at? [.item 0] = some (.number l) ∧ l.IsInteger ∧ l.integer = 18446744073709551616) ∧
    ∀ depth u m, Written depth u (Utf8.encode "[\n  1.8446744073709552e+19\n]") →
      u.at? [.item 0] = some (.number m) → ¬ m.IsInteger := by
  have written : Written depthLimit (.array [.number (.ofInt 18446744073709551616)])
      (Utf8.encode "[18446744073709551616]") :=
    ⟨[], .array (spells_ofInt 18446744073709551616 [0x5D]) .lastItem, rfl⟩
  let power : Exponent := ⟨0x65, some 0x2B, [0x31, 0x39], .inl rfl, by simp, by simp, rfl⟩
  let real : Literal := ⟨false, [0x31], Utf8.encode "8446744073709552", some power, by simp, rfl,
    by decide, by decide⟩
  have number : Spells 126 (.value (.number real)) (real.bytes ++ [0x0A, 0x5D]) _ := .number
  have rounded : Written depthLimit (.array [.number real])
      (Utf8.encode "[\n  1.8446744073709552e+19\n]") :=
    ⟨[], .array number .lastItem, rfl⟩
  refine ⟨by decide +kernel, ?_,
    ⟨_, _, written, rfl, Literal.ofInt_isInteger, Literal.ofInt_integer⟩, ?_⟩
  · have text : (match Codec.json.render .value (Utf8.encode "[18446744073709551616]") with
        | .error _ => none
        | .ok text => some text) = some "[\n  1.8446744073709552e+19\n]" := by decide +kernel
    split at text
    · cases text
    · rename_i text rendered
      rw [rendered, Option.some.inj text]
  · intro depth u m spelled place
    obtain rfl := rounded.unique spelled
    cases place
    rintro ⟨⟨⟩, _⟩

end TopicReader.Codec
