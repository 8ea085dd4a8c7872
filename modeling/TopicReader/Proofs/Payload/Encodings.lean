import TopicReader.Payload.Encoding
import TopicReader.Proofs.Text.Base64
import TopicReader.Proofs.Text.Hex
import TopicReader.Proofs.Text.Utf8Grammar

/-! What the encodings keep of a payload. Hexadecimal and base 64 keep all of it, in the one text that
their standard form has for it; raw text keeps a payload that is UTF-8, and no other. -/
namespace TopicReader.Encoding

variable {payload other : Bytes}

theorem toList_hex : (hex.encode payload).toList = Hex.encode payload := String.toList_ofList

theorem toList_base64 : (base64.encode payload).toList = Base64.encode payload :=
  String.toList_ofList

/-- Texts that can be read back are the same only for the same bytes. -/
theorem ofList_eq_iff {write : Bytes → List Char} {read : List Char → Option Bytes}
    (reads : ∀ s, read (write s) = some s) :
    String.ofList (write payload) = String.ofList (write other) ↔ payload = other := by
  constructor
  · intro same
    have both := congrArg read (String.ofList_injective same)
    rw [reads, reads] at both
    exact Option.some.inj both
  · rintro rfl
    rfl

/-- Hexadecimal and base 64 text has one payload and is the text that the grammars demand. Raw text
has the bytes of the payload exactly where these are UTF-8, and is shown as itself again. -/
theorem lossless_where_claimed (payload : Bytes) :
    (∀ t, ((∀ c ∈ t, Hex.IsLower c) ∧ Hex.decode? t = some payload ↔
        t = (hex.encode payload).toList) ∧
      (Hex.Written t payload ↔ t = (hex.encode payload).toList)) ∧
    (∀ t, (Base64.decode? t = some payload ↔ t = (base64.encode payload).toList) ∧
      (Base64.Written t payload ↔ t = (base64.encode payload).toList)) ∧
    (∀ other, (hex.encode payload = hex.encode other ↔ payload = other) ∧
      (base64.encode payload = base64.encode other ↔ payload = other)) ∧
    (Utf8.encode (raw.encode payload) = payload ↔ Utf8.WellFormed payload) ∧
    raw.encode (Utf8.encode (raw.encode payload)) = raw.encode payload := by
  refine ⟨?_, ?_, ?_, Utf8.encode_lossy_iff, ?_⟩
  · intro t
    rw [toList_hex]
    exact ⟨Hex.eq_encode_iff.symm, Hex.eq_encode_iff_written.symm⟩
  · intro t
    rw [toList_base64]
    exact ⟨Base64.eq_encode_iff.symm, Base64.eq_encode_iff_written.symm⟩
  · intro other
    exact ⟨ofList_eq_iff Hex.decode?_encode, ofList_eq_iff Base64.decode?_encode⟩
  · exact Utf8.lossy_encode (Utf8.lossy payload)

/-- A byte that begins a character of three bytes stands alone here, and the letter behind it stays. -/
example : hex.encode [0x66, 0xE2, 0x6F] = "66e26f" ∧
    base64.encode [0x66, 0xE2, 0x6F, 0x0A] = "ZuJvCg==" ∧
    raw.encode [0x66, 0xE2, 0x6F] = "f\uFFFDo" := by
  decide +kernel

end TopicReader.Encoding
