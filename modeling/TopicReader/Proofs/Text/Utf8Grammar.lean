import TopicReader.Proofs.Text.Utf8Reading

/-! Which bytes are UTF-8. Each character has one spelling, the shortest; surrogates and numbers past
the last character have none. Bytes made up of such spellings are the bytes of a text, and these are
the bytes that reading them and writing them again does not change. -/
namespace TopicReader.Utf8

variable {s : Bytes} {n : Nat}

/-- A byte that is not the first of its character. -/
def Follows (b : UInt8) : Prop := 0x80 ≤ b.toNat ∧ b.toNat ≤ 0xBF

/-- The bytes of one character. Their lower bits spell its number, which needs so many bytes. -/
inductive Spelling : Bytes → Prop where
  | one {a : UInt8} (first : a.toNat ≤ 0x7F) : Spelling [a]
  | two {a b : UInt8} (first : 0xC0 ≤ a.toNat ∧ a.toNat ≤ 0xDF) (second : Follows b)
      (shortest : 0x80 ≤ a.toNat % 32 * 64 + b.toNat % 64) : Spelling [a, b]
  | three {a b c : UInt8} {n : Nat} (first : 0xE0 ≤ a.toNat ∧ a.toNat ≤ 0xEF) (second : Follows b)
      (third : Follows c) (number : n = a.toNat % 16 * 4096 + b.toNat % 64 * 64 + c.toNat % 64)
      (shortest : 0x800 ≤ n) (character : n < 0xD800 ∨ 0xDFFF < n) : Spelling [a, b, c]
  | four {a b c d : UInt8} {n : Nat} (first : 0xF0 ≤ a.toNat ∧ a.toNat ≤ 0xF7)
      (second : Follows b) (third : Follows c) (fourth : Follows d)
      (number : n = a.toNat % 8 * 262144 + b.toNat % 64 * 4096 + c.toNat % 64 * 64 + d.toNat % 64)
      (shortest : 0x10000 ≤ n) (character : n ≤ 0x10FFFF) : Spelling [a, b, c, d]

/-- One spelling after the other. -/
inductive WellFormed : Bytes → Prop where
  | nil : WellFormed []
  | cons {x s : Bytes} (spelling : Spelling x) (rest : WellFormed s) : WellFormed (x ++ s)

theorem follows_ofNat (n : Nat) : Follows (.ofNat (n % 64 + 128)) := by
  rw [Follows, UInt8.toNat_ofNat_of_lt' (show n % 64 + 128 < 256 by omega)]
  omega

theorem spelling_encodeChar (c : Char) : Spelling (String.utf8EncodeChar c) := by
  have valid : c.val.toNat < 0xD800 ∨ 0xDFFF < c.val.toNat ∧ c.val.toNat < 0x110000 := c.valid
  rw [String.utf8EncodeChar]
  generalize c.val.toNat = v at valid
  have tail := UInt8.toNat_ofNat_of_lt' (show v % 64 + 128 < 256 by omega)
  split_ifs with one two three
  · refine .one ?_
    rw [UInt8.toNat_ofNat_of_lt' (show v < 256 by omega)]
    exact one
  · have first := UInt8.toNat_ofNat_of_lt' (show v / 64 % 32 + 192 < 256 by omega)
    refine .two ?_ (follows_ofNat v) ?_
    · omega
    · omega
  · have first := UInt8.toNat_ofNat_of_lt' (show v / 4096 % 16 + 224 < 256 by omega)
    have second := UInt8.toNat_ofNat_of_lt' (show v / 64 % 64 + 128 < 256 by omega)
    refine .three (n := v) ?_ (follows_ofNat (v / 64)) (follows_ofNat v) ?_ ?_ ?_
    · omega
    · omega
    · omega
    · omega
  · have first := UInt8.toNat_ofNat_of_lt' (show v / 262144 % 8 + 240 < 256 by omega)
    have second := UInt8.toNat_ofNat_of_lt' (show v / 4096 % 64 + 128 < 256 by omega)
    have third := UInt8.toNat_ofNat_of_lt' (show v / 64 % 64 + 128 < 256 by omega)
    refine .four (n := v) ?_ (follows_ofNat (v / 4096)) (follows_ofNat (v / 64)) (follows_ofNat v)
      ?_ ?_ ?_
    · omega
    · omega
    · omega
    · omega

theorem exists_char (valid : n < 0xD800 ∨ 0xDFFF < n ∧ n < 0x110000) :
    ∃ c : Char, c.val.toNat = n :=
  ⟨Char.ofNatAux n valid, rfl⟩

theorem encodeChar_of_spelling (spelling : Spelling s) : ∃ c, String.utf8EncodeChar c = s := by
  cases spelling with
  | @one a first =>
    obtain ⟨c, code⟩ := exists_char (n := a.toNat) (by omega)
    refine ⟨c, ?_⟩
    simp only [String.utf8EncodeChar, code]
    rw [if_pos first, UInt8.ofNat_toNat]
  | @two a b first second shortest =>
    obtain ⟨least, most⟩ := second
    obtain ⟨c, code⟩ := exists_char (n := a.toNat % 32 * 64 + b.toNat % 64) (by omega)
    refine ⟨c, ?_⟩
    simp only [String.utf8EncodeChar, code]
    rw [if_neg (by omega), if_pos (by omega),
      show (a.toNat % 32 * 64 + b.toNat % 64) / 64 % 32 + 192 = a.toNat by omega,
      show (a.toNat % 32 * 64 + b.toNat % 64) % 64 + 128 = b.toNat by omega,
      UInt8.ofNat_toNat, UInt8.ofNat_toNat]
  | @three a b c n first second third number shortest character =>
    obtain ⟨least, most⟩ := second
    obtain ⟨least', most'⟩ := third
    obtain ⟨e, code⟩ := exists_char (n := n) (by omega)
    refine ⟨e, ?_⟩
    simp only [String.utf8EncodeChar, code]
    rw [if_neg (by omega), if_neg (by omega), if_pos (by omega),
      show n / 4096 % 16 + 224 = a.toNat by omega, show n / 64 % 64 + 128 = b.toNat by omega,
      show n % 64 + 128 = c.toNat by omega, UInt8.ofNat_toNat, UInt8.ofNat_toNat, UInt8.ofNat_toNat]
  | @four a b c d n first second third fourth number shortest character =>
    obtain ⟨least, most⟩ := second
    obtain ⟨least', most'⟩ := third
    obtain ⟨least'', most''⟩ := fourth
    obtain ⟨e, code⟩ := exists_char (n := n) (by omega)
    refine ⟨e, ?_⟩
    simp only [String.utf8EncodeChar, code]
    rw [if_neg (by omega), if_neg (by omega), if_neg (by omega),
      show n / 262144 % 8 + 240 = a.toNat by omega, show n / 4096 % 64 + 128 = b.toNat by omega,
      show n / 64 % 64 + 128 = c.toNat by omega, show n % 64 + 128 = d.toNat by omega,
      UInt8.ofNat_toNat, UInt8.ofNat_toNat, UInt8.ofNat_toNat, UInt8.ofNat_toNat]

theorem wellFormed_bytes (t : List Char) : WellFormed (bytes t) := by
  induction t with
  | nil => exact .nil
  | cons c rest ih => exact .cons (spelling_encodeChar c) ih

/-- Well-formed bytes are the bytes of a text. -/
theorem wellFormed_iff : WellFormed s ↔ ∃ t, encode t = s := by
  constructor
  · intro formed
    suffices ∃ t, bytes t = s by
      obtain ⟨t, rfl⟩ := this
      exact ⟨String.ofList t, by rw [encode_eq, String.toList_ofList]⟩
    induction formed with
    | nil => exact ⟨[], rfl⟩
    | cons spelling rest ih =>
      obtain ⟨c, rfl⟩ := encodeChar_of_spelling spelling
      obtain ⟨t, rfl⟩ := ih
      exact ⟨c :: t, rfl⟩
  · rintro ⟨t, rfl⟩
    exact wellFormed_bytes t.toList

/-- Reading bytes and writing them again changes those that are not well formed, and only these. -/
theorem encode_lossy_iff : encode (lossy s) = s ↔ WellFormed s := by
  rw [wellFormed_iff]
  constructor
  · intro same
    exact ⟨lossy s, same⟩
  · rintro ⟨t, rfl⟩
    rw [lossy_encode]

end TopicReader.Utf8
