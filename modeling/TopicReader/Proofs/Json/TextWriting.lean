import TopicReader.Proofs.Json.TextReading
import TopicReader.Proofs.Text.Utf8Reading

/-! Texts as they are written between quotes. Each character can be read back from the front of what
is written, so a quoted text can be told from what follows it, and no line is broken inside one. As
bytes, what is written stands for the text. -/
namespace TopicReader.Json.Text

variable {x y : List Char}

/-- The character that a letter stands for after a backslash. -/
def meant : Char → Char
  | 'n' => '\n'
  | 'r' => '\r'
  | 't' => '\t'
  | 'b' => '\x08'
  | 'f' => '\x0c'
  | c => c

def digitValue (c : Char) : Nat := if c.isDigit then c.toNat - 48 else c.toNat - 87

/-- The first character that escaped text stands for, and what follows it. -/
def unescape : List Char → Option (Char × List Char)
  | '\\' :: 'u' :: '0' :: '0' :: high :: low :: rest =>
    some (Char.ofNat (16 * digitValue high + digitValue low), rest)
  | '\\' :: c :: rest => some (meant c, rest)
  | c :: rest => some (c, rest)
  | [] => none

theorem digitValue_hexDigit : ∀ n < 16, digitValue (hexDigit n) = n := by decide

theorem hexDigit_ne_newline : ∀ n < 16, hexDigit n ≠ '\n' := by decide

theorem unescape_control {n : Nat} (control : n < 0x20) :
    unescape ('\\' :: 'u' :: '0' :: '0' :: hexDigit (n / 16) :: hexDigit (n % 16) :: x) =
      some (Char.ofNat n, x) := by
  have high := digitValue_hexDigit (n / 16) (by omega)
  have low := digitValue_hexDigit (n % 16) (by omega)
  rw [unescape, high, low, Nat.div_add_mod]

theorem unescape_other {c : Char} (other : c ≠ '\\') : unescape (c :: x) = some (c, x) := by
  unfold unescape
  split <;> simp_all

/-- What is written for a character stands for it. -/
theorem unescape_escape (c : Char) : unescape (escape c ++ x) = some (c, x) := by
  unfold escape
  -- first the characters that have a letter of their own
  iterate 7 (split; · subst c; rfl)
  split
  · rename_i control
    simpa using unescape_control control
  · rename_i plain _ _ _ _ _ _
    exact unescape_other plain

theorem escape_append_inj {c d : Char} (same : escape c ++ x = escape d ++ y) :
    c = d ∧ x = y := by
  have read := congrArg unescape same
  rw [unescape_escape, unescape_escape] at read
  cases read
  exact ⟨rfl, rfl⟩

/-- The quote that ends a text is not the beginning of a character in it. -/
theorem escape_append_ne_quote {c : Char} : escape c ++ x ≠ '"' :: y := by
  intro same
  have read := congrArg unescape same
  rw [unescape_escape, unescape_other (by decide)] at read
  cases read
  cases same

theorem newline_not_mem_escape (c : Char) : '\n' ∉ escape c := by
  unfold escape
  iterate 7 (split; · decide)
  rename_i other _ _ _ _
  split
  · rename_i control
    simp [Ne.symm (hexDigit_ne_newline _ (show c.toNat / 16 < 16 by omega)),
      Ne.symm (hexDigit_ne_newline _ (show c.toNat % 16 < 16 by omega))]
  · simpa using Ne.symm other

theorem content_append_inj {s t : List Char}
    (same : s.flatMap escape ++ '"' :: x = t.flatMap escape ++ '"' :: y) : s = t ∧ x = y := by
  induction s generalizing t with
  | nil =>
    cases t with
    | nil => exact ⟨rfl, (List.cons.inj same).2⟩
    | cons d t =>
      rw [List.flatMap_cons, List.append_assoc] at same
      exact absurd same.symm escape_append_ne_quote
  | cons c s ih =>
    rw [List.flatMap_cons, List.append_assoc] at same
    cases t with
    | nil => exact absurd same escape_append_ne_quote
    | cons d t =>
      rw [List.flatMap_cons, List.append_assoc] at same
      obtain ⟨rfl, rest⟩ := escape_append_inj same
      obtain ⟨rfl, after⟩ := ih rest
      exact ⟨rfl, after⟩

theorem quoted_append_inj {s t : String} (same : quoted s ++ x = quoted t ++ y) :
    s = t ∧ x = y := by
  simp only [quoted, List.cons_append, List.append_assoc, List.nil_append, List.cons.injEq,
    true_and] at same
  obtain ⟨text, rest⟩ := content_append_inj same
  exact ⟨String.toList_injective text, rest⟩

theorem newline_not_mem_quoted (s : String) : '\n' ∉ quoted s := by
  simp [quoted, newline_not_mem_escape]

/-- A hexadecimal digit as a byte. -/
def hexByte (n : Nat) : UInt8 := if n < 10 then .ofNat (48 + n) else .ofNat (87 + n)

theorem encodeChar_hexDigit : ∀ n < 16, String.utf8EncodeChar (hexDigit n) = [hexByte n] := by
  decide

theorem hexValue?_hexByte : ∀ n < 16, hexValue? (hexByte n) = some n := by decide

theorem codeUnit?_control {n : Nat} (control : n < 0x20) :
    codeUnit? 0x30 0x30 (hexByte (n / 16)) (hexByte (n % 16)) = some n := by
  have high := hexValue?_hexByte (n / 16) (by omega)
  have low := hexValue?_hexByte (n % 16) (by omega)
  exact codeUnit?_eq_some.mpr ⟨0, rfl, 0, rfl, _, high, _, low, by omega⟩

theorem resolves_plain {plain s t : Bytes}
    (all : ∀ b ∈ plain, b ≠ 0x22 ∧ b ≠ 0x5C ∧ ¬ b < 0x20) (rest : Resolves s t) :
    Resolves (plain ++ s) (plain ++ t) := by
  induction plain with
  | nil => exact rest
  | cons b more ih =>
    obtain ⟨⟨quote, backslash, control⟩, later⟩ := List.forall_mem_cons.mp all
    exact .plain quote backslash control (ih later)

/-- What is written for a character stands for its bytes. -/
theorem resolves_escape {s t : Bytes} (c : Char) (rest : Resolves s t) :
    Resolves (Utf8.bytes (escape c) ++ s) (String.utf8EncodeChar c ++ t) := by
  unfold escape
  -- first the characters that have a letter of their own
  iterate 7 (split; · subst c; exact .simple rfl rest)
  rename_i quote backslash _ _ _ _ _
  split
  · rename_i control
    have digits : Utf8.bytes
        ['\\', 'u', '0', '0', hexDigit (c.toNat / 16), hexDigit (c.toNat % 16)] =
          [0x5C, 0x75, 0x30, 0x30, hexByte (c.toNat / 16), hexByte (c.toNat % 16)] := by
      have high := encodeChar_hexDigit (c.toNat / 16) (by omega)
      have low := encodeChar_hexDigit (c.toNat % 16) (by omega)
      simp only [Utf8.bytes, List.flatMap_cons, high, low]
      rfl
    have leading : isLeading c.toNat = false := by simp [isLeading]; omega
    have trailing : isTrailing c.toNat = false := by simp [isTrailing]; omega
    have character := Resolves.unicode (codeUnit?_control control) leading trailing rest
    rw [digits, ← Char.ofNat_toNat c]
    simpa using character
  · rename_i printable
    have plain : Utf8.bytes [c] = String.utf8EncodeChar c := by simp [Utf8.bytes]
    rw [plain]
    refine resolves_plain (fun b member => ?_) rest
    rw [UInt8.lt_iff_toNat_lt]
    rcases Utf8.mem_encodeChar member with ⟨_, code⟩ | high
    · refine ⟨?_, ?_, by rwa [code]⟩
      · rintro rfl
        exact quote (Char.toNat_inj.mp code.symm)
      · rintro rfl
        exact backslash (Char.toNat_inj.mp code.symm)
    · refine ⟨?_, ?_, Nat.not_lt.mpr (Nat.le_trans (by decide) high)⟩
      · rintro rfl
        exact absurd high (by decide)
      · rintro rfl
        exact absurd high (by decide)

theorem means_written (s : String) : Means (Utf8.bytes (s.toList.flatMap escape)) s := by
  have resolves (cs : List Char) : Resolves (Utf8.bytes (cs.flatMap escape)) (Utf8.bytes cs) := by
    induction cs with
    | nil => exact .nil
    | cons c rest ih =>
      rw [List.flatMap_cons, Utf8.bytes_append]
      exact resolves_escape c ih
  exact ⟨Utf8.encode s, resolves s.toList, Utf8.decode?_encode s⟩

/-- A quoted text is the content of that text between quotes. -/
theorem bytes_quoted (s : String) : Utf8.bytes (quoted s) =
    0x22 :: (Utf8.bytes (s.toList.flatMap escape) ++ [0x22]) := by
  have quote : String.utf8EncodeChar '"' = [0x22] := rfl
  simp [quoted, Utf8.bytes, quote]

end TopicReader.Json.Text
