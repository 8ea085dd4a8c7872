import Mathlib.Tactic.Common
import TopicReader.Proofs.Text.Utf8

/-! Bytes of a text read as UTF-8. Each character is one well-formed piece, so reading gives the text
back, and nothing of it is replaced. -/
namespace TopicReader.Utf8

variable {b c : UInt8} {t : Bytes} {n v : Nat}

theorem piece_ascii (small : b.toNat < 0x80) : piece b t = (some (Char.ofNat b.toNat), t) :=
  if_pos (UInt8.lt_iff_toNat_lt.mpr small)

theorem piece_lead {bits : Nat} (leads : lead b = some (n, bits)) (large : 0x80 ≤ b.toNat)
    (follows : mayFollow b c = true) :
    piece b (c :: t) = tails (n - 1) (bits * 64 + c.toNat % 64) t := by
  have not_ascii : ¬ b < 0x80 := fun small => by
    have below : b.toNat < 0x80 := UInt8.lt_iff_toNat_lt.mp small
    omega
  simp only [piece, if_neg not_ascii, leads, follows, if_true]

theorem lead_two (range : 0xC2 ≤ b.toNat ∧ b.toNat ≤ 0xDF) : lead b = some (1, b.toNat % 32) :=
  if_pos ⟨UInt8.le_iff_toNat_le.mpr range.1, UInt8.le_iff_toNat_le.mpr range.2⟩

theorem lead_three (range : 0xE0 ≤ b.toNat ∧ b.toNat ≤ 0xEF) : lead b = some (2, b.toNat % 16) := by
  have not_two : ¬ (0xC2 ≤ b ∧ b ≤ 0xDF) := fun two => by
    have above : b.toNat ≤ 0xDF := UInt8.le_iff_toNat_le.mp two.2
    omega
  rw [lead, if_neg not_two]
  exact if_pos ⟨UInt8.le_iff_toNat_le.mpr range.1, UInt8.le_iff_toNat_le.mpr range.2⟩

theorem lead_four (range : 0xF0 ≤ b.toNat ∧ b.toNat ≤ 0xF4) : lead b = some (3, b.toNat % 8) := by
  have not_two : ¬ (0xC2 ≤ b ∧ b ≤ 0xDF) := fun two => by
    have above : b.toNat ≤ 0xDF := UInt8.le_iff_toNat_le.mp two.2
    omega
  have not_three : ¬ (0xE0 ≤ b ∧ b ≤ 0xEF) := fun three => by
    have above : b.toNat ≤ 0xEF := UInt8.le_iff_toNat_le.mp three.2
    omega
  rw [lead, if_neg not_two, if_neg not_three]
  exact if_pos ⟨UInt8.le_iff_toNat_le.mpr range.1, UInt8.le_iff_toNat_le.mpr range.2⟩

theorem isTail_iff : isTail b = true ↔ 0x80 ≤ b.toNat ∧ b.toNat ≤ 0xBF := by
  simp [isTail, UInt8.le_iff_toNat_le]

/-- Four lead bytes narrow what may follow them, each at one end. -/
theorem mayFollow_iff : mayFollow b c = true ↔ isTail c = true ∧ (b.toNat = 0xE0 → 0xA0 ≤ c.toNat) ∧
    (b.toNat = 0xED → c.toNat ≤ 0x9F) ∧ (b.toNat = 0xF0 → 0x90 ≤ c.toNat) ∧
      (b.toNat = 0xF4 → c.toNat ≤ 0x8F) := by
  have code (k : UInt8) : b = k ↔ b.toNat = k.toNat := UInt8.toNat_inj.symm
  rw [isTail_iff]
  simp only [mayFollow, code, UInt8.toNat_ofNat]
  split_ifs <;> simp only [Bool.and_eq_true, decide_eq_true_eq, UInt8.le_iff_toNat_le, isTail_iff,
    UInt8.toNat_ofNat] <;> omega

theorem tails_succ (tail : isTail b = true) :
    tails (n + 1) v (b :: t) = tails n (v * 64 + b.toNat % 64) t :=
  if_pos tail

theorem isTail_ofNat (n : Nat) : isTail (.ofNat (n % 64 + 128)) = true := by
  rw [isTail_iff, UInt8.toNat_ofNat_of_lt' (show n % 64 + 128 < 256 by omega)]
  omega

theorem pieces_of_piece {c : Char} {s : Bytes} (one : piece b s = (some c, t)) :
    pieces (b :: s) = some c :: pieces t := by
  rw [pieces, one]

/-- The bytes of a character are one piece. -/
theorem pieces_encodeChar (c : Char) (t : Bytes) :
    pieces (String.utf8EncodeChar c ++ t) = some c :: pieces t := by
  have valid : c.val.toNat < 0xD800 ∨ 0xDFFF < c.val.toNat ∧ c.val.toNat < 0x110000 := c.valid
  have whole : Char.ofNat c.val.toNat = c := Char.ofNat_toNat c
  rw [String.utf8EncodeChar]
  generalize c.val.toNat = v at valid whole
  split_ifs with one two three
  · have first := UInt8.toNat_ofNat_of_lt' (show v < 256 by omega)
    apply pieces_of_piece
    rw [piece_ascii (by omega), first, whole]
    rfl
  · have first := UInt8.toNat_ofNat_of_lt' (show v / 64 % 32 + 192 < 256 by omega)
    have second := UInt8.toNat_ofNat_of_lt' (show v % 64 + 128 < 256 by omega)
    apply pieces_of_piece
    have follows : mayFollow (.ofNat (v / 64 % 32 + 192)) (.ofNat (v % 64 + 128)) = true :=
      mayFollow_iff.mpr ⟨isTail_ofNat v, by omega, by omega, by omega, by omega⟩
    refine (piece_lead (lead_two (by omega)) (by omega) follows).trans ?_
    rw [first, second, ← whole]
    exact congrArg (fun n => (some (Char.ofNat n), t)) (by omega)
  · have first := UInt8.toNat_ofNat_of_lt' (show v / 4096 % 16 + 224 < 256 by omega)
    have second := UInt8.toNat_ofNat_of_lt' (show v / 64 % 64 + 128 < 256 by omega)
    have third := UInt8.toNat_ofNat_of_lt' (show v % 64 + 128 < 256 by omega)
    apply pieces_of_piece
    have follows : mayFollow (.ofNat (v / 4096 % 16 + 224)) (.ofNat (v / 64 % 64 + 128)) = true :=
      mayFollow_iff.mpr ⟨isTail_ofNat (v / 64), by omega, by omega, by omega, by omega⟩
    refine (piece_lead (lead_three (by omega)) (by omega) follows).trans ?_
    refine (tails_succ (isTail_ofNat v)).trans ?_
    rw [first, second, third, ← whole]
    exact congrArg (fun n => (some (Char.ofNat n), t)) (by omega)
  · have first := UInt8.toNat_ofNat_of_lt' (show v / 262144 % 8 + 240 < 256 by omega)
    have second := UInt8.toNat_ofNat_of_lt' (show v / 4096 % 64 + 128 < 256 by omega)
    have third := UInt8.toNat_ofNat_of_lt' (show v / 64 % 64 + 128 < 256 by omega)
    have fourth := UInt8.toNat_ofNat_of_lt' (show v % 64 + 128 < 256 by omega)
    apply pieces_of_piece
    have follows : mayFollow (.ofNat (v / 262144 % 8 + 240)) (.ofNat (v / 4096 % 64 + 128)) = true :=
      mayFollow_iff.mpr ⟨isTail_ofNat (v / 4096), by omega, by omega, by omega, by omega⟩
    refine (piece_lead (lead_four (by omega)) (by omega) follows).trans ?_
    refine (tails_succ (isTail_ofNat (v / 64))).trans ((tails_succ (isTail_ofNat v)).trans ?_)
    rw [first, second, third, fourth, ← whole]
    exact congrArg (fun n => (some (Char.ofNat n), t)) (by omega)

theorem pieces_bytes (s : List Char) : pieces (bytes s) = s.map some := by
  induction s with
  | nil =>
    rw [bytes, List.flatMap_nil, pieces]
    rfl
  | cons c rest ih => rw [bytes, List.flatMap_cons, pieces_encodeChar, ← bytes, ih, List.map_cons]

/-- Text is not changed by writing it as bytes and reading these again. -/
theorem lossy_encode (s : String) : lossy (encode s) = s := by
  rw [lossy, encode_eq, pieces_bytes, List.map_map]
  exact (congrArg String.ofList (List.map_id _)).trans String.ofList_toList

theorem decode?_encode (s : String) : decode? (encode s) = some s := by
  have all (cs : List Char) : (cs.map some).mapM id = some cs := by
    induction cs with
    | nil => rfl
    | cons c rest ih => simp [ih]
  rw [decode?, encode_eq, pieces_bytes, all, Option.map_some, String.ofList_toList]

end TopicReader.Utf8
