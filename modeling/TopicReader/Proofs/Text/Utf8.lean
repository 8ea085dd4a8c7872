import Mathlib.Tactic.Common
import TopicReader.Text.Utf8

/-! Text as bytes of UTF-8. The bytes of a text are the bytes of its characters in order, no two texts
have the same bytes, the order of the bytes is that of the texts, and the byte of a line break comes
from a line break only. -/
namespace TopicReader.Utf8

/-- The bytes of characters, one after the other. -/
def bytes (s : List Char) : Bytes := s.flatMap String.utf8EncodeChar

theorem encode_eq (s : String) : encode s = bytes s.toList := rfl

@[simp] theorem bytes_append (s t : List Char) : bytes (s ++ t) = bytes s ++ bytes t :=
  List.flatMap_append

theorem bytes_injective {s t : List Char} (same : bytes s = bytes t) : s = t := by
  have encoded : s.utf8Encode = t.utf8Encode := congrArg List.toByteArray same
  rw [← String.toByteArray_ofList, ← String.toByteArray_ofList] at encoded
  exact String.ofList_injective (String.toByteArray_inj.mp encoded)

theorem le_toNat_ofNat {n : Nat} (high : 128 ≤ n) (byte : n < 256) :
    128 ≤ (UInt8.ofNat n).toNat := by
  rw [UInt8.toNat_ofNat', Nat.mod_eq_of_lt byte]
  exact high

/-- Each byte of a longer character has its highest bit set. -/
theorem mem_encodeChar {c : Char} {b : UInt8} (member : b ∈ String.utf8EncodeChar c) :
    String.utf8EncodeChar c = [b] ∧ b.toNat = c.toNat ∨ 128 ≤ b.toNat := by
  simp only [String.utf8EncodeChar] at member ⊢
  split at member
  · rename_i small
    obtain rfl := List.mem_singleton.mp member
    refine .inl ⟨if_pos small, ?_⟩
    rw [UInt8.toNat_ofNat', Nat.mod_eq_of_lt (by omega)]
    rfl
  · right
    repeat' split at member
    all_goals
      simp only [List.mem_cons, List.not_mem_nil, or_false] at member
      rcases member with rfl | member
      · exact le_toNat_ofNat (by omega) (by omega)
    · subst member
      exact le_toNat_ofNat (by omega) (by omega)
    · rcases member with rfl | rfl
      · exact le_toNat_ofNat (by omega) (by omega)
      · exact le_toNat_ofNat (by omega) (by omega)
    · rcases member with rfl | rfl | rfl
      · exact le_toNat_ofNat (by omega) (by omega)
      · exact le_toNat_ofNat (by omega) (by omega)
      · exact le_toNat_ofNat (by omega) (by omega)

theorem eq_newline_of_mem {c : Char} (member : 0x0A ∈ String.utf8EncodeChar c) : c = '\n' := by
  rcases mem_encodeChar member with ⟨_, code⟩ | high
  · exact Char.toNat_inj.mp code.symm
  · exact absurd high (by decide)

theorem newline_mem_bytes {s : List Char} : 0x0A ∈ bytes s ↔ '\n' ∈ s := by
  constructor
  · intro member
    obtain ⟨c, inside, byte⟩ := List.mem_flatMap.mp member
    exact eq_newline_of_mem byte ▸ inside
  · intro member
    exact List.mem_flatMap.mpr ⟨'\n', member, by decide⟩

variable {m n : Nat} {x y : Bytes}

theorem ofNat_cons_lt (small : n < 256) (le : m ≤ n) (later : m = n → x < y) :
    UInt8.ofNat m :: x < UInt8.ofNat n :: y := by
  rcases Nat.eq_or_lt_of_le le with rfl | less
  · exact List.cons_lt_cons_iff.mpr (.inr ⟨rfl, later rfl⟩)
  · refine List.cons_lt_cons_iff.mpr (.inl (UInt8.lt_iff_toNat_lt.mpr ?_))
    rwa [UInt8.toNat_ofNat', UInt8.toNat_ofNat', Nat.mod_eq_of_lt small,
      Nat.mod_eq_of_lt (Nat.lt_trans less small)]

/-- The bytes of characters are in the order of the characters, whatever follows them. -/
theorem encodeChar_lt {c d : Char} (less : c < d) :
    String.utf8EncodeChar c ++ x < String.utf8EncodeChar d ++ y := by
  have least : c.val.toNat < d.val.toNat := less
  have valid : d.val.toNat < 0xD800 ∨ 0xDFFF < d.val.toNat ∧ d.val.toNat < 0x110000 := d.valid
  simp only [String.utf8EncodeChar]
  generalize c.val.toNat = v at least
  generalize d.val.toNat = w at least valid
  split_ifs
  -- of characters of different lengths, the first bytes are in order
  all_goals first
    | omega
    | exact ofNat_cons_lt (by omega) (by omega) fun same => absurd same (by omega)
    | skip
  · refine ofNat_cons_lt (by omega) (by omega) fun first => ?_
    exact ofNat_cons_lt (by omega) (by omega) fun same => absurd same (by omega)
  · refine ofNat_cons_lt (by omega) (by omega) fun first => ?_
    refine ofNat_cons_lt (by omega) (by omega) fun second => ?_
    exact ofNat_cons_lt (by omega) (by omega) fun same => absurd same (by omega)
  · refine ofNat_cons_lt (by omega) (by omega) fun first => ?_
    refine ofNat_cons_lt (by omega) (by omega) fun second => ?_
    refine ofNat_cons_lt (by omega) (by omega) fun third => ?_
    exact ofNat_cons_lt (by omega) (by omega) fun same => absurd same (by omega)

theorem bytes_lt {s t : List Char} (less : s < t) : bytes s < bytes t := by
  induction s generalizing t with
  | nil =>
    cases t with
    | nil => exact absurd less (List.not_lt_nil [])
    | cons d t =>
      obtain ⟨b, more, shape⟩ := List.exists_cons_of_ne_nil (String.utf8EncodeChar_ne_nil (c := d))
      rw [bytes, bytes, List.flatMap_cons, shape]
      exact List.nil_lt_cons _ _
  | cons c s ih =>
    cases t with
    | nil => exact absurd less (List.not_lt_nil _)
    | cons d t =>
      rw [bytes, bytes, List.flatMap_cons, List.flatMap_cons]
      rcases List.cons_lt_cons_iff.mp less with first | ⟨rfl, later⟩
      · exact encodeChar_lt first
      · exact List.append_left_lt (ih later)

/-- Texts in order have their bytes in order. -/
theorem encode_lt {s t : String} (less : s < t) : encode s < encode t := bytes_lt less

end TopicReader.Utf8
