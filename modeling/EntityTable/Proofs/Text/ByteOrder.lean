import Mathlib.Data.String.Basic
import Mathlib.Tactic.SplitIfs

/-! # The order of texts

Texts are compared character by character. This is the order of their bytes in UTF-8: of two
characters the greater one has the greater bytes, whatever follows them
(`utf8EncodeChar_append_lt`). -/

namespace EntityTable.Text

/-- The bytes of a text in UTF-8. -/
def bytes (s : String) : List UInt8 := s.toUTF8.data.toList

theorem bytes_eq (s : String) : bytes s = s.toList.flatMap String.utf8EncodeChar := by
  have h : bytes s = s.toList.utf8Encode.data.toList := by
    rw [String.utf8Encode_toList]
    rfl
  rw [h, List.utf8Encode, List.toList_data_toByteArray]

theorem utf8EncodeChar_append_lt {c d : Char} (h : c < d) (a b : List UInt8) :
    String.utf8EncodeChar c ++ a < String.utf8EncodeChar d ++ b := by
  have hlt : c.val.toNat < d.val.toNat := h
  have hd : d.val.toNat < 0x110000 := by
    have hvalid := d.valid
    simp only [UInt32.isValidChar, Nat.isValidChar] at hvalid
    omega
  -- every byte but the first holds six bits
  have htwo (n : Nat) : n / 4096 = n / 64 / 64 := by omega
  have hthree (n : Nat) : n / 262144 = n / 64 / 64 / 64 := by omega
  simp only [String.utf8EncodeChar]
  generalize c.val.toNat = v at *
  generalize d.val.toNat = w at *
  split_ifs <;>
    simp only [List.cons_append, List.nil_append, List.cons_lt_cons_iff, UInt8.lt_iff_toNat_lt,
      ← UInt8.toNat_inj, UInt8.toNat_ofNat', htwo, hthree] <;> omega

theorem flatMap_utf8EncodeChar_lt : ∀ {a b : List Char}, a < b →
    a.flatMap String.utf8EncodeChar < b.flatMap String.utf8EncodeChar
  | _, [], h => absurd h (List.not_lt_nil _)
  | [], d :: b, _ => by
    have hne : (d :: b).flatMap String.utf8EncodeChar ≠ [] := by
      rw [List.flatMap_cons]
      exact List.append_ne_nil_of_left_ne_nil String.utf8EncodeChar_ne_nil _
    obtain ⟨_, _, hbytes⟩ := List.exists_cons_of_ne_nil hne
    rw [hbytes]
    exact List.nil_lt_cons _ _
  | c :: a, d :: b, h => by
    rw [List.flatMap_cons, List.flatMap_cons]
    rcases List.cons_lt_cons_iff.mp h with hlt | ⟨rfl, hlt⟩
    · exact utf8EncodeChar_append_lt hlt _ _
    · exact List.Lex.append_left (· < ·) (flatMap_utf8EncodeChar_lt hlt) _

/-- **A text that comes before another has the lesser bytes.** -/
theorem bytes_lt_bytes {s t : String} (h : s < t) : bytes s < bytes t := by
  rw [bytes_eq, bytes_eq]
  exact flatMap_utf8EncodeChar_lt (String.lt_iff_toList_lt.mp h)

end EntityTable.Text
