import Mathlib.Data.String.Basic

namespace TableQuery.Text

def bytes (s : String) : List UInt8 := s.toUTF8.data.toList

theorem bytes_eq (s : String) : bytes s = s.toList.flatMap String.utf8EncodeChar := by
  rw [bytes, String.toUTF8_eq_toByteArray, ← String.utf8Encode_toList, List.utf8Encode,
    List.toList_data_toByteArray]

theorem cons_ofNat_lt_iff {a b : Nat} (ha : a < 256) (hb : b < 256) (s t : List UInt8) :
    UInt8.ofNat a :: s < UInt8.ofNat b :: t ↔ a < b ∨ a = b ∧ s < t := by
  rw [List.cons_lt_cons_iff, UInt8.lt_iff_toNat_lt, ← UInt8.toNat_inj, UInt8.toNat_ofNat_of_lt' ha,
    UInt8.toNat_ofNat_of_lt' hb]

theorem utf8EncodeChar_append_lt {c d : Char} (h : c < d) (s t : List UInt8) :
    String.utf8EncodeChar c ++ s < String.utf8EncodeChar d ++ t := by
  have hlt : c.val.toNat < d.val.toNat := h
  have hd : d.val.toNat < 0x110000 := by
    have hvalid := d.valid
    simp only [UInt32.isValidChar, Nat.isValidChar] at hvalid
    omega
  -- where the numbers differ first in base 64, which decides between two codes of four bytes
  have hdigit : c.val.toNat / 262144 < d.val.toNat / 262144 ∨
      c.val.toNat / 262144 = d.val.toNat / 262144 ∧
        (c.val.toNat / 4096 < d.val.toNat / 4096 ∨
          c.val.toNat / 4096 = d.val.toNat / 4096 ∧ c.val.toNat / 64 ≤ d.val.toNat / 64) := by
    omega
  unfold String.utf8EncodeChar
  dsimp only
  rcases hdigit with htop | ⟨htop, hnext | ⟨hnext, hlast⟩⟩ <;> split_ifs <;>
    simp (disch := omega) only [List.cons_append, List.nil_append, cons_ofNat_lt_iff] <;> omega

theorem flatMap_utf8EncodeChar_lt {l m : List Char} (h : l < m) :
    l.flatMap String.utf8EncodeChar < m.flatMap String.utf8EncodeChar := by
  induction l generalizing m with
  | nil =>
    cases m with
    | nil => exact absurd h (List.not_lt_nil [])
    | cons d m =>
      obtain ⟨b, code, hcode⟩ := List.exists_cons_of_ne_nil (String.utf8EncodeChar_ne_nil (c := d))
      rw [List.flatMap_cons, hcode]
      exact List.nil_lt_cons _ _
  | cons c l ih =>
    cases m with
    | nil => exact absurd h (List.not_lt_nil _)
    | cons d m =>
      rw [List.flatMap_cons, List.flatMap_cons]
      rcases List.cons_lt_cons_iff.mp h with hcd | ⟨rfl, hlm⟩
      · exact utf8EncodeChar_append_lt hcd _ _
      · exact List.append_left_lt (ih hlm)

theorem lt_iff_bytes_lt {a b : String} : a < b ↔ bytes a < bytes b := by
  have hmono : ∀ s t : String, s < t → bytes s < bytes t := by
    intro s t hst
    rw [bytes_eq, bytes_eq]
    exact flatMap_utf8EncodeChar_lt (String.lt_iff_toList_lt.mp hst)
  refine ⟨hmono a b, ?_⟩
  intro h
  by_contra hnot
  rcases lt_or_eq_of_le (String.not_lt.mp hnot) with hba | rfl
  · exact List.lt_asymm h (hmono b a hba)
  · exact List.lt_irrefl _ h

end TableQuery.Text
