import Mathlib
/-!
The order of texts by code points is the order of their UTF-8 bytes (`utf8_lt`).
-/
namespace SqlCatalog.Text

def utf8 (s : String) : List UInt8 := s.toUTF8.data.toList

theorem utf8_characters (s : String) : utf8 s = s.toList.flatMap String.utf8EncodeChar := by
  conv => lhs; rw [← String.ofList_toList (s := s)]
  rw [utf8, String.toUTF8_eq_toByteArray, String.toByteArray_ofList, List.utf8Encode,
    List.toList_data_toByteArray]

-- Of two characters the greater one has the greater first byte or, with as many bytes, a greater byte
-- at the first place where they differ; so it does not matter what follows.
theorem encoded_lt {c d : Char} (less : c < d) (cs ds : List UInt8) :
    String.utf8EncodeChar c ++ cs < String.utf8EncodeChar d ++ ds := by
  have values : c.val.toNat < d.val.toNat := less
  have bound : d.val.toNat < 0x110000 := by
    have valid := d.valid
    simp only [UInt32.isValidChar, Nat.isValidChar] at valid
    omega
  have nested (n : Nat) : n / 4096 = n / 64 / 64 ∧ n / 262144 = n / 64 / 64 / 64 := by
    simp only [Nat.div_div_eq_div_mul, and_self]
  have byte (n : Nat) (fits : n < 256) : (UInt8.ofNat n).toNat = n := by
    rw [UInt8.toNat_ofNat', Nat.mod_eq_of_lt fits]
  unfold String.utf8EncodeChar
  generalize c.val.toNat = v at values
  generalize d.val.toNat = w at values bound
  simp only [nested]
  split_ifs <;>
    simp only [List.cons_append, List.nil_append, List.cons_lt_cons_iff, UInt8.lt_iff_toNat_lt,
      ← UInt8.toNat_inj] <;>
    (repeat rw [byte _ (by omega)]) <;> omega

theorem characters_lt {cs ds : List Char} (less : cs < ds) :
    cs.flatMap String.utf8EncodeChar < ds.flatMap String.utf8EncodeChar := by
  induction cs generalizing ds with
  | nil =>
    cases ds with
    | nil => exact absurd less (List.not_lt_nil _)
    | cons d ds =>
      obtain ⟨b, bs, encoded⟩ := List.exists_cons_of_ne_nil (String.utf8EncodeChar_ne_nil (c := d))
      rw [List.flatMap_cons, encoded]
      exact List.nil_lt_cons _ _
  | cons c cs ih =>
    cases ds with
    | nil => exact absurd less (List.not_lt_nil _)
    | cons d ds =>
      rw [List.flatMap_cons, List.flatMap_cons]
      rcases List.cons_lt_cons_iff.mp less with before | ⟨rfl, rest⟩
      · exact encoded_lt before _ _
      · exact List.append_left_lt (ih rest)

theorem utf8_lt {s t : String} (less : s < t) : utf8 s < utf8 t := by
  rw [utf8_characters, utf8_characters]
  exact characters_lt (String.lt_iff_toList_lt.mp less)

end SqlCatalog.Text
