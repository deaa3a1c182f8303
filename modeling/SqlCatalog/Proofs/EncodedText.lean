import SqlCatalog.Operation.Scan
import SqlCatalog.Proofs.Utf8Order
/-!
How the bytes of a text show its characters. The encoding is prefix free (`encoded_prefix_iff`), so
what begins with an ASCII character, or goes on with characters of names, can be seen in the bytes.
-/
namespace SqlCatalog.Text

def encoded (cs : List Char) : List UInt8 := cs.flatMap String.utf8EncodeChar

theorem utf8_append (s t : String) : utf8 (s ++ t) = utf8 s ++ utf8 t := by
  rw [utf8_characters, String.toList_append, List.flatMap_append, ← utf8_characters,
    ← utf8_characters]

theorem utf8_of_list (cs : List Char) : utf8 (String.ofList cs) = encoded cs := by
  rw [utf8_characters, String.toList_ofList, encoded]

@[simp] theorem encoded_nil : encoded [] = [] := rfl

theorem encoded_cons (c : Char) (cs : List Char) :
    encoded (c :: cs) = String.utf8EncodeChar c ++ encoded cs :=
  List.flatMap_cons

@[simp] theorem encoded_append (cs ds : List Char) : encoded (cs ++ ds) = encoded cs ++ encoded ds :=
  List.flatMap_append

def IsAscii (c : Char) : Prop := c.val ≤ 127

instance (c : Char) : Decidable (IsAscii c) := inferInstanceAs (Decidable (c.val ≤ 127))

theorem encoded_ascii {c : Char} (ascii : IsAscii c) (cs : List Char) :
    encoded (c :: cs) = c.toUInt8 :: encoded cs := by
  rw [encoded_cons, String.utf8EncodeChar_eq_singleton (Char.utf8Size_eq_one_iff.mpr ascii)]
  rfl

theorem encoded_of_ascii {cs : List Char} (ascii : ∀ c ∈ cs, IsAscii c) :
    encoded cs = cs.map Char.toUInt8 := by
  induction cs with
  | nil => rfl
  | cons c cs ih =>
    rw [encoded_ascii (ascii c List.mem_cons_self), ih fun d mem => ascii d (List.mem_cons_of_mem c mem),
      List.map_cons]

theorem length_encoded_ascii {cs : List Char} (ascii : ∀ c ∈ cs, IsAscii c) :
    (encoded cs).length = cs.length := by
  rw [encoded_of_ascii ascii, List.length_map]

theorem of_byte {c : Char} (ascii : IsAscii c) : Char.ofUInt8 c.toUInt8 = c := by
  have small : c.val.toNat ≤ 127 := UInt32.le_iff_toNat_le.mp ascii
  have same : (Char.ofUInt8 c.toUInt8).val.toNat = c.val.toNat % 256 := rfl
  rw [← Char.val_inj, ← UInt32.toNat_inj, same]
  omega

theorem ascii_small {c : Char} (ascii : IsAscii c) : c.toUInt8 < 0x80 := by
  have small : c.val.toNat ≤ 127 := UInt32.le_iff_toNat_le.mp ascii
  have same : c.toUInt8.toNat = c.val.toNat % 256 := rfl
  rw [UInt8.lt_iff_toNat_lt, same]
  exact lt_of_le_of_lt (Nat.mod_le _ _) (Nat.lt_succ_of_le small)

theorem byte_inj {c d : Char} (left : IsAscii c) (right : IsAscii d) :
    c.toUInt8 = d.toUInt8 ↔ c = d := by
  constructor
  · intro same
    rw [← of_byte left, same, of_byte right]
  · exact congrArg Char.toUInt8

-- A longer character has no ASCII byte, and its first byte is none that goes on with a character.
theorem encoded_other {c : Char} (other : ¬ IsAscii c) :
    ∃ b bs, String.utf8EncodeChar c = b :: bs ∧ 0xC0 ≤ b ∧ ∀ d ∈ b :: bs, 0x80 ≤ d := by
  have large : 127 < c.val.toNat := by simpa [IsAscii, UInt32.le_iff_toNat_le] using other
  have bound : c.val.toNat < 0x110000 := by
    have valid := c.valid
    simp only [UInt32.isValidChar, Nat.isValidChar] at valid
    omega
  have byte (n : Nat) (fits : n < 256) : (UInt8.ofNat n).toNat = n := by
    rw [UInt8.toNat_ofNat', Nat.mod_eq_of_lt fits]
  unfold String.utf8EncodeChar
  generalize c.val.toNat = v at large bound
  dsimp only
  rw [if_neg (by omega)]
  split_ifs <;> refine ⟨_, _, rfl, ?_, ?_⟩ <;>
    simp only [List.mem_cons, List.not_mem_nil, or_false, forall_eq_or_imp, forall_eq,
      UInt8.le_iff_toNat_le] <;>
    (repeat rw [byte _ (by omega)]) <;> simp

theorem encoded_prefix_iff {cs ds : List Char} : encoded cs <+: encoded ds ↔ cs <+: ds := by
  constructor
  · intro found
    induction cs generalizing ds with
    | nil => exact List.nil_prefix
    | cons c cs ih =>
      obtain ⟨later, same⟩ := found
      cases ds with
      | nil => simp [encoded_cons] at same
      | cons d ds =>
        rw [encoded_cons, encoded_cons, List.append_assoc] at same
        -- Of two different characters one is smaller, whatever follows.
        have first : c = d := by
          rcases lt_trichotomy c d with less | equal | less
          · exact absurd (same ▸ encoded_lt less _ _) (List.lt_irrefl _)
          · exact equal
          · exact absurd (same ▸ encoded_lt less _ _) (List.lt_irrefl _)
        subst first
        exact List.cons_prefix_cons.mpr ⟨rfl, ih ⟨later, List.append_cancel_left same⟩⟩
  · rintro ⟨later, rfl⟩
    exact ⟨encoded later, (encoded_append cs later).symm⟩

theorem utf8_injective : Function.Injective utf8 := by
  intro s t same
  rw [utf8_characters, utf8_characters] at same
  have left : s.toList <+: t.toList := encoded_prefix_iff.mp ⟨[], (List.append_nil _).trans same⟩
  have right : t.toList <+: s.toList :=
    encoded_prefix_iff.mp ⟨[], (List.append_nil _).trans same.symm⟩
  exact String.toList_inj.mp (left.eq_of_length (le_antisymm left.length_le right.length_le))

theorem encoded_head_iff {c : Char} (ascii : IsAscii c) {cs : List Char} :
    (encoded cs).head? = some c.toUInt8 ↔ cs.head? = some c := by
  have single : encoded [c] = [c.toUInt8] := encoded_ascii ascii []
  have head {α : Type} (a : α) (l : List α) : l.head? = some a ↔ [a] <+: l := by
    cases l <;> simp [eq_comm]
  rw [head, head, ← single, encoded_prefix_iff]

theorem continues_ascii {c : Char} (word : Marker.continuesName c = true) : IsAscii c := by
  simp only [Marker.continuesName, Char.isAlphanum, Char.isAlpha, Char.isUpper, Char.isLower,
    Char.isDigit, Bool.or_eq_true, Bool.and_eq_true, decide_eq_true_eq, beq_iff_eq,
    UInt32.le_iff_toNat_le, ge_iff_le] at word
  rw [IsAscii, UInt32.le_iff_toNat_le]
  rcases word with ((⟨-, high⟩ | ⟨-, high⟩) | ⟨-, high⟩) | rfl
  all_goals first | exact le_trans high (by decide) | decide

theorem starts_continues {c : Char} (starts : Marker.startsName c = true) :
    Marker.continuesName c = true := by
  simp only [Marker.startsName, Marker.continuesName, Char.isAlphanum, Bool.or_eq_true] at starts ⊢
  exact starts.imp_left .inl

theorem high_stops {b : UInt8} (high : 0x80 ≤ b) : Marker.Scan.continuesName b = false := by
  refine Bool.eq_false_iff.mpr fun word => ?_
  have small : (Char.ofUInt8 b).val ≤ 127 := continues_ascii word
  have value : (Char.ofUInt8 b).val.toNat = b.toNat := by simp [Char.ofUInt8]
  rw [UInt32.le_iff_toNat_le, value] at small
  exact absurd (le_trans (UInt8.le_iff_toNat_le.mp high) small) (by decide)

-- The characters that go on with a name are the bytes that do.
theorem encoded_run (cs : List Char) :
    (encoded cs).takeWhile Marker.Scan.continuesName =
      encoded (cs.takeWhile Marker.continuesName) := by
  induction cs with
  | nil => rfl
  | cons c cs ih =>
    by_cases ascii : IsAscii c
    · have seen : Marker.Scan.continuesName c.toUInt8 = Marker.continuesName c := by
        rw [Marker.Scan.continuesName, of_byte ascii]
      rw [encoded_ascii ascii, List.takeWhile_cons, List.takeWhile_cons, seen]
      cases Marker.continuesName c with
      | false => rfl
      | true => simp only [if_true, ih, encoded_ascii ascii]
    · obtain ⟨b, bs, bytes, -, high⟩ := encoded_other ascii
      have stops : ¬ Marker.continuesName c = true := fun word => ascii (continues_ascii word)
      have stopsByte : ¬ Marker.Scan.continuesName b = true := by
        simp [high_stops (high b List.mem_cons_self)]
      rw [encoded_cons, bytes, List.cons_append, List.takeWhile_cons_of_neg stopsByte,
        List.takeWhile_cons_of_neg stops, encoded_nil]

end SqlCatalog.Text
