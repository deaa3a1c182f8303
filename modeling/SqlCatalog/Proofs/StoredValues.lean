import Mathlib.Algebra.Group.Nat.Defs
import Mathlib.Data.List.TakeWhile
import SqlCatalog.Database.Cell
import SqlCatalog.Proofs.MarkerRegions
/-!
Values that are written to a database and read back. Nothing is lost but the kinds that a database
does not have, and what was written of those is read off the value that comes back; only a leap
second inside a minute comes back as the second after it (`Value.stored_recovered_iff`). The text of
a timestamp is read as `Timestamp.of_text_text` tells.
-/
namespace SqlCatalog

namespace Timestamp

/-! ### Numbers -/

theorem value_eq (cs : List Char) : value cs = Nat.ofDigitChars 10 cs 0 := by
  rw [value, Nat.ofDigitChars_eq_foldl]
  congr 1
  funext n c
  rw [Nat.mul_comm]

theorem value_padded (width n : Nat) : value (padded width n) = n := by
  rw [value_eq, padded, Nat.ofDigitChars_append, Nat.ofDigitChars_replicate_zero, Nat.mul_zero,
    Nat.ofDigitChars_ten_toDigits]

theorem padded_digit {width n : Nat} : ∀ c ∈ padded width n, c.isDigit = true := by
  intro c mem
  rcases List.mem_append.mp mem with zero | digit
  · rw [List.eq_of_mem_replicate zero]
    rfl
  · exact Nat.isDigit_of_mem_toDigits (by decide) (by decide) digit

theorem padded_length {width n : Nat} (positive : 0 < width) (fits : n < 10 ^ width) :
    (padded width n).length = width := by
  have short : (Nat.toDigits 10 n).length ≤ width :=
    (Nat.length_toDigits_le_iff (by decide) positive).mpr fits
  rw [padded, List.length_append, List.length_replicate]
  omega

theorem padded_cons (width n : Nat) :
    ∃ c digits, padded width n = c :: digits ∧ c.isDigit = true := by
  have some : padded width n ≠ [] := fun none =>
    Nat.toDigits_ne_nil (List.append_eq_nil_iff.mp none).2
  obtain ⟨c, digits, first⟩ := List.exists_cons_of_ne_nil some
  exact ⟨c, digits, first, padded_digit c (by rw [first]; exact List.mem_cons_self)⟩

theorem digit_not_blank {c : Char} (digit : c.isDigit = true) : Text.isBlank c = false := by
  have bounds : '0'.toNat ≤ c.toNat ∧ c.toNat ≤ '9'.toNat := by
    simp only [Char.isDigit, Bool.and_eq_true, decide_eq_true_eq, UInt32.le_iff_toNat_le] at digit
    exact digit
  have ascii : c.val < 0x80 := by
    rw [UInt32.lt_iff_toNat_lt]
    exact Nat.lt_of_le_of_lt bounds.2 (by decide)
  rw [Text.isBlank, if_pos ascii]
  simp [UInt32.le_iff_toNat_le, ← UInt32.toNat_inj] at bounds ⊢
  omega

def NoDigit (cs : List Char) : Prop := ∀ c ∈ cs.head?, c.isDigit = false

theorem digits_padded {width places n : Nat} {rest : List Char}
    (fits : (padded places n).length ≤ width) (ends : NoDigit rest) :
    digits? width (padded places n ++ rest) = some (n, rest) := by
  have run : ((padded places n ++ rest).take width).takeWhile Char.isDigit = padded places n := by
    rw [List.take_append, List.take_of_length_le fits]
    refine Marker.take_while_run padded_digit fun c mem => ends c ?_
    rw [List.head?_take] at mem
    split at mem
    · cases mem
    · exact mem
  obtain ⟨c, digits, first, -⟩ := padded_cons places n
  have some : (padded places n).isEmpty = false := by rw [first]; rfl
  rw [digits?, run]
  simp only [some, value_padded, List.drop_left]
  rfl

theorem drop_blanks_padded (places n : Nat) (rest : List Char) :
    (padded places n ++ rest).dropWhile Text.isBlank = padded places n ++ rest := by
  obtain ⟨c, digits, first, digit⟩ := padded_cons places n
  rw [first, List.cons_append, List.dropWhile_cons, if_neg (by simp [digit_not_blank digit])]

theorem number_padded {n : Nat} {rest : List Char} (fits : n < 100) (ends : NoDigit rest) :
    number? 2 (padded 2 n ++ rest) = some (n, rest) := by
  rw [number?, drop_blanks_padded]
  exact digits_padded (Nat.le_of_eq (padded_length (by decide) fits)) ends

theorem number_behind_space {n : Nat} {rest : List Char} (fits : n < 100) (ends : NoDigit rest) :
    number? 2 (' ' :: (padded 2 n ++ rest)) = some (n, rest) :=
  number_padded fits ends

/-! ### Parts -/

theorem year_read (year : Int) {rest : List Char} (ends : NoDigit rest) :
    year? (yearText year ++ rest) = some (year, rest) := by
  have signed : digits? (padded 4 year.natAbs ++ rest).length (padded 4 year.natAbs ++ rest) =
      some (year.natAbs, rest) :=
    digits_padded (by simp) ends
  rw [yearText]
  by_cases plain : 0 ≤ year ∧ year ≤ 9999
  · obtain ⟨c, digits, first, digit⟩ := padded_cons 4 year.natAbs
    have read : digits? 4 (padded 4 year.natAbs ++ rest) = some (year.natAbs, rest) :=
      digits_padded (Nat.le_of_eq (padded_length (by decide) (by omega))) ends
    have same : (year.natAbs : Int) = year := by omega
    rw [if_pos plain, year?, drop_blanks_padded]
    -- A text that begins with a digit begins with no sign.
    split
    · next minus =>
      rw [first] at minus
      cases minus
      cases digit
    · next plus =>
      rw [first] at plus
      cases plus
      cases digit
    · simp only [read, Option.map_some, same]
  · rw [if_neg plain]
    by_cases negative : year < 0
    · have same : -(year.natAbs : Int) = year := by omega
      rw [if_pos negative, List.cons_append]
      change (digits? _ _).map _ = _
      simp only [signed, Option.map_some, same]
    · have same : (year.natAbs : Int) = year := by omega
      rw [if_neg negative, List.cons_append]
      change (digits? _ _).map _ = _
      simp only [signed, Option.map_some, same]

theorem fraction_places {places n scale : Nat} (some : 0 < places) (atMost : places ≤ 9)
    (fits : n < 10 ^ places) (scaled : 10 ^ (9 - places) = scale) :
    fraction? ('.' :: padded places n) = .some (n * scale, []) := by
  have length := padded_length some fits
  have run : (padded places n).takeWhile Char.isDigit = padded places n :=
    List.takeWhile_eq_self_iff.mpr padded_digit
  have nine : (padded places n).take 9 = padded places n :=
    List.take_of_length_le (by omega)
  have behind : (padded places n).drop places = [] := List.drop_of_length_le (by omega)
  obtain ⟨c, digits, first, -⟩ := padded_cons places n
  have nonempty : (padded places n).isEmpty = false := by rw [first]; rfl
  rw [fraction?, ← scaled]
  simp only [run, nine, nonempty, value_padded, length, behind]
  rfl

theorem fraction_read {nanosecond : Nat} (fits : nanosecond < billion) :
    fraction? (fractionText nanosecond) = some (nanosecond, []) := by
  rw [billion] at fits
  rw [fractionText]
  by_cases zero : nanosecond = 0
  · rw [if_pos zero, zero]
    rfl
  · rw [if_neg zero]
    by_cases milli : nanosecond % 1000000 = 0
    · have scaled : 10 ^ (9 - 3) = 1000000 := rfl
      rw [if_pos milli, fraction_places (by decide) (by decide) (by omega) scaled,
        Nat.div_mul_cancel (Nat.dvd_of_mod_eq_zero milli)]
    · rw [if_neg milli]
      by_cases micro : nanosecond % 1000 = 0
      · have scaled : 10 ^ (9 - 6) = 1000 := rfl
        rw [if_pos micro, fraction_places (by decide) (by decide) (by omega) scaled,
          Nat.div_mul_cancel (Nat.dvd_of_mod_eq_zero micro)]
      · have scaled : 10 ^ (9 - 9) = 1 := rfl
        rw [if_neg micro, fraction_places (by decide) (by decide) fits scaled, Nat.mul_one]

theorem fraction_no_digit (nanosecond : Nat) : NoDigit (fractionText nanosecond) := by
  unfold NoDigit fractionText
  repeat' split
  all_goals simp

/-! ### Timestamps -/

theorem days_in_le (year : Int) (month : Nat) : daysIn year month ≤ 31 := by
  unfold daysIn
  repeat' split
  all_goals decide

-- The second is the one that is written, 60 in a leap second.
theorem of_chars_parts (year : Int) {month day hour minute second fraction : Nat}
    (months : month < 100) (days : day < 100) (hours : hour < 100) (minutes : minute < 100)
    (seconds : second < 100) (fractions : fraction < billion) :
    ofChars? (yearText year ++ '-' :: padded 2 month ++ '-' :: padded 2 day ++ ' ' ::
        padded 2 hour ++ ':' :: padded 2 minute ++ ':' :: padded 2 second ++ fractionText fraction) =
      if second = 60 then ofParts? year month day hour minute 59 (billion + fraction)
      else ofParts? year month day hour minute second fraction := by
  have ends (c : Char) (rest : List Char) (other : c.isDigit = false) : NoDigit (c :: rest) := by
    rintro d ⟨⟩
    exact other
  have marks (c : Char) (rest : List Char) : mark? c (c :: rest) = some rest := if_pos rfl
  simp only [List.append_assoc, List.cons_append]
  rw [ofChars?, year_read year (ends '-' _ rfl)]
  simp only [Option.bind_eq_bind, Option.bind_some, marks]
  rw [number_padded months (ends '-' _ rfl)]
  simp only [Option.bind_some, marks]
  rw [number_padded days (ends ' ' _ rfl)]
  simp only [Option.bind_some]
  rw [number_behind_space hours (ends ':' _ rfl)]
  simp only [Option.bind_some, marks]
  rw [number_padded minutes (ends ':' _ rfl)]
  simp only [Option.bind_some, marks]
  rw [number_padded seconds (fraction_no_digit fraction)]
  simp only [Option.bind_some]
  rw [fraction_read fractions]
  rfl

theorem of_parts_valid (t : Timestamp) :
    ofParts? t.year t.month t.day t.hour t.minute t.second t.nanosecond = some t := by
  rw [ofParts?, dif_pos ⟨t.validDate, t.validTime⟩]

-- A leap second is told from the second after it only where that one is the 60th.
def Told (t : Timestamp) : Prop := billion ≤ t.nanosecond → t.second = 59

instance (t : Timestamp) : Decidable t.Told := inferInstanceAs (Decidable (_ → _))

def read (t : Timestamp) : Timestamp :=
  if told : t.Told then t
  else
    { t with
      second := t.second + 1
      nanosecond := t.nanosecond - billion
      validTime := by
        obtain ⟨hours, minutes, seconds, nanoseconds⟩ := t.validTime
        obtain ⟨-, other⟩ := Classical.not_imp.mp told
        exact ⟨hours, minutes, by omega, by omega⟩ }

theorem read_told {t : Timestamp} (told : t.Told) : t.read = t := dif_pos told

theorem read_eq_iff (t : Timestamp) : t.read = t ↔ t.Told := by
  refine ⟨fun same => ?_, read_told⟩
  by_contra untold
  have second := congrArg second same
  rw [read, dif_neg untold] at second
  exact Nat.succ_ne_self _ second

theorem of_chars_chars (t : Timestamp) : ofChars? t.chars = some t.read := by
  obtain ⟨-, -, -, months, -, days⟩ := t.validDate
  obtain ⟨hours, minutes, seconds, nanoseconds⟩ := t.validTime
  have dayBound := days_in_le t.year t.month
  have positive : 0 < billion := by decide
  have shown : t.second + t.nanosecond / billion < 100 := by
    have second : t.nanosecond / billion < 2 := Nat.div_lt_of_lt_mul (by omega)
    omega
  rw [chars, of_chars_parts t.year (by omega) (by omega) (by omega) (by omega) shown
    (Nat.mod_lt _ positive)]
  by_cases within : t.nanosecond < billion
  · have told : t.Told := fun leap => absurd within (Nat.not_lt.mpr leap)
    rw [Nat.div_eq_of_lt within, Nat.mod_eq_of_lt within, Nat.add_zero, if_neg (by omega),
      read_told told]
    exact t.of_parts_valid
  · have leap : billion ≤ t.nanosecond := Nat.not_lt.mp within
    have one : t.nanosecond / billion = 1 := Nat.div_eq_of_lt_le (by omega) (by omega)
    have rest : t.nanosecond % billion = t.nanosecond - billion := by
      rw [Nat.mod_eq_sub_mod leap, Nat.mod_eq_of_lt (by omega)]
    rw [one, rest]
    by_cases last : t.second = 59
    · rw [last, if_pos rfl, Nat.add_sub_cancel' leap, ← last, read_told fun _ => last]
      exact t.of_parts_valid
    · have untold : ¬t.Told := fun told => last (told leap)
      have parts := t.read.of_parts_valid
      rw [read, dif_neg untold] at parts ⊢
      rw [if_neg (by omega)]
      exact parts

theorem of_text_text (t : Timestamp) : ofText? t.text = some t.read := by
  rw [ofText?, text, String.toList_ofList, of_chars_chars]

end Timestamp

namespace Value

open Database

def stored (v : Value) : Value := v.toCell.bound.toValue

-- A database has no JSON, and stores what is no number as null.
def Storable : Value → Prop
  | float x => x.isNaN = false
  | json _ => False
  | _ => True

-- What has come back is the value, or something that the value is read off.
def Recovers (v w : Value) : Prop :=
  match v with
  | bool b => w.asBool? = some b
  | timestamp t => w.asTimestamp? = some t
  | _ => w = v

def Told (v : Value) : Prop := ∀ t, v = timestamp t → t.Told

theorem stored_float {x : Float} (number : x.isNaN = false) : (float x).stored = float x := by
  have written : (float x).toCell.bound = .real x := by
    rw [toCell, Cell.bound, number]
    rfl
  rw [stored, written]
  rfl

theorem stored_timestamp (t : Timestamp) : (timestamp t).stored.asTimestamp? = some t.read :=
  t.of_text_text

theorem stored_recovers {v : Value} (storable : v.Storable) (told : v.Told) :
    v.Recovers v.stored := by
  cases v with
  | bool b => cases b <;> rfl
  | float x => exact stored_float storable
  | timestamp t => rw [Recovers, stored_timestamp, Timestamp.read_told (told t rfl)]
  | json j => exact storable.elim
  | null | int n | text s | blob bytes => rfl

theorem stored_recovered_iff (v : Value) (storable : v.Storable) :
    (v.Recovers v.stored ↔ v.Told) ∧
      ∀ t, v = timestamp t → v.stored.asTimestamp? = some t.read := by
  refine ⟨⟨fun recovered t same => ?_, stored_recovers storable⟩, fun t same => ?_⟩
  · subst same
    rw [Recovers, stored_timestamp] at recovered
    exact t.read_eq_iff.mp (Option.some.inj recovered)
  · subst same
    exact stored_timestamp t

theorem stored_recovered_leap :
    let t : Timestamp := ⟨-262143, 12, 31, 23, 59, 59, 1999999999, by decide, by decide⟩
    (timestamp t).Storable ∧ (timestamp t).stored = text "-262143-12-31 23:59:60.999999999" ∧
      (timestamp t).Told ∧ (timestamp t).stored.asTimestamp? = some t := by
  intro t
  have written : t.text = "-262143-12-31 23:59:60.999999999" := by decide
  have told : (timestamp t).Told := by
    rintro _ ⟨⟩ -
    rfl
  exact ⟨trivial, congrArg text written, told,
    (stored_recovered_iff (timestamp t) trivial).1.mpr told⟩

theorem leap_second_passed :
    let t : Timestamp := ⟨2015, 7, 1, 23, 56, 4, 1333333333, by decide, by decide⟩
    (timestamp t).Storable ∧ (timestamp t).stored = text "2015-07-01 23:56:05.333333333" ∧
      ¬(timestamp t).Recovers (timestamp t).stored := by
  intro t
  have written : t.text = "2015-07-01 23:56:05.333333333" := by decide
  refine ⟨trivial, congrArg text written, fun recovered => ?_⟩
  have read : t.read = t := Option.some.inj ((stored_timestamp t).symm.trans recovered)
  exact absurd read (by decide)

end Value
end SqlCatalog
