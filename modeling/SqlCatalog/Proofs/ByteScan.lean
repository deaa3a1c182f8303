import SqlCatalog.Proofs.ByteSteps
/-!
The scan over the bytes of a text finishes and makes no bad read, cut or difference, and what it writes
are the bytes of the text that the scan over the characters writes (`scan_faultless`).
-/
namespace SqlCatalog.Marker

def regionsFrom (style : PlaceholderStyle) (region : Region) (cs : List Char) : List Region :=
  match cs with
  | [] => [region]
  | c :: cs =>
    let m := step style region c cs
    region :: regionsFrom style m.region (cs.drop m.more)
termination_by cs.length
decreasing_by simp only [List.length_cons, List.length_drop]; omega

def regions (style : PlaceholderStyle) (sql : String) : List Region :=
  regionsFrom style .plain sql.toList

variable {style : PlaceholderStyle} {region : Region} {ps : List Piece}

theorem mem_regions_from (cs : List Char) : region ∈ regionsFrom style region cs := by
  unfold regionsFrom
  split <;> exact List.mem_cons_self

theorem plain_depth (c : Char) (cs : List Char) : (plainStep style c cs).region.depth ≤ 1 := by
  unfold plainStep
  split
  all_goals try exact Nat.le_refl _
  all_goals try exact Nat.zero_le _
  · split_ifs
    · split <;> exact Nat.zero_le _
    · exact Nat.zero_le _
  · split_ifs <;> exact Nat.zero_le _

theorem step_depth (region : Region) (c : Char) (cs : List Char) :
    (step style region c cs).region.depth ≤ region.depth + 1 := by
  cases region with
  | plain => exact plain_depth c cs
  | singleQuoted => simp only [step]; split_ifs <;> exact Nat.zero_le _
  | doubleQuoted => simp only [step]; split_ifs <;> exact Nat.zero_le _
  | lineComment => simp only [step]; split_ifs <;> exact Nat.zero_le _
  | blockComment depth =>
    cases depth <;> simp only [step] <;> split_ifs <;> simp [Region.depth]
  | dollarQuoted tag => simp only [step]; split_ifs <;> exact Nat.zero_le _

theorem regions_depth (region : Region) (cs : List Char) :
    ∀ r ∈ regionsFrom style region cs, r.depth ≤ region.depth + cs.length := by
  cases cs with
  | nil => simp [regionsFrom]
  | cons c cs =>
    intro r mem
    rw [regionsFrom] at mem
    rcases List.mem_cons.mp mem with rfl | later
    · exact Nat.le_add_right _ _
    · have next : (step style region c cs).region.depth ≤ region.depth + 1 := step_depth region c cs
      have rest := regions_depth _ _ r later
      rw [List.length_drop] at rest
      rw [List.length_cons]
      omega
termination_by cs.length
decreasing_by simp only [List.length_cons, List.length_drop]; omega

-- A comment takes more than one character to open.
theorem shallow_of_short {sql : String} (short : sql.length < 2 ^ 32) :
    ∀ r ∈ regions style sql, r.depth < 2 ^ 32 := by
  intro r mem
  have bound := regions_depth .plain sql.toList r mem
  have plain : Region.plain.depth = 0 := rfl
  rw [String.length_toList, plain, Nat.zero_add] at bound
  exact lt_of_le_of_lt bound short

theorem names_append (ps qs : List Piece) : ∃ more, names (ps ++ qs) = names ps ++ more := by
  rw [names, List.filterMap_append, first_appearances_dedup, List.eraseDups_append, names,
    first_appearances_dedup]
  exact ⟨_, rfl⟩

theorem names_text (ps : List Piece) (chars : List Char) : names (ps ++ [.text chars]) = names ps := by
  rw [names, List.filterMap_append]
  exact congrArg firstAppearances (List.append_nil _)

theorem names_marker (ps : List Piece) (name : List Char) :
    names (ps ++ [.marker name]) =
      if String.ofList name ∈ names ps then names ps else names ps ++ [String.ofList name] := by
  have listed : String.ofList name ∈ names ps ↔ String.ofList name ∈ ps.filterMap Piece.name? :=
    mem_first_appearances
  have last : [Piece.marker name].filterMap Piece.name? = [String.ofList name] := rfl
  simp only [listed]
  rw [names, List.filterMap_append, last, first_appearances_dedup, List.eraseDups_append, names,
    first_appearances_dedup, List.removeAll]
  by_cases known : String.ofList name ∈ ps.filterMap Piece.name?
  · rw [if_pos known, List.filter_cons_of_neg (by simpa using known), List.filter_nil,
      List.eraseDups_nil, List.append_nil]
  · rw [if_neg known, List.filter_cons_of_pos (by simpa using known), List.filter_nil,
      List.eraseDups_cons, List.filter_nil, List.eraseDups_nil]

theorem compile_known {p : Piece} (mem : p ∈ ps) (more : List String) :
    p.compile style (names ps ++ more) = p.compile style (names ps) := by
  cases p with
  | text chars => rfl
  | marker name =>
    have known : String.ofList name ∈ names ps :=
      mem_first_appearances.mpr (List.mem_filterMap.mpr ⟨.marker name, mem, rfl⟩)
    rw [Piece.compile, Piece.compile, List.idxOf_append_of_mem known]

def output (style : PlaceholderStyle) (ps : List Piece) : String :=
  String.join (ps.map (·.compile style (names ps)))

theorem output_append (ps : List Piece) (p : Piece) :
    output style (ps ++ [p]) = output style ps ++ p.compile style (names (ps ++ [p])) := by
  obtain ⟨more, extended⟩ := names_append ps [p]
  have kept : ps.map (·.compile style (names (ps ++ [p]))) = ps.map (·.compile style (names ps)) :=
    List.map_congr_left fun q mem => by rw [extended, compile_known mem]
  rw [output, List.map_append, kept, String.join_append, List.map_singleton, output]
  simp

namespace Scan
open Text

theorem slot_for_names (ps : List Piece) (name : List Char) :
    slotFor ((names ps).map utf8) (encoded name) =
      ((names (ps ++ [.marker name])).map utf8,
        (names (ps ++ [.marker name])).idxOf (String.ofList name) + 1) := by
  have same : ((names ps).map utf8).idxOf? (encoded name) =
      (names ps).idxOf? (String.ofList name) := by
    rw [← utf8_of_list]
    induction names ps with
    | nil => rfl
    | cons first ns ih =>
      rw [List.map_cons, List.idxOf?_cons, List.idxOf?_cons, ih]
      by_cases equal : first = String.ofList name
      · simp [equal]
      · simp [equal, utf8_injective.ne equal]
  rw [slotFor, same, names_marker]
  by_cases known : String.ofList name ∈ names ps
  · have seen : (names ps).idxOf? (String.ofList name) =
        some ((names ps).idxOf (String.ofList name)) := by
      obtain ⟨i, found⟩ := Option.isSome_iff_exists.mp (List.isSome_idxOf?.mpr known)
      rw [List.idxOf_eq_getD_idxOf?, found, Option.getD_some]
    rw [if_pos known, seen]
  · rw [if_neg known, List.idxOf?_eq_none_iff.mpr known, List.idxOf_append_of_notMem known]
    simp [utf8_of_list]

theorem utf8_placeholder (name : List Char) (slot : Nat) :
    placeholder style (encoded name) slot =
      utf8 (Marker.placeholder style (String.ofList name) slot) := by
  have digits : decimal slot = utf8 (toString slot) := by
    rw [Nat.toString_eq_ofList_toDigits, utf8_of_list, encoded_of_ascii]
    · rfl
    · intro c mem
      have digit : c.isDigit = true := Nat.isDigit_of_mem_toDigits (by decide) (by decide) mem
      exact continues_ascii (by simp [Marker.continuesName, Char.isAlphanum, digit])
  cases style with
  | sqlite => rw [Marker.placeholder, utf8_append, ← digits]; rfl
  | postgres => rw [Marker.placeholder, utf8_append, ← digits]; rfl
  | named => rw [Marker.placeholder, utf8_append, utf8_of_list name]; rfl

-- A scan that has read the pieces `found` and looks at `rest` in this region: its output has the
-- characters `copied`, and `gap` lies between them and the ones it looks at.
structure Place (style : PlaceholderStyle) (sql : String) (s : State) (copied gap rest : List Char)
    (region : Region) (found : List Piece) : Prop where
  source : sql.toList = copied ++ gap ++ rest
  copied_eq : s.copied = (encoded copied).length
  context : s.context = .ofRegion region
  pieces : pieces style sql = found ++ piecesFrom style region rest
  output : s.out ++ encoded gap = utf8 (output style found)
  params : s.params = (names found).map utf8
  shallow : ∀ r ∈ regionsFrom style region rest, r.depth < 2 ^ 32

inductive Sound (style : PlaceholderStyle) (sql : String) (s : State) : Prop where
  | between {copied gap rest : List Char} {region : Region} {found : List Piece}
      (place : Place style sql s copied gap rest region found)
      (pos : s.pos = (encoded (copied ++ gap)).length)
  | within {copied gap rest : List Char} {c : Char} {region : Region} {found : List Piece}
      (place : Place style sql s copied gap (c :: rest) region found) (other : ¬ IsAscii c)
      {passed ahead : List UInt8} (bytes : String.utf8EncodeChar c = passed ++ ahead)
      (more : ahead ≠ [])
      (pos : s.pos = (encoded (copied ++ gap)).length + passed.length)

variable {sql : String} {copied gap rest : List Char} {found : List Piece}

theorem sound_start (shallow : ∀ r ∈ regions style sql, r.depth < 2 ^ 32) :
    Sound style sql start := by
  have place : Place style sql start [] [] sql.toList .plain [] :=
    ⟨rfl, rfl, rfl, rfl, rfl, rfl, shallow⟩
  exact .between place rfl

theorem shallow_next (place : Place style sql s copied gap (c :: rest) region found) {m : Step}
    (steps : Marker.step style region c rest = m) :
    ∀ r ∈ regionsFrom style m.region (rest.drop m.more), r.depth < 2 ^ 32 := by
  intro r mem
  refine place.shallow r ?_
  rw [regionsFrom, steps]
  exact List.mem_cons_of_mem region mem

theorem place_text (place : Place style sql s copied gap (c :: rest) region found) {m : Step}
    (steps : Marker.step style region c rest = m) (nameless : m.name = none) (taken : Nat) :
    Place style sql (s.pass taken (.ofRegion m.region)) copied (gap ++ c :: rest.take m.more)
      (rest.drop m.more) m.region (found ++ [.text (c :: rest.take m.more)]) where
  source := by
    rw [place.source]
    simp
  copied_eq := place.copied_eq
  context := rfl
  pieces := by
    rw [place.pieces, piecesFrom]
    simp [steps, nameless]
  output := by
    rw [output_append, utf8_append, ← place.output, Piece.compile, utf8_of_list, encoded_append,
      List.append_assoc]
    rfl
  params := by
    rw [names_text]
    exact place.params
  shallow := shallow_next place steps

theorem place_marker {name later : List Char}
    (place : Place style sql s copied gap (':' :: (name ++ later)) .plain found)
    (steps : Marker.step style .plain ':' (name ++ later) = ⟨name.length, .plain, some name⟩)
    {last : Nat} (ends : last = (encoded (copied ++ gap ++ ':' :: name)).length) :
    Place style sql
      ⟨last, last, .plain,
        s.out ++ encoded gap ++ placeholder style (encoded name) (slotFor s.params (encoded name)).2,
        (slotFor s.params (encoded name)).1⟩
      (copied ++ gap ++ ':' :: name) [] later .plain (found ++ [.marker name]) where
  source := by
    rw [place.source]
    simp
  copied_eq := ends
  context := rfl
  pieces := by
    rw [place.pieces, piecesFrom]
    simp [steps]
  output := by
    rw [output_append, utf8_append, ← place.output, Piece.compile, place.params, slot_for_names,
      utf8_placeholder, encoded_nil, List.append_nil]
  params := by rw [place.params, slot_for_names]
  shallow := by simpa using shallow_next place steps

theorem other_step (other : ¬ IsAscii c) (cs : List Char) :
    Marker.step style region c cs = ⟨0, region, none⟩ := by
  have unlike {d : Char} (ascii : IsAscii d) : c ≠ d := fun same => other (same ▸ ascii)
  cases region with
  | plain =>
    simp only [Marker.step]
    unfold Marker.plainStep
    split <;> first | rfl | exact absurd (by decide) other
  | singleQuoted => rw [Marker.step, if_neg (unlike (by decide))]
  | doubleQuoted => rw [Marker.step, if_neg (unlike (by decide))]
  | lineComment => rw [Marker.step, if_neg (unlike (by decide))]
  | blockComment depth =>
    unfold Marker.step
    dsimp only
    rw [if_neg fun both => unlike (by decide) both.1, if_neg fun both => unlike (by decide) both.1]
  | dollarQuoted tag => rw [Marker.step, if_neg fun both => unlike (by decide) both.1]

theorem named_step {cs name : List Char} {m : Step} (steps : Marker.step style region c cs = m)
    (named : m.name = some name) :
    region = .plain ∧ c = ':' ∧ nameAt cs = name ∧ m = ⟨name.length, .plain, some name⟩ := by
  have plain : region = .plain := by
    by_contra elsewhere
    rw [← steps, nameless_elsewhere elsewhere] at named
    cases named
  subst plain
  simp only [Marker.step] at steps
  unfold Marker.plainStep at steps
  split at steps
  all_goals try (subst steps; cases named)
  · exfalso
    split_ifs at steps
    · split at steps <;> (subst steps; cases named)
    · subst steps
      cases named
  · split_ifs at steps
    · subst steps
      cases named
    · subst steps
      cases named
      exact ⟨rfl, rfl, rfl, rfl⟩

theorem name_at_run (cs : List Char) :
    (∀ c ∈ nameAt cs, IsAscii c) ∧ nameAt cs <+: cs := by
  cases cs with
  | nil => simp [nameAt]
  | cons c cs =>
    rw [nameAt]
    by_cases starts : Marker.startsName c = true
    · rw [if_pos starts]
      refine ⟨fun d mem => ?_, List.cons_prefix_cons.mpr ⟨rfl, List.takeWhile_prefix _⟩⟩
      rcases List.mem_cons.mp mem with rfl | inside
      · exact continues_ascii (starts_continues starts)
      · exact continues_ascii (List.mem_takeWhile_imp inside)
    · rw [if_neg starts]
      exact ⟨fun d mem => absurd mem List.not_mem_nil, List.nil_prefix⟩

theorem sees_rest (place : Place style sql s copied gap rest region found)
    (pos : s.pos = (encoded (copied ++ gap)).length) : (utf8 sql).drop s.pos = encoded rest := by
  rw [utf8_characters, ← encoded, place.source, encoded_append, pos, List.drop_left]

theorem within_step (place : Place style sql s copied gap (c :: rest) region found)
    (other : ¬ IsAscii c) {passed ahead : List UInt8}
    (bytes : String.utf8EncodeChar c = passed ++ ahead) (more : ahead ≠ [])
    (pos : s.pos = (encoded (copied ++ gap)).length + passed.length) :
    ∃ b next, (utf8 sql)[s.pos]? = some b ∧ step style (utf8 sql) s b = .ok next ∧
      s.pos < next.pos ∧ Sound style sql next := by
  obtain ⟨b, ahead, rfl⟩ := List.exists_cons_of_ne_nil more
  have there : (utf8 sql)[s.pos]? = some b := by
    rw [utf8_characters, ← encoded, place.source, encoded_append, encoded_cons, bytes, pos,
      List.getElem?_append_right (by omega)]
    simp
  have high : 0x80 ≤ b := by
    obtain ⟨first, others, split, -, high⟩ := encoded_other other
    refine high b ?_
    rw [← split, bytes]
    simp
  refine ⟨b, s.pass 1 s.context, there, high_step there high, Nat.lt_succ_self _, ?_⟩
  by_cases last : ahead = []
  · refine .between (place.context ▸ place_text place (other_step other rest) rfl 1) ?_
    have length := congrArg List.length bytes
    simp only [last, List.length_append, List.length_singleton] at length
    rw [List.take_zero, ← List.append_assoc, encoded_append, encoded_cons, encoded_nil,
      List.append_nil, List.length_append, length, State.pass, pos, Nat.add_assoc]
  · have moved : Place style sql (s.pass 1 s.context) copied gap (c :: rest) region found :=
      { place with }
    have further : String.utf8EncodeChar c = (passed ++ [b]) ++ ahead := by simp [bytes]
    refine .within moved other further last ?_
    rw [State.pass, pos, List.length_append, List.length_singleton, Nat.add_assoc]

theorem ascii_step (place : Place style sql s copied gap (c :: rest) region found)
    (ascii : IsAscii c) (pos : s.pos = (encoded (copied ++ gap)).length) :
    ∃ b next, (utf8 sql)[s.pos]? = some b ∧ step style (utf8 sql) s b = .ok next ∧
      s.pos < next.pos ∧ Sound style sql next := by
  have sees := sees_rest place pos
  have there : (utf8 sql)[s.pos]? = some c.toUInt8 := by
    rw [← List.head?_drop, sees, encoded_ascii ascii, List.head?_cons]
  have shallow := shallow_next place rfl _ (mem_regions_from _)
  have follows := step_follows place.context ascii sees rfl shallow
  cases named : (Marker.step style region c rest).name with
  | none =>
    rw [named] at follows
    refine ⟨_, _, there, follows, ?_, .between (place_text place rfl named _) ?_⟩
    · simp [State.follow, State.pass, encoded_ascii ascii]
    · rw [← List.append_assoc, encoded_append, List.length_append, ← pos]
      rfl
  | some name =>
    obtain ⟨rfl, rfl, called, steps⟩ := named_step rfl named
    obtain ⟨word, later, split⟩ := name_at_run rest
    rw [called] at word split
    subst split
    rw [named] at follows
    have source : utf8 sql = encoded (copied ++ gap ++ ':' :: (name ++ later)) := by
      rw [utf8_characters, ← encoded, place.source]
    have ends : s.pos + 1 + name.length = (encoded (copied ++ gap ++ ':' :: name)).length := by
      rw [encoded_append, encoded_ascii (by decide), List.length_append, List.length_cons,
        length_encoded_ascii word, ← pos]
      omega
    have marked := follows.trans (marker_step_eq source place.copied_eq pos word)
    refine ⟨_, _, there, marked, ?_, .between (place_marker place steps ends) ?_⟩
    · dsimp only
      omega
    · rw [List.append_nil]
      exact ends

theorem sound_step (sound : Sound style sql s) (inside : s.pos < (utf8 sql).length) :
    ∃ b next, (utf8 sql)[s.pos]? = some b ∧ step style (utf8 sql) s b = .ok next ∧
      s.pos < next.pos ∧ Sound style sql next := by
  cases sound with
  | @between copied gap rest region found place pos =>
    cases rest with
    | nil =>
      have ended := sees_rest place pos
      rw [encoded_nil, List.drop_eq_nil_iff] at ended
      omega
    | cons c rest =>
      by_cases ascii : IsAscii c
      · exact ascii_step place ascii pos
      · have unread : String.utf8EncodeChar c = [] ++ String.utf8EncodeChar c := rfl
        exact within_step place ascii unread String.utf8EncodeChar_ne_nil pos
  | within place other bytes ahead pos => exact within_step place other bytes ahead pos

theorem sound_bounds (sound : Sound style sql s) :
    s.copied ≤ s.pos ∧ s.pos ≤ (utf8 sql).length ∧ isBoundary (utf8 sql) s.copied = true := by
  have text : utf8 sql = encoded sql.toList := utf8_characters sql
  cases sound with
  | @between copied gap rest region found place pos =>
    rw [text, place.source, place.copied_eq, pos]
    refine ⟨by simp, by simp, ?_⟩
    rw [List.append_assoc]
    exact boundary_between copied (gap ++ rest)
  | @within copied gap rest c region found place other passed ahead bytes more pos =>
    rw [text, place.source, place.copied_eq, pos]
    refine ⟨by simp; omega, ?_, ?_⟩
    · simp [encoded_cons, bytes]
      omega
    · rw [List.append_assoc]
      exact boundary_between copied (gap ++ c :: rest)

theorem sound_end (sound : Sound style sql s) (ended : s.pos = (utf8 sql).length) :
    ∃ gap, slice (utf8 sql) s.copied (utf8 sql).length = .ok gap ∧
      s.out ++ gap = utf8 (CompiledSql.ofMarkers sql style).sql ∧
      s.params = (CompiledSql.ofMarkers sql style).params.map utf8 := by
  have text : utf8 sql = encoded sql.toList := utf8_characters sql
  cases sound with
  | @between copied gap rest region found place pos =>
    have last : rest = [] := by
      have sees := sees_rest place pos
      rw [ended, List.drop_length] at sees
      cases rest with
      | nil => rfl
      | cons c rest => simp [encoded_cons] at sees
    subst last
    have pieces : pieces style sql = found := by
      rw [place.pieces, piecesFrom, List.append_nil]
    have cut := slice_between copied gap []
    simp only [List.append_nil] at cut
    refine ⟨encoded gap, ?_, ?_, ?_⟩
    · rw [text, place.source, List.append_nil, place.copied_eq]
      exact cut
    · rw [place.output, CompiledSql.ofMarkers, pieces, output]
    · rw [place.params, CompiledSql.ofMarkers, pieces]
  | @within copied gap rest c region found place other passed ahead bytes more pos =>
    rw [text, place.source, pos] at ended
    have behind := List.length_pos_of_ne_nil more
    simp [encoded_cons, bytes] at ended
    omega

theorem run_sound (sound : Sound style sql s) :
    ∃ final, run style (utf8 sql) s = .ok final ∧ Sound style sql final ∧
      final.pos = (utf8 sql).length := by
  rw [run]
  by_cases inside : s.pos < (utf8 sql).length
  · obtain ⟨b, next, there, steps, advances, after⟩ := sound_step sound inside
    have bounded := (sound_bounds after).2.1
    obtain ⟨final, runs, ended⟩ := run_sound after
    refine ⟨final, ?_, ended⟩
    rw [if_pos inside, there]
    dsimp only
    rw [steps]
    dsimp only
    rw [if_pos advances, runs]
  · rw [if_neg inside]
    exact ⟨s, rfl, sound, le_antisymm (sound_bounds sound).2.1 (not_lt.mp inside)⟩
termination_by (utf8 sql).length - s.pos

inductive Reached (style : PlaceholderStyle) (text : List UInt8) : State → Prop where
  | start : Reached style text start
  | step {s next : State} {b : UInt8} (reached : Reached style text s)
      (there : text[s.pos]? = some b) (steps : step style text s b = .ok next) :
      Reached style text next

theorem reached_sound (shallow : ∀ r ∈ regions style sql, r.depth < 2 ^ 32)
    (reached : Reached style (utf8 sql) s) : Sound style sql s := by
  induction reached with
  | start => exact sound_start shallow
  | @step s next b reached there steps ih =>
    obtain ⟨c, after, byte, taken, -, sound⟩ := sound_step ih (List.getElem?_eq_some_iff.mp there).1
    obtain rfl : b = c := Option.some.inj (there.symm.trans byte)
    obtain rfl : next = after := Except.ok.inj (steps.symm.trans taken)
    exact sound

-- As each read, cut and difference of a step is checked, a step that comes to a state has made no bad one;
-- the last cut is the one behind the loop.
theorem scan_faultless (sql : String) (style : PlaceholderStyle)
    (shallow : ∀ r ∈ regions style sql, r.depth < 2 ^ 32) :
    (∀ s, Reached style (utf8 sql) s →
      s.copied ≤ s.pos ∧ s.pos ≤ (utf8 sql).length ∧ isBoundary (utf8 sql) s.copied = true ∧
      (s.pos < (utf8 sql).length → ∃ b next, (utf8 sql)[s.pos]? = some b ∧
        step style (utf8 sql) s b = .ok next ∧ s.pos + 1 ≤ next.pos ∧
        next.pos ≤ (utf8 sql).length)) ∧
    compile style (utf8 sql) = .ok ⟨utf8 (CompiledSql.ofMarkers sql style).sql,
      (CompiledSql.ofMarkers sql style).params.map utf8⟩ := by
  constructor
  · intro s reached
    have sound := reached_sound shallow reached
    obtain ⟨behind, within, boundary⟩ := sound_bounds sound
    refine ⟨behind, within, boundary, fun inside => ?_⟩
    obtain ⟨b, next, there, steps, advances, after⟩ := sound_step sound inside
    exact ⟨b, next, there, steps, advances, (sound_bounds after).2.1⟩
  · obtain ⟨final, runs, sound, ended⟩ := run_sound (sound_start shallow)
    obtain ⟨gap, cut, out, params⟩ := sound_end sound ended
    rw [compile, runs]
    change ((slice (utf8 sql) final.copied (utf8 sql).length).bind fun gap =>
      Except.ok (⟨final.out ++ gap, final.params⟩ : Compiled)) = _
    rw [cut, ← out, ← params]
    rfl

theorem scan_faultless_accents :
    (∀ r ∈ regions .postgres "'é':é::ü :a /* /* :é */ :x */-:b:a", r.depth < 2 ^ 32) ∧
      compile .postgres (utf8 "'é':é::ü :a /* /* :é */ :x */-:b:a") =
        .ok ⟨utf8 "'é':é::ü $1 /* /* :é */ :x */-$2$1", [utf8 "a", utf8 "b"]⟩ := by
  have shallow : ∀ r ∈ regions .postgres "'é':é::ü :a /* /* :é */ :x */-:b:a", r.depth < 2 ^ 32 :=
    shallow_of_short (by decide)
  have compiled : CompiledSql.ofMarkers "'é':é::ü :a /* /* :é */ :x */-:b:a" .postgres =
      ⟨"'é':é::ü $1 /* /* :é */ :x */-$2$1", ["a", "b"]⟩ := by
    decide +kernel
  refine ⟨shallow, ?_⟩
  rw [(scan_faultless _ _ shallow).2, compiled]
  rfl

end Scan
end SqlCatalog.Marker
