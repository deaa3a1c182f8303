import SqlCatalog.Proofs.EncodedText
import SqlCatalog.Proofs.MarkerScan
/-!
A step over the bytes of a text against the step over its characters. At an ASCII character the scan
does what it does with the characters (`step_follows`), and it passes every byte of a longer one
(`high_step`).
-/
namespace SqlCatalog.Marker

def Region.depth : Region → Nat
  | .blockComment depth => depth + 1
  | _ => 0

namespace Scan
open Text

variable {style : PlaceholderStyle} {text : List UInt8} {i : Nat}

theorem bytes_eq {first last : Nat} (ordered : first ≤ last) (inside : last ≤ text.length) :
    bytes text first last = .ok ((text.take last).drop first) :=
  if_pos ⟨ordered, inside⟩

theorem identifier_end_eq (text : List UInt8) (i : Nat) :
    identifierEnd text i = .ok (text[i]?.bind fun first =>
      if startsName first then some (i + 1 + ((text.drop (i + 1)).takeWhile continuesName).length)
      else none) := by
  unfold identifierEnd
  cases found : text[i]? with
  | none => rfl
  | some first =>
    have inside : i + 1 ≤ text.length := (List.getElem?_eq_some_iff.mp found).1
    cases starts : startsName first with
    | false => simp [starts]
    | true =>
      simp only [starts, if_true, bytes_eq inside le_rfl, List.take_length, Option.bind_some]
      rfl

theorem dollar_tag_eq (text : List UInt8) (i : Nat) :
    dollarTag text i = .ok (
      let body := text.drop (i + 1)
      let tag := body.takeWhile continuesName
      if body[tag.length]? = some '$'.toUInt8 ∧ tag.toByteArray.IsValidUTF8 then
        some (tag, i + 1 + tag.length)
      else none) := by
  unfold dollarTag rest?
  by_cases inside : i + 1 ≤ text.length
  · rw [if_pos inside]
    dsimp only
    have fits := (List.takeWhile_prefix continuesName (l := text.drop (i + 1))).length_le
    have run : (text.drop (i + 1)).take ((text.drop (i + 1)).takeWhile continuesName).length =
        (text.drop (i + 1)).takeWhile continuesName :=
      (List.prefix_iff_eq_take.mp (List.takeWhile_prefix _)).symm
    rw [bytes_eq (Nat.zero_le _) fits, run, List.drop_zero]
    by_cases closed : (text.drop (i + 1))[((text.drop (i + 1)).takeWhile continuesName).length]? =
      some '$'.toUInt8
    · simp only [closed, if_true, true_and]
      change (if _ then _ else _) = _
      split_ifs <;> rfl
    · simp only [closed, if_false, false_and]
  · rw [if_neg inside, List.drop_eq_nil_of_le (by omega)]
    rfl

theorem bracket_parts {n : Nat} {rest : List UInt8} (long : n + 2 ≤ rest.length) :
    ∃ first middle last later, rest = first :: (middle ++ last :: later) ∧ middle.length = n := by
  obtain ⟨first, rest, rfl⟩ := List.exists_cons_of_length_pos (l := rest) (by omega)
  simp only [List.length_cons] at long
  obtain ⟨last, later, behind⟩ :=
    List.exists_cons_of_length_pos (l := rest.drop n) (by rw [List.length_drop]; omega)
  refine ⟨first, rest.take n, last, later, ?_, by rw [List.length_take]; omega⟩
  rw [← behind, List.take_append_drop]

theorem bracket_prefix_iff {a first last : UInt8} {tag middle later : List UInt8}
    (same : middle.length = tag.length) :
    a :: (tag ++ [a]) <+: first :: (middle ++ last :: later) ↔
      first = a ∧ middle = tag ∧ last = a := by
  rw [List.cons_prefix_cons, eq_comm]
  refine and_congr_right' ⟨?_, ?_⟩
  · rintro ⟨more, joined⟩
    rw [List.append_assoc] at joined
    obtain ⟨rfl, behind⟩ := List.append_inj joined same.symm
    exact ⟨rfl, (List.cons.inj behind).1.symm⟩
  · rintro ⟨rfl, rfl⟩
    exact ⟨later, by simp⟩

theorem closes_dollar_eq (text : List UInt8) (i : Nat) (tag : List UInt8) :
    closesDollar text i tag =
      .ok (decide ('$'.toUInt8 :: (tag ++ ['$'.toUInt8]) <+: text.drop i)) := by
  unfold closesDollar rest?
  by_cases inside : i ≤ text.length
  · rw [if_pos inside]
    dsimp only
    generalize text.drop i = rest
    by_cases short : rest.length < tag.length + 2
    · have never : ¬ '$'.toUInt8 :: (tag ++ ['$'.toUInt8]) <+: rest := by
        intro found
        have fits := found.length_le
        rw [List.length_cons, List.length_append, List.length_singleton] at fits
        omega
      rw [if_pos short, decide_eq_false never]
    · rw [if_neg short]
      obtain ⟨first, middle, last, later, rfl, same⟩ := bracket_parts (not_lt.mp short)
      have readFirst : read (first :: (middle ++ last :: later)) 0 = .ok first := rfl
      have readLast : read (first :: (middle ++ last :: later)) (tag.length + 1) = .ok last := by
        simp [read, ← same]
      have cut : bytes (first :: (middle ++ last :: later)) 1 (tag.length + 1) = .ok middle := by
        rw [bytes_eq (by omega) (by simp; omega)]
        simp [← same]
      rw [readFirst, cut, readLast]
      change (if first ≠ '$'.toUInt8 then Except.ok false
        else if middle ≠ tag then Except.ok false else Except.ok (last == '$'.toUInt8)) = _
      simp only [bracket_prefix_iff same]
      by_cases opens : first = '$'.toUInt8 <;> by_cases named : middle = tag <;>
        simp only [opens, named, ne_eq, not_true, not_false_iff, if_true, if_false, true_and,
          false_and, beq_eq_decide, decide_false]
  · rw [if_neg inside, List.drop_eq_nil_of_le (by omega)]
    simp

theorem starts_with_eq (text : List UInt8) (i : Nat) {pattern : List UInt8} (nonempty : pattern ≠ []) :
    startsWith text i pattern = true ↔ pattern <+: text.drop i := by
  unfold startsWith rest?
  by_cases inside : i ≤ text.length
  · rw [if_pos inside, Option.any_some, List.isPrefixOf_iff_prefix]
  · rw [if_neg inside, List.drop_eq_nil_of_le (by omega)]
    simp [nonempty]

variable {s : State} {c : Char} {cs : List Char}

theorem sees_behind (ascii : IsAscii c) (sees : text.drop i = encoded (c :: cs)) :
    text.drop (i + 1) = encoded cs := by
  rw [← List.drop_drop, sees, encoded_ascii ascii, List.drop_one, List.tail_cons]

theorem sees_next (ascii : IsAscii c) (sees : text.drop i = encoded (c :: cs)) {d : Char}
    (known : IsAscii d) : text[i + 1]? = some d.toUInt8 ↔ cs.head? = some d := by
  rw [← List.head?_drop, sees_behind ascii sees, encoded_head_iff known]

theorem sees_pair (ascii : IsAscii c) (sees : text.drop i = encoded (c :: cs)) {a b : Char}
    (first : IsAscii a) (second : IsAscii b) :
    startsWith text i [a.toUInt8, b.toUInt8] = true ↔ c = a ∧ cs.head? = some b := by
  rw [starts_with_eq _ _ (by simp), sees, encoded_ascii ascii, List.cons_prefix_cons,
    byte_inj first ascii, eq_comm (a := a), ← encoded_head_iff second]
  cases encoded cs <;> simp [eq_comm]

theorem sees_name (sees : text.drop i = encoded cs) :
    identifierEnd text i = .ok (if nameAt cs = [] then none else some (i + (nameAt cs).length)) := by
  rw [identifier_end_eq, ← List.head?_drop, sees]
  congr 1
  cases cs with
  | nil => rfl
  | cons c cs =>
    by_cases ascii : IsAscii c
    · have seen : startsName c.toUInt8 = Marker.startsName c := by
        rw [startsName, of_byte ascii]
      rw [encoded_ascii ascii, List.head?_cons, Option.bind_some, seen, sees_behind ascii sees,
        encoded_run, nameAt]
      cases Marker.startsName c with
      | false => rfl
      | true =>
        have length := length_encoded_ascii fun d mem =>
          continues_ascii (List.mem_takeWhile_imp (l := cs) mem)
        simp only [if_true, length, reduceCtorEq, if_false, List.length_cons]
        rw [Nat.add_right_comm, Nat.add_assoc]
    · obtain ⟨b, bs, bytes, -, high⟩ := encoded_other ascii
      have unnamed : ¬ Marker.startsName c = true := fun starts =>
        ascii (continues_ascii (starts_continues starts))
      have unnamedByte : ¬ startsName b = true := fun starts =>
        Bool.false_ne_true ((high_stops (high b List.mem_cons_self)).symm.trans
          (starts_continues starts))
      rw [encoded_cons, bytes, List.cons_append, List.head?_cons, Option.bind_some,
        if_neg unnamedByte, nameAt, if_neg unnamed, if_pos rfl]

theorem sees_tag (sees : text.drop (i + 1) = encoded cs) :
    dollarTag text i = .ok ((tagAt? cs).map fun tag => (encoded tag, i + 1 + tag.length)) := by
  have length := length_encoded_ascii fun d mem =>
    continues_ascii (List.mem_takeWhile_imp (l := cs) mem)
  have behind : (encoded cs)[(cs.takeWhile Marker.continuesName).length]? = some '$'.toUInt8 ↔
      (cs.drop (cs.takeWhile Marker.continuesName).length).head? = some '$' := by
    have whole := congrArg encoded
      (List.prefix_iff_eq_append.mp (List.takeWhile_prefix Marker.continuesName (l := cs)))
    rw [encoded_append] at whole
    rw [← encoded_head_iff (by decide), ← whole, ← length, List.getElem?_append_right le_rfl,
      Nat.sub_self, List.head?_eq_getElem?]
  have valid : (encoded (cs.takeWhile Marker.continuesName)).toByteArray.IsValidUTF8 :=
    ⟨_, rfl⟩
  simp only [dollar_tag_eq, sees, encoded_run, length, behind, valid, and_true, tagAt?]
  split_ifs with closed
  · simp only [Option.map_some]
  · rfl

theorem sees_closing (sees : text.drop i = encoded cs) (tag : List Char) :
    closesDollar text i (encoded tag) = .ok (decide ('$' :: (tag ++ ['$']) <+: cs)) := by
  have bracketed : '$'.toUInt8 :: (encoded tag ++ ['$'.toUInt8]) = encoded ('$' :: (tag ++ ['$'])) := by
    rw [encoded_ascii (by decide), encoded_append, encoded_ascii (by decide), encoded_nil]
  simp only [closes_dollar_eq, sees, bracketed, encoded_prefix_iff]

theorem boundary_between (before after : List Char) :
    isBoundary (encoded (before ++ after)) (encoded before).length = true := by
  have byte : (encoded (before ++ after))[(encoded before).length]? = (encoded after).head? := by
    rw [encoded_append, List.getElem?_append_right le_rfl, Nat.sub_self, List.head?_eq_getElem?]
  unfold isBoundary
  rw [byte]
  cases after with
  | nil => simp
  | cons c cs =>
    by_cases ascii : IsAscii c
    · rw [encoded_ascii ascii, List.head?_cons]
      simp [ascii_small ascii]
    · obtain ⟨b, bs, bytes, first, -⟩ := encoded_other ascii
      rw [encoded_cons, bytes, List.cons_append, List.head?_cons]
      simp [first]

theorem slice_between (before gap after : List Char) :
    slice (encoded (before ++ gap ++ after)) (encoded before).length
      (encoded (before ++ gap)).length = .ok (encoded gap) := by
  have first := boundary_between before (gap ++ after)
  have last := boundary_between (before ++ gap) after
  rw [← List.append_assoc] at first
  have cut : ((encoded (before ++ gap ++ after)).take (encoded (before ++ gap)).length).drop
      (encoded before).length = encoded gap := by
    rw [encoded_append (before ++ gap), List.take_left, encoded_append, List.drop_left]
  rw [slice, bytes_eq (by simp) (by simp), cut, first, last]
  rfl

example : slice (encoded ['é', ':']) 0 2 = .ok (encoded ['é']) := by decide +kernel

example : slice (encoded ['é', ':']) 0 1 = .error .split := by decide +kernel

theorem high_step {b : UInt8} (there : text[s.pos]? = some b) (high : 0x80 ≤ b) :
    step style text s b = .ok (s.pass 1 s.context) := by
  have unlike {d : Char} (ascii : IsAscii d) : b ≠ d.toUInt8 := by
    rintro rfl
    exact absurd (ascii_small ascii) (UInt8.not_lt.mpr high)
  have apart {d : Char} (ascii : IsAscii d) (pattern : List UInt8) :
      ¬ d.toUInt8 :: pattern <+: text.drop s.pos := by
    rintro ⟨later, found⟩
    have head := congrArg List.head? found
    rw [List.head?_drop, there] at head
    exact unlike ascii (Option.some.inj head).symm
  have unopened {d e : Char} (ascii : IsAscii d) :
      ¬ startsWith text s.pos [d.toUInt8, e.toUInt8] = true := by
    rw [starts_with_eq _ _ (List.cons_ne_nil _ _)]
    exact apart ascii _
  unfold step
  split
  · rename_i plain
    rw [plainStep, if_neg (unlike (by decide)), if_neg (unlike (by decide)),
      if_neg fun both => unlike (by decide) both.1, if_neg fun both => unlike (by decide) both.1,
      if_neg fun both => unlike (by decide) both.1, if_neg fun both => unlike (by decide) both.1,
      if_neg (unlike (by decide)), plain]
  · rw [quotedStep, if_neg (unlike (by decide))]
  · rw [quotedStep, if_neg (unlike (by decide))]
  · rw [if_neg (unlike (by decide))]
  · rw [commentStep, if_neg (unopened (by decide)), if_neg (unopened (by decide))]
  · rw [closes_dollar_eq, decide_eq_false (apart (by decide) _)]
    rfl

def Context.ofRegion : Region → Context
  | .plain => .plain
  | .singleQuoted => .singleQuoted
  | .doubleQuoted => .doubleQuoted
  | .lineComment => .lineComment
  | .blockComment depth => .blockComment (depth + 1)
  | .dollarQuoted tag => .dollarQuoted (encoded tag)

-- What a step of the characters comes to in the bytes, if it is no marker.
def State.follow (s : State) (c : Char) (cs : List Char) (m : Step) : State :=
  s.pass (encoded (c :: cs.take m.more)).length (.ofRegion m.region)

theorem follow_taken (taken rest : List Char) (region : Region) (name : Option (List Char)) :
    s.follow c (taken ++ rest) ⟨taken.length, region, name⟩ =
      s.pass (encoded (c :: taken)).length (.ofRegion region) := by
  rw [State.follow, List.take_left]

theorem follow_single (ascii : IsAscii c) (cs : List Char) (region : Region)
    (name : Option (List Char)) : s.follow c cs ⟨0, region, name⟩ = s.pass 1 (.ofRegion region) := by
  have taken := follow_taken (s := s) (c := c) [] cs region name
  rwa [encoded_ascii ascii] at taken

theorem follow_pair {d : Char} (first : IsAscii c) (second : IsAscii d) (cs : List Char)
    (region : Region) (name : Option (List Char)) :
    s.follow c (d :: cs) ⟨1, region, name⟩ = s.pass 2 (.ofRegion region) := by
  have taken := follow_taken (s := s) (c := c) [d] cs region name
  rwa [encoded_ascii first, encoded_ascii second] at taken

theorem follow_bracket (tag rest : List Char) (region : Region) (name : Option (List Char)) :
    s.follow '$' (tag ++ ['$'] ++ rest) ⟨tag.length + 1, region, name⟩ =
      s.pass ((encoded tag).length + 2) (.ofRegion region) := by
  have length : (encoded ('$' :: (tag ++ ['$']))).length = (encoded tag).length + 2 := by
    rw [encoded_ascii (by decide), encoded_append, encoded_ascii (by decide), encoded_nil,
      List.length_cons, List.length_append, List.length_singleton]
  have taken := follow_taken (s := s) (c := '$') (tag ++ ['$']) rest region name
  rwa [length, List.length_append] at taken

theorem difference_eq {a b : Nat} (ordered : b ≤ a) : difference a b = .ok (a - b) := if_pos ordered

theorem plain_follows (ascii : IsAscii c) (sees : text.drop s.pos = encoded (c :: cs)) {m : Step}
    (steps : Marker.plainStep style c cs = m) :
    plainStep style text s c.toUInt8 =
      match m.name with
      | some name => markerStep style text s (s.pos + 1 + name.length)
      | none => .ok (s.follow c cs m) := by
  have byte {d : Char} (known : IsAscii d) : c.toUInt8 = d.toUInt8 ↔ c = d := byte_inj ascii known
  have behind := sees_behind ascii sees
  unfold plainStep
  simp only [byte (by decide : IsAscii '\''), byte (by decide : IsAscii '"'),
    byte (by decide : IsAscii '-'), byte (by decide : IsAscii '/'), byte (by decide : IsAscii '$'),
    byte (by decide : IsAscii ':'),
    sees_pair ascii sees (by decide : IsAscii '-') (by decide : IsAscii '-'),
    sees_pair ascii sees (by decide : IsAscii '/') (by decide : IsAscii '*'),
    sees_next ascii sees (by decide : IsAscii ':'), sees_tag behind, sees_name behind]
  unfold Marker.plainStep at steps
  split at steps
  · rw [← steps, follow_single ascii]
    rfl
  · rw [← steps, follow_single ascii]
    rfl
  · rw [← steps, follow_pair ascii (by decide)]
    rfl
  · rw [← steps, follow_pair ascii (by decide)]
    rfl
  · rw [← steps]
    by_cases postgres : style = .postgres
    · cases found : tagAt? cs with
      | none =>
        simp only [postgres, if_true, follow_single ascii]
        rfl
      | some tag =>
        obtain ⟨word, rest, opens⟩ := tag_opening found
        obtain rfl : (tag ++ ['$']) ++ rest = cs := (List.cons.inj opens).2
        have taken : difference (s.pos + 1 + tag.length + 1) s.pos = .ok (tag.length + 2) := by
          rw [difference_eq (by omega)]
          congr 1
          omega
        have length := length_encoded_ascii fun c mem => continues_ascii (word c mem)
        simp only [postgres, if_true, follow_bracket, length]
        change (difference (s.pos + 1 + tag.length + 1) s.pos).bind
          (fun taken => .ok (s.pass taken (.dollarQuoted (encoded tag)))) = _
        rw [taken]
        rfl
    · simp only [postgres, and_false, if_false, follow_single ascii]
      rfl
  · rw [← steps, follow_pair ascii (by decide)]
    rfl
  · rename_i single
    have apart : cs.head? ≠ some ':' := by
      intro head
      obtain ⟨tail, rfl⟩ := List.head?_eq_some_iff.mp head
      exact single tail rfl
    rw [← steps]
    by_cases unnamed : nameAt cs = []
    · simp only [apart, unnamed, if_true, follow_single ascii]
      rfl
    · simp only [apart, unnamed, if_false]
      rfl
  · rename_i single double dollar colon dashes comment cast
    have dash : ¬ (c = '-' ∧ c = '-' ∧ cs.head? = some '-') := by
      rintro ⟨rfl, -, head⟩
      obtain ⟨tail, rfl⟩ := List.head?_eq_some_iff.mp head
      exact dashes tail rfl rfl
    have slash : ¬ (c = '/' ∧ c = '/' ∧ cs.head? = some '*') := by
      rintro ⟨rfl, -, head⟩
      obtain ⟨tail, rfl⟩ := List.head?_eq_some_iff.mp head
      exact comment tail rfl rfl
    rw [if_neg single, if_neg double, if_neg dash, if_neg slash, if_neg fun both => dollar both.1,
      if_neg fun both => colon both.1, if_neg colon, ← steps, follow_single ascii]
    rfl

theorem quoted_follows {quote : Char} (known : IsAscii quote) {region : Region}
    (there : s.context = .ofRegion region) (ascii : IsAscii c)
    (sees : text.drop s.pos = encoded (c :: cs)) :
    quotedStep text s c.toUInt8 quote.toUInt8 =
      .ok (s.follow c cs (if c = quote then
        if cs.head? = some quote then ⟨1, region, none⟩ else ⟨0, .plain, none⟩
      else ⟨0, region, none⟩)) := by
  simp only [quotedStep, byte_inj ascii known, sees_next ascii sees known, there]
  by_cases closing : c = quote
  · by_cases doubled : cs.head? = some quote
    · obtain ⟨rest, rfl⟩ := List.head?_eq_some_iff.mp doubled
      rw [if_pos closing, if_pos closing, if_pos doubled, if_pos doubled, follow_pair ascii known]
    · rw [if_pos closing, if_pos closing, if_neg doubled, if_neg doubled, follow_single ascii]
      rfl
  · rw [if_neg closing, if_neg closing, follow_single ascii]

theorem comment_follows {depth : Nat} (there : s.context = .blockComment (depth + 1))
    (ascii : IsAscii c) (sees : text.drop s.pos = encoded (c :: cs)) {m : Step}
    (steps : Marker.step style (.blockComment depth) c cs = m) (shallow : m.region.depth < 2 ^ 32) :
    commentStep text s (depth + 1) = .ok (s.follow c cs m) := by
  simp only [commentStep, there, sees_pair ascii sees (by decide : IsAscii '/') (by decide : IsAscii '*'),
    sees_pair ascii sees (by decide : IsAscii '*') (by decide : IsAscii '/')]
  unfold Marker.step at steps
  by_cases opening : c = '/' ∧ cs.head? = some '*'
  · obtain ⟨rest, rfl⟩ := List.head?_eq_some_iff.mp opening.2
    simp only [opening, and_self, if_true] at steps
    subst steps
    have counted : depth + 1 + 1 < UInt32.size := shallow
    rw [if_pos opening, if_pos counted, follow_pair ascii (by decide)]
    rfl
  · rw [if_neg opening]
    simp only [if_neg opening] at steps
    by_cases closing : c = '*' ∧ cs.head? = some '/'
    · obtain ⟨rest, rfl⟩ := List.head?_eq_some_iff.mp closing.2
      simp only [if_pos closing] at steps
      rw [if_pos closing]
      cases depth with
      | zero =>
        rw [← steps, follow_pair ascii (by decide)]
        rfl
      | succ depth =>
        rw [← steps, follow_pair ascii (by decide)]
        rfl
    · rw [if_neg closing]
      rw [← steps, if_neg closing, follow_single ascii]
      rfl

theorem dollar_follows {tag : List Char} (there : s.context = .dollarQuoted (encoded tag))
    (ascii : IsAscii c) (sees : text.drop s.pos = encoded (c :: cs)) :
    step style text s c.toUInt8 =
      .ok (s.follow c cs (Marker.step style (.dollarQuoted tag) c cs)) := by
  have closing : '$' :: (tag ++ ['$']) <+: c :: cs ↔ c = '$' ∧ (tag ++ ['$']).isPrefixOf cs = true := by
    rw [List.cons_prefix_cons, List.isPrefixOf_iff_prefix, eq_comm]
  simp only [step, there, sees_closing sees, closing, Marker.step]
  by_cases closes : c = '$' ∧ (tag ++ ['$']).isPrefixOf cs = true
  · obtain ⟨rfl, found⟩ := closes
    obtain ⟨rest, rfl⟩ := List.isPrefixOf_iff_prefix.mp found
    simp only [found, and_self, decide_true, if_true, follow_bracket]
    rfl
  · rw [if_neg closes, follow_single ascii]
    simp only [closes, decide_false]
    rfl

-- Only plain text has markers.
theorem nameless_elsewhere {region : Region} (elsewhere : region ≠ .plain) :
    (Marker.step style region c cs).name = none := by
  cases region with
  | plain => exact absurd rfl elsewhere
  | singleQuoted => simp only [Marker.step]; split_ifs <;> rfl
  | doubleQuoted => simp only [Marker.step]; split_ifs <;> rfl
  | lineComment => simp only [Marker.step]; split_ifs <;> rfl
  | blockComment depth => cases depth <;> simp only [Marker.step] <;> split_ifs <;> rfl
  | dollarQuoted tag => simp only [Marker.step]; split_ifs <;> rfl

theorem step_follows {region : Region} (there : s.context = .ofRegion region) (ascii : IsAscii c)
    (sees : text.drop s.pos = encoded (c :: cs)) {m : Step}
    (steps : Marker.step style region c cs = m) (shallow : m.region.depth < 2 ^ 32) :
    step style text s c.toUInt8 =
      match m.name with
      | some name => markerStep style text s (s.pos + 1 + name.length)
      | none => .ok (s.follow c cs m) := by
  by_cases plain : region = .plain
  · subst plain
    simp only [step, there, Context.ofRegion]
    exact plain_follows ascii sees steps
  · have nameless : m.name = none := steps ▸ nameless_elsewhere plain
    rw [nameless]
    cases region with
    | plain => exact absurd rfl plain
    | singleQuoted =>
      rw [← steps, step, there]
      exact quoted_follows (by decide) there ascii sees
    | doubleQuoted =>
      rw [← steps, step, there]
      exact quoted_follows (by decide) there ascii sees
    | lineComment =>
      rw [← steps, step, there]
      simp only [Context.ofRegion, byte_inj ascii (by decide : IsAscii '\n'), Marker.step]
      split_ifs
      · rw [follow_single ascii]
        rfl
      · rw [follow_single ascii]
        rfl
    | blockComment depth =>
      rw [step, there]
      exact comment_follows there ascii sees steps shallow
    | dollarQuoted tag =>
      rw [← steps]
      exact dollar_follows there ascii sees

theorem marker_step_eq {copied gap name later : List Char}
    (source : text = encoded (copied ++ gap ++ ':' :: (name ++ later)))
    (start : s.copied = (encoded copied).length) (pos : s.pos = (encoded (copied ++ gap)).length)
    (ascii : ∀ c ∈ name, IsAscii c) :
    markerStep style text s (s.pos + 1 + name.length) =
      .ok ⟨s.pos + 1 + name.length, s.pos + 1 + name.length, .plain,
        s.out ++ encoded gap ++
          placeholder style (encoded name) (slotFor s.params (encoded name)).2,
        (slotFor s.params (encoded name)).1⟩ := by
  have behind : (encoded (copied ++ gap ++ [':'])).length = s.pos + 1 := by
    rw [encoded_append, List.length_append, pos]
    rfl
  have word : slice text (s.pos + 1) (s.pos + 1 + name.length) = .ok (encoded name) := by
    rw [source, ← behind, ← length_encoded_ascii ascii, ← List.length_append, ← encoded_append]
    simpa using slice_between (copied ++ gap ++ [':']) name later
  have between : slice text s.copied s.pos = .ok (encoded gap) := by
    rw [source, start, pos]
    exact slice_between copied gap _
  have taken : s.pos + (s.pos + 1 + name.length - s.pos) = s.pos + 1 + name.length := by omega
  rw [markerStep, word, between, difference_eq (by omega)]
  simp only [bind, Except.bind, taken]

end Scan
end SqlCatalog.Marker
