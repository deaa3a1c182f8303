import SqlCatalog.Token.Basic
/-!
Reading quoted text. Every reader here starts behind the opening quote and answers the text up to
the closing one together with what follows it.
-/
namespace SqlCatalog.Token

-- Text that ends at the first `close`. A doubled `close` does not end it and stays doubled.
def quotedText? (close : Char) : List Char → Option (List Char × List Char)
  | [] => none
  | c :: cs =>
    if c = close then
      match cs with
      | [] => some ([], [])
      | d :: ds =>
        if d = close then (quotedText? close ds).map fun (text, rest) => (c :: d :: text, rest)
        else some ([], d :: ds)
    else (quotedText? close cs).map fun (text, rest) => (c :: text, rest)

theorem eq_of_quoted_text {close : Char} {cs text rest : List Char}
    (h : quotedText? close cs = some (text, rest)) : cs = text ++ close :: rest := by
  fun_induction quotedText? close cs generalizing text rest with
  | case1 => simp at h
  | case2 => simp_all
  | case3 ds ih =>
    obtain ⟨⟨text', rest'⟩, inner, eq⟩ := Option.map_eq_some_iff.1 h
    simp only [Prod.mk.injEq] at eq
    obtain ⟨rfl, rfl⟩ := eq
    simp_all
  | case4 => simp_all
  | case5 c cs _ ih =>
    obtain ⟨⟨text', rest'⟩, inner, eq⟩ := Option.map_eq_some_iff.1 h
    simp only [Prod.mk.injEq] at eq
    obtain ⟨rfl, rfl⟩ := eq
    simp [ih inner]

-- Text that ends at the first `close` that no backslash stands before: a backslash shields the
-- character behind it, and both stay. A doubled `close` does not end it either and stays doubled.
def shieldedText? (close : Char) : List Char → Option (List Char × List Char)
  | [] => none
  | c :: cs =>
    if c = close then
      match cs with
      | [] => some ([], [])
      | d :: ds =>
        if d = close then (shieldedText? close ds).map fun (text, rest) => (c :: d :: text, rest)
        else some ([], d :: ds)
    else if c = '\\' then
      match cs with
      | [] => none
      | d :: ds => (shieldedText? close ds).map fun (text, rest) => (c :: d :: text, rest)
    else (shieldedText? close cs).map fun (text, rest) => (c :: text, rest)

theorem eq_of_shielded_text {close : Char} {cs text rest : List Char}
    (h : shieldedText? close cs = some (text, rest)) : cs = text ++ close :: rest := by
  fun_induction shieldedText? close cs generalizing text rest with
  | case1 => simp at h
  | case2 => simp_all
  | case3 ds ih =>
    obtain ⟨⟨text', rest'⟩, inner, eq⟩ := Option.map_eq_some_iff.1 h
    simp only [Prod.mk.injEq] at eq
    obtain ⟨rfl, rfl⟩ := eq
    simp [ih inner]
  | case4 => simp_all
  | case5 => simp at h
  | case6 d ds _ ih =>
    obtain ⟨⟨text', rest'⟩, inner, eq⟩ := Option.map_eq_some_iff.1 h
    simp only [Prod.mk.injEq] at eq
    obtain ⟨rfl, rfl⟩ := eq
    simp [ih inner]
  | case7 c cs _ _ ih =>
    obtain ⟨⟨text', rest'⟩, inner, eq⟩ := Option.map_eq_some_iff.1 h
    simp only [Prod.mk.injEq] at eq
    obtain ⟨rfl, rfl⟩ := eq
    simp [ih inner]

def tripleQuotedText? (quote : Char) : List Char → Option (List Char × List Char)
  | a :: b :: c :: cs =>
    if a = quote ∧ b = quote ∧ c = quote then some ([], cs)
    else (tripleQuotedText? quote (b :: c :: cs)).map fun (text, rest) => (a :: text, rest)
  | _ => none

theorem eq_of_triple_quoted_text {quote : Char} {cs text rest : List Char}
    (h : tripleQuotedText? quote cs = some (text, rest)) :
    cs = text ++ quote :: quote :: quote :: rest := by
  fun_induction tripleQuotedText? quote cs generalizing text rest with
  | case1 => simp_all
  | case2 a b c cs _ ih =>
    obtain ⟨⟨text', rest'⟩, inner, eq⟩ := Option.map_eq_some_iff.1 h
    simp only [Prod.mk.injEq] at eq
    obtain ⟨rfl, rfl⟩ := eq
    simp [ih inner]
  | case3 => simp at h

def hexDigit? (c : Char) : Option Nat :=
  if c.isDigit then some (c.toNat - '0'.toNat)
  else if 'a' ≤ c ∧ c ≤ 'f' then some (c.toNat - 'a'.toNat + 10)
  else if 'A' ≤ c ∧ c ≤ 'F' then some (c.toNat - 'A'.toNat + 10)
  else none

def scalar? (n : Nat) : Option Char := if n.isValidChar then some (Char.ofNat n) else none

def hexNumber? (cs : List Char) : Option Nat :=
  let digits := match cs with
    | '+' :: ds => ds
    | ds => ds
  if digits.isEmpty then none
  else digits.foldlM (fun n c => (hexDigit? c).map (n * 16 + ·)) 0

def asciiChar? (n : Nat) : Option Char := if n < 128 then some (Char.ofNat n) else none

def octalDigit? (c : Char) : Option Nat :=
  if '0' ≤ c ∧ c ≤ '7' then some (c.toNat - '0'.toNat) else none

-- A character written with a backslash, which stands in front of `cs`: the usual control
-- characters, `u` and `U` with four and eight digits of base sixteen, `x` with up to two of them, up
-- to three digits of base eight (modulo 256), or the character itself.
def backslashed? (cs : List Char) : Option (Char × List Char) :=
  match cs with
  | [] => none
  | 'b' :: rest => some ('\x08', rest)
  | 'f' :: rest => some ('\x0c', rest)
  | 'n' :: rest => some ('\n', rest)
  | 'r' :: rest => some ('\r', rest)
  | 't' :: rest => some ('\t', rest)
  | 'u' :: rest => scalarOf 4 rest
  | 'U' :: rest => scalarOf 8 rest
  | 'x' :: rest =>
    let digits := (rest.take 2).takeWhile fun c => (hexDigit? c).isSome
    if digits.isEmpty then some ('x', rest)
    else do
      let n ← hexNumber? digits
      let c ← asciiChar? n
      some (c, rest.drop digits.length)
  | c :: rest =>
    if (octalDigit? c).isSome then do
      let digits := c :: (rest.take 2).takeWhile fun c => (octalDigit? c).isSome
      let n := digits.foldl (fun n c => n * 8 + ((octalDigit? c).getD 0)) 0
      let c ← asciiChar? (n % 256)
      some (c, rest.drop (digits.length - 1))
    else some (c, rest)
where
  scalarOf (width : Nat) (rest : List Char) : Option (Char × List Char) :=
    if rest.length < width then none
    else do
      let n ← hexNumber? (rest.take width)
      let c ← scalar? n
      some (c, rest.drop width)

theorem backslashed?_drops {cs rest : List Char} {e : Char}
    (h : backslashed? cs = some (e, rest)) :
    ∃ c after count, cs = c :: after ∧ rest = after.drop count := by
  unfold backslashed? at h
  split at h <;>
    simp only [backslashed?.scalarOf, Option.ite_none_left_eq_some, Option.bind_eq_bind,
      Option.bind_eq_some_iff, Option.some.injEq, Prod.mk.injEq, reduceCtorEq] at h
  case h_7 | h_8 =>
    obtain ⟨-, -, -, -, -, -, rfl⟩ := h
    exact ⟨_, _, _, rfl, rfl⟩
  case h_9 after =>
    split at h
    · obtain ⟨-, rfl⟩ := h
      exact ⟨_, _, 0, rfl, rfl⟩
    · simp only [Option.bind_eq_some_iff, Option.some.injEq, Prod.mk.injEq] at h
      obtain ⟨-, -, -, -, -, rfl⟩ := h
      exact ⟨_, _, _, rfl, rfl⟩
  case h_10 =>
    split at h
    · simp only [Option.bind_eq_some_iff, Option.some.injEq, Prod.mk.injEq] at h
      obtain ⟨-, -, -, rfl⟩ := h
      exact ⟨_, _, _, rfl, rfl⟩
    · simp only [Option.some.injEq, Prod.mk.injEq] at h
      obtain ⟨-, rfl⟩ := h
      exact ⟨_, _, 0, rfl, rfl⟩
  all_goals
    obtain ⟨-, rfl⟩ := h
    exact ⟨_, _, 0, rfl, rfl⟩

theorem backslashed?_length {cs rest : List Char} {c : Char}
    (h : backslashed? cs = some (c, rest)) : rest.length ≤ cs.length := by
  obtain ⟨d, after, count, rfl, rfl⟩ := backslashed?_drops h
  simp only [List.length_drop, List.length_cons]; omega

-- Text with backslash escapes, decoded. A doubled quote is one quote; an escape may not stand for
-- the character NUL.
def escapedText? (cs : List Char) : Option (List Char × List Char) :=
  match cs with
  | [] => none
  | c :: cs =>
    if c = '\'' then
      match cs with
      | [] => some ([], [])
      | d :: ds =>
        if d = '\'' then (escapedText? ds).map fun (text, rest) => ('\'' :: text, rest)
        else some ([], d :: ds)
    else if c = '\\' then
      match _found : backslashed? cs with
      | none => none
      | some (e, rest') =>
        if e = '\x00' then none
        else (escapedText? rest').map fun (text, rest) => (e :: text, rest)
    else (escapedText? cs).map fun (text, rest) => (c :: text, rest)
termination_by cs.length
decreasing_by
  · simp only [List.length_cons]; omega
  · have := backslashed?_length _found; simp only [List.length_cons]; omega
  · simp

theorem escaped_text_length {cs text rest : List Char}
    (h : escapedText? cs = some (text, rest)) : rest.length < cs.length := by
  fun_induction escapedText? cs generalizing text rest with
  | case1 => simp at h
  | case2 => simp_all
  | case3 ds ih =>
    obtain ⟨⟨text', rest'⟩, inner, eq⟩ := Option.map_eq_some_iff.1 h
    simp only [Prod.mk.injEq] at eq
    obtain ⟨rfl, rfl⟩ := eq
    have := ih inner
    simp only [List.length_cons]; omega
  | case4 => simp_all
  | case5 => simp at h
  | case6 => simp at h
  | case7 cs e rest'' found _ _ ih =>
    obtain ⟨⟨text', rest'⟩, inner, eq⟩ := Option.map_eq_some_iff.1 h
    simp only [Prod.mk.injEq] at eq
    obtain ⟨rfl, rfl⟩ := eq
    have := ih inner
    have := backslashed?_length found
    simp only [List.length_cons]; omega
  | case8 _ _ _ _ ih =>
    obtain ⟨⟨text', rest'⟩, inner, eq⟩ := Option.map_eq_some_iff.1 h
    simp only [Prod.mk.injEq] at eq
    obtain ⟨rfl, rfl⟩ := eq
    have := ih inner
    simp only [List.length_cons]; omega

end SqlCatalog.Token
