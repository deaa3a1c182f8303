import SqlCatalog.Operation.Marker
/-!
The scan for markers over the bytes of a text. It keeps places in the bytes and takes steps of as many
bytes as it needs, so nothing but the scan itself makes its indices, cuts and differences good ones:
each of them is checked here, and a bad one is a fault.
-/
namespace SqlCatalog.Marker.Scan

-- An index or the end of a cut beyond the bytes, or a difference below zero; a cut through a character;
-- more open comments than 32 bits count; a step that leaves the scan where it was.
inductive Fault where
  | outside
  | split
  | uncounted
  | stuck
deriving DecidableEq

inductive Context where
  | plain
  | singleQuoted
  | doubleQuoted
  | lineComment
  | blockComment (depth : Nat)
  | dollarQuoted (tag : List UInt8)
deriving DecidableEq

def read (text : List UInt8) (i : Nat) : Except Fault UInt8 :=
  match text[i]? with
  | some b => .ok b
  | none => .error .outside

def difference (a b : Nat) : Except Fault Nat :=
  if b ≤ a then .ok (a - b) else .error .outside

def bytes (text : List UInt8) (first last : Nat) : Except Fault (List UInt8) :=
  if first ≤ last ∧ last ≤ text.length then .ok ((text.take last).drop first) else .error .outside

-- No character begins with a byte from 0x80 up to 0xBF, and no character goes on with another one.
def isBoundary (text : List UInt8) (i : Nat) : Bool :=
  match text[i]? with
  | some b => i == 0 || b < 0x80 || 0xC0 ≤ b
  | none => i == text.length

def slice (text : List UInt8) (first last : Nat) : Except Fault (List UInt8) := do
  let cut ← bytes text first last
  if isBoundary text first && isBoundary text last then .ok cut else .error .split

def rest? (text : List UInt8) (i : Nat) : Option (List UInt8) :=
  if i ≤ text.length then some (text.drop i) else none

def startsWith (text : List UInt8) (i : Nat) (pattern : List UInt8) : Bool :=
  (rest? text i).any pattern.isPrefixOf

def startsName (b : UInt8) : Bool := Marker.startsName (Char.ofUInt8 b)

def continuesName (b : UInt8) : Bool := Marker.continuesName (Char.ofUInt8 b)

def identifierEnd (text : List UInt8) (i : Nat) : Except Fault (Option Nat) :=
  match text[i]? with
  | none => .ok none
  | some first =>
    if startsName first then do
      let tail ← bytes text (i + 1) text.length
      .ok (some (i + 1 + (tail.takeWhile continuesName).length))
    else .ok none

def dollarTag (text : List UInt8) (i : Nat) : Except Fault (Option (List UInt8 × Nat)) :=
  match rest? text (i + 1) with
  | none => .ok none
  | some body =>
    let length := (body.takeWhile continuesName).length
    if body[length]? = some '$'.toUInt8 then do
      let tag ← bytes body 0 length
      if tag.toByteArray.IsValidUTF8 then .ok (some (tag, i + 1 + length)) else .ok none
    else .ok none

def closesDollar (text : List UInt8) (i : Nat) (tag : List UInt8) : Except Fault Bool :=
  match rest? text i with
  | none => .ok false
  | some rest =>
    if rest.length < tag.length + 2 then .ok false
    else do
      if (← read rest 0) ≠ '$'.toUInt8 then .ok false
      else if (← bytes rest 1 (tag.length + 1)) ≠ tag then .ok false
      else .ok ((← read rest (tag.length + 1)) == '$'.toUInt8)

structure State where
  pos : Nat
  -- The place up to which the text is in the output.
  copied : Nat
  context : Context
  out : List UInt8
  params : List (List UInt8)

def start : State := ⟨0, 0, .plain, [], []⟩

def State.pass (s : State) (taken : Nat) (context : Context) : State :=
  { s with pos := s.pos + taken, context }

def slotFor (params : List (List UInt8)) (name : List UInt8) : List (List UInt8) × Nat :=
  match params.idxOf? name with
  | some i => (params, i + 1)
  | none => (params ++ [name], params.length + 1)

def decimal (n : Nat) : List UInt8 := (Nat.toDigits 10 n).map Char.toUInt8

def placeholder (style : PlaceholderStyle) (name : List UInt8) (slot : Nat) : List UInt8 :=
  match style with
  | .sqlite => '?'.toUInt8 :: decimal slot
  | .postgres => '$'.toUInt8 :: decimal slot
  | .named => ':'.toUInt8 :: name

def markerStep (style : PlaceholderStyle) (text : List UInt8) (s : State) (last : Nat) :
    Except Fault State := do
  let name ← slice text (s.pos + 1) last
  let (params, slot) := slotFor s.params name
  let gap ← slice text s.copied s.pos
  let taken ← difference last s.pos
  .ok ⟨s.pos + taken, last, .plain, s.out ++ gap ++ placeholder style name slot, params⟩

def plainStep (style : PlaceholderStyle) (text : List UInt8) (s : State) (b : UInt8) :
    Except Fault State :=
  if b = '\''.toUInt8 then .ok (s.pass 1 .singleQuoted)
  else if b = '"'.toUInt8 then .ok (s.pass 1 .doubleQuoted)
  else if b = '-'.toUInt8 ∧ startsWith text s.pos ['-'.toUInt8, '-'.toUInt8] then
    .ok (s.pass 2 .lineComment)
  else if b = '/'.toUInt8 ∧ startsWith text s.pos ['/'.toUInt8, '*'.toUInt8] then
    .ok (s.pass 2 (.blockComment 1))
  else if b = '$'.toUInt8 ∧ style = .postgres then do
    match ← dollarTag text s.pos with
    | some (tag, close) => .ok (s.pass (← difference (close + 1) s.pos) (.dollarQuoted tag))
    | none => .ok (s.pass 1 .plain)
  else if b = ':'.toUInt8 ∧ text[s.pos + 1]? = some ':'.toUInt8 then .ok (s.pass 2 .plain)
  else if b = ':'.toUInt8 then do
    match ← identifierEnd text (s.pos + 1) with
    | some last => markerStep style text s last
    | none => .ok (s.pass 1 .plain)
  else .ok (s.pass 1 .plain)

-- A step inside a quoted text; a doubled quote does not end it.
def quotedStep (text : List UInt8) (s : State) (b quote : UInt8) : Except Fault State :=
  if b = quote then
    if text[s.pos + 1]? = some quote then .ok (s.pass 2 s.context) else .ok (s.pass 1 .plain)
  else .ok (s.pass 1 s.context)

def commentStep (text : List UInt8) (s : State) (depth : Nat) : Except Fault State :=
  if startsWith text s.pos ['/'.toUInt8, '*'.toUInt8] then
    if depth + 1 < UInt32.size then .ok (s.pass 2 (.blockComment (depth + 1))) else .error .uncounted
  else if startsWith text s.pos ['*'.toUInt8, '/'.toUInt8] then
    if depth = 1 then .ok (s.pass 2 .plain)
    else do .ok (s.pass 2 (.blockComment (← difference depth 1)))
  else .ok (s.pass 1 s.context)

def step (style : PlaceholderStyle) (text : List UInt8) (s : State) (b : UInt8) :
    Except Fault State :=
  match s.context with
  | .plain => plainStep style text s b
  | .singleQuoted => quotedStep text s b '\''.toUInt8
  | .doubleQuoted => quotedStep text s b '"'.toUInt8
  | .lineComment =>
    if b = '\n'.toUInt8 then .ok (s.pass 1 .plain) else .ok (s.pass 1 s.context)
  | .blockComment depth => commentStep text s depth
  | .dollarQuoted tag => do
    if ← closesDollar text s.pos tag then .ok (s.pass (tag.length + 2) .plain)
    else .ok (s.pass 1 s.context)

def run (style : PlaceholderStyle) (text : List UInt8) (s : State) : Except Fault State :=
  if s.pos < text.length then
    match text[s.pos]? with
    | none => .ok s
    | some b =>
      match step style text s b with
      | .error fault => .error fault
      | .ok next => if s.pos < next.pos then run style text next else .error .stuck
  else .ok s
termination_by text.length - s.pos

structure Compiled where
  sql : List UInt8
  params : List (List UInt8)
deriving DecidableEq

def compile (style : PlaceholderStyle) (text : List UInt8) : Except Fault Compiled := do
  let s ← run style text start
  let gap ← slice text s.copied text.length
  .ok ⟨s.out ++ gap, s.params⟩

end SqlCatalog.Marker.Scan
