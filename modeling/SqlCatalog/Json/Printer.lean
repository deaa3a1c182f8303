import SqlCatalog.Decimal
import SqlCatalog.Json.Basic
/-!
JSON texts: compact, and indented by two spaces. Strings escape quotes, backslashes and control
characters only.
-/
namespace SqlCatalog.Json

def escaped (c : Char) : List Char :=
  match c with
  | '"' => ['\\', '"']
  | '\\' => ['\\', '\\']
  | '\x08' => ['\\', 'b']
  | '\x0c' => ['\\', 'f']
  | '\n' => ['\\', 'n']
  | '\r' => ['\\', 'r']
  | '\t' => ['\\', 't']
  | c =>
    if c.toNat < 0x20 then
      let digits := Nat.toDigits 16 c.toNat
      '\\' :: 'u' :: List.replicate (4 - digits.length) '0' ++ digits
    else [c]

def quoted (s : String) : String :=
  String.ofList ('"' :: s.toList.flatMap escaped ++ ['"'])

def Number.text : Number → String
  | whole n _ => toString n
  | float x _ => Decimal.text x

mutual

def compact : Json → String
  | null => "null"
  | bool b => if b then "true" else "false"
  | number n => n.text
  | text s => quoted s
  | array items => "[" ++ ",".intercalate (compactItems items) ++ "]"
  | object members => "\x7b" ++ ",".intercalate (compactMembers members) ++ "\x7d"

def compactItems : List Json → List String
  | [] => []
  | item :: rest => compact item :: compactItems rest

def compactMembers : List (String × Json) → List String
  | [] => []
  | (name, value) :: rest => (quoted name ++ ":" ++ compact value) :: compactMembers rest

end

def bracketed (opening closing : String) (depth : Nat) (lines : List String) : String :=
  let margin (depth : Nat) := "\n" ++ String.ofList (List.replicate (2 * depth) ' ')
  if lines.isEmpty then opening ++ closing
  else
    opening ++ ",".intercalate (lines.map (margin (depth + 1) ++ ·)) ++ margin depth ++ closing

mutual

def indented (depth : Nat) : Json → String
  | array items => bracketed "[" "]" depth (indentedItems (depth + 1) items)
  | object members => bracketed "\x7b" "\x7d" depth (indentedMembers (depth + 1) members)
  | null => "null"
  | bool b => if b then "true" else "false"
  | number n => n.text
  | text s => quoted s

def indentedItems (depth : Nat) : List Json → List String
  | [] => []
  | item :: rest => indented depth item :: indentedItems depth rest

def indentedMembers (depth : Nat) : List (String × Json) → List String
  | [] => []
  | (name, value) :: rest =>
    (quoted name ++ ": " ++ indented depth value) :: indentedMembers depth rest

end

def pretty (j : Json) : String := indented 0 j

end SqlCatalog.Json
