/-!
What can be wrong with a text that is read as SQL tokens, and where. Lines are counted at line
feeds only, columns in characters, both from one.
-/
namespace SqlCatalog.Token

inductive Problem where
  | unterminatedString
  | unterminatedEscapedString
  | unterminatedUnicodeString
  | hexDigitMissing
  | notAHexDigit (found : Char)
  | notACharacter (scalar : Nat)
  | unclosedIdentifier (closing : Char)
  | unclosedComment
  | unclosedDollarText
  | unclosedTaggedText
deriving DecidableEq

namespace Problem

def message : Problem → String
  | unterminatedString => "Unterminated string literal"
  | unterminatedEscapedString => "Unterminated encoded string literal"
  | unterminatedUnicodeString => "Unterminated unicode encoded string literal"
  | hexDigitMissing => "Unexpected EOF while parsing hex digit in escaped unicode string."
  | notAHexDigit found =>
    "Invalid hex digit in escaped unicode string: " ++ String.ofList [found]
  | notACharacter scalar => "Invalid unicode character: " ++ String.ofList (Nat.toDigits 16 scalar)
  | unclosedIdentifier closing =>
    "Expected close delimiter '" ++ String.ofList [closing] ++ "' before EOF."
  | unclosedComment => "Unexpected EOF while in a multi-line comment"
  | unclosedDollarText => "Unterminated dollar-quoted string"
  | unclosedTaggedText => "Unterminated dollar-quoted, expected $"

end Problem

structure Fault where
  problem : Problem
  unread : List Char
deriving DecidableEq

def position (read : List Char) : Nat × Nat :=
  read.foldl (fun (line, column) c => if c = '\n' then (line + 1, 1) else (line, column + 1)) (1, 1)

def Fault.message (fault : Fault) (text : List Char) : String :=
  let (line, column) := position (text.take (text.length - fault.unread.length))
  s!"{fault.problem.message} at Line: {line}, Column: {column}"

end SqlCatalog.Token
