/-
  Text between double quotes.

  A quote and a backslash are written with a backslash before them; tab, line feed, carriage return
  and NUL have letters of their own; any other hidden character is written by its number, in lower
  case hexadecimal without leading zeros.  Everything else stands as it is.
-/
import NameCache.Text.Property

namespace NameCache.Text.Quoted

/-- A character by its number. -/
def numbered (c : Char) : List Char :=
  ['\\', 'u', '\x7b'] ++ Nat.toDigits 16 c.toNat ++ ['\x7d']

/-- What stands between the quotes for one character. -/
def escape (c : Char) : List Char :=
  match c with
  | '"' => ['\\', '"']
  | '\\' => ['\\', '\\']
  | '\t' => ['\\', 't']
  | '\n' => ['\\', 'n']
  | '\r' => ['\\', 'r']
  | '\x00' => ['\\', '0']
  | c => if isHidden c then numbered c else [c]

/-- The quoted form of a text. -/
def quote (text : List Char) : String :=
  String.ofList ('"' :: text.flatMap escape ++ ['"'])

/-! ## A quote, a line feed, a combining accent -/

example : quote ['a', '"', '\n'] = "\"a\\\"\\n\"" := by decide
example : escape '\u0301' = "\\u\x7b301\x7d".toList := by decide

end NameCache.Text.Quoted
