import ExactCalc.Text.Printable

/-!
# Quoted text

A text in double quotes, with every character that could be misread or not be seen
written as an escape: a backslash before quotes and backslashes, short names for four
controls, the hexadecimal code point for other unprintable characters.
-/

set_option autoImplicit false

namespace ExactCalc.Text

def codePoint (c : Char) : List Char :=
  ['\\', 'u', '\x7b'] ++ Nat.toDigits 16 c.toNat ++ ['\x7d']

def escape : Char → List Char
  | '\x00' => ['\\', '0']
  | '\t' => ['\\', 't']
  | '\n' => ['\\', 'n']
  | '\r' => ['\\', 'r']
  | '\\' => ['\\', '\\']
  | '\x22' => ['\\', '\x22']
  | c => if isPrintable c then [c] else codePoint c

def quote (s : String) : String :=
  String.ofList (['\x22'] ++ s.toList.flatMap escape ++ ['\x22'])

end ExactCalc.Text
