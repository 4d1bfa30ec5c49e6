import TaggedYaml.Json.Text
import TaggedYaml.Unicode.Class

/-!
# Texts in messages

Between double quotes, and with an escape for every character that does not show as itself.
-/

namespace TaggedYaml.Json

/-- The hexadecimal digits of a code point, without leading zeros. -/
def codeDigits (n : Nat) : List Char :=
  match ([n / 0x100000, n / 0x10000 % 16, n / 0x1000 % 16, n / 0x100 % 16, n / 0x10 % 16].dropWhile
    (· == 0)) with
  | ds => (ds ++ [n % 16]).map (hexDigit false)

/-- A character of a text in a message. -/
def shownChar (c : Char) : List Char :=
  match c with
  | '\x00' => ['\\', '0']
  | '\t' => ['\\', 't']
  | '\r' => ['\\', 'r']
  | '\n' => ['\\', 'n']
  | '"' => ['\\', '"']
  | '\\' => ['\\', '\\']
  | c =>
    if Unicode.isShown c.toNat then [c]
    else '\\' :: 'u' :: '\x7b' :: (codeDigits c.toNat ++ ['\x7d'])

/-- A text in a message. -/
def shown (s : String) : String := String.ofList ('"' :: (s.toList.flatMap shownChar ++ ['"']))

end TaggedYaml.Json
