import Tabletop.Text.Unprintable
import Tabletop.Text.Extender

/-!
# Quoted text

A text inside a message stands between double quotes, with every character that would be misread
there written as an escape.
-/

namespace Tabletop.Text

/-- The lowercase hexadecimal digits of a code point, without padding. -/
def hexDigits (code : Nat) : List Char :=
  Nat.toDigits 16 code

/-- A character as it stands between quotes. -/
def escape (char : Char) : List Char :=
  match char with
  | '\t' => ['\\', 't']
  | '\r' => ['\\', 'r']
  | '\n' => ['\\', 'n']
  | '"' => ['\\', '"']
  | '\\' => ['\\', '\\']
  | '\x00' => ['\\', '0']
  | _ =>
    if isExtender char || isUnprintable char then
      '\\' :: 'u' :: '\x7b' :: hexDigits char.toNat ++ ['\x7d']
    else [char]

/-- A text between double quotes. -/
def quote (text : String) : String :=
  String.ofList ('"' :: text.toList.flatMap escape ++ ['"'])

end Tabletop.Text
