import IndentMarkup.Text.Basic
import IndentMarkup.Text.Hidden

/-!
A character between single quotes, for messages. A quote, a backslash and the common controls have
short escapes; any other hidden character is written with its code point.
-/

namespace IndentMarkup.Text

def hexDigits (n : Nat) : Text := Nat.toDigits 16 n

def escaped (c : Char) : Text :=
  if c = '\x00' then "\\0".toList
  else if c = '\t' then "\\t".toList
  else if c = '\n' then "\\n".toList
  else if c = '\r' then "\\r".toList
  else if c = '\'' then "\\'".toList
  else if c = '\\' then "\\\\".toList
  else if isHidden c then "\\u\x7b".toList ++ hexDigits c.toNat ++ "\x7d".toList
  else [c]

def quoted (c : Char) : Text := '\'' :: escaped c ++ ['\'']

end IndentMarkup.Text
