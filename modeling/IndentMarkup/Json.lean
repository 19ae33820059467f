import IndentMarkup.Text.Quoted

/-!
JSON text for a list of records whose values are strings. Each field has a line of its own, and a
level of the document is two spaces. In strings only quotes, backslashes and the controls below
U+0020 are escaped.
-/

namespace IndentMarkup.Json

def escaped (c : Char) : Text :=
  if c = '"' then "\\\"".toList
  else if c = '\\' then "\\\\".toList
  else if c = '\x08' then "\\b".toList
  else if c = '\t' then "\\t".toList
  else if c = '\n' then "\\n".toList
  else if c = '\x0c' then "\\f".toList
  else if c = '\r' then "\\r".toList
  else if c.toNat < 0x20 then
    "\\u00".toList ++ [Nat.digitChar (c.toNat / 16), Nat.digitChar (c.toNat % 16)]
  else [c]

def stringText (t : Text) : Text := '"' :: t.flatMap escaped ++ ['"']

def fieldText (field : Text × Text) : Text :=
  "    ".toList ++ stringText field.1 ++ ": ".toList ++ stringText field.2

def recordText (fields : List (Text × Text)) : Text :=
  if fields.isEmpty then "  \x7b\x7d".toList
  else "  \x7b\n".toList ++ ",\n".toList.intercalate (fields.map fieldText) ++ "\n  \x7d".toList

def recordsText (records : List (List (Text × Text))) : Text :=
  if records.isEmpty then "[]".toList
  else "[\n".toList ++ ",\n".toList.intercalate (records.map recordText) ++ "\n]".toList

end IndentMarkup.Json
