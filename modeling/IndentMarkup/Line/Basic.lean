import IndentMarkup.Attributes

/-!
The lines of a template. A document is a flat list of lines; nesting is carried by the level and
becomes containment only when the document is written.
-/

namespace IndentMarkup

inductive Tag
  /-- Written as it stands, with no markup around it. -/
  | text
  | element (name : Text)
  deriving DecidableEq, Repr

def Tag.name? : Tag → Option Text
  | .text => none
  | .element name => some name

structure Line where
  level : Nat
  content : Text
  tag : Tag := .text
  attrs : Attributes := .empty
  /-- The text after the selector of an element line. -/
  body : Text := []
  deriving DecidableEq, Repr

end IndentMarkup
