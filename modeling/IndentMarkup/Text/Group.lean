import IndentMarkup.Text.Offset

/-!
Parenthesized groups. An opening parenthesis starts a group and the next closing one ends it;
groups do not nest, and the two parentheses count as outside. An unclosed group hides the rest of
the text.
-/

namespace IndentMarkup.Text

/-- The characters outside groups with their offsets, for a text that starts at `offset`, inside
a group or not. -/
def outsideFrom (offset : Nat) (inGroup : Bool) : Text → List (Nat × Char)
  | [] => []
  | c :: rest =>
    let next := offset + c.utf8Size
    if inGroup then
      if c = ')' then (offset, c) :: outsideFrom next false rest
      else outsideFrom next true rest
    else (offset, c) :: outsideFrom next (c == '(') rest

def outsideGroups (t : Text) : List (Nat × Char) := outsideFrom 0 false t

/-- The offset of the first character outside groups that satisfies `p`. -/
def firstOutside? (p : Char → Bool) (t : Text) : Option Nat :=
  ((outsideGroups t).find? fun entry => p entry.2).map (·.1)

end IndentMarkup.Text
