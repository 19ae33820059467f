import IndentMarkup.Text.Basic

/-!
Positions in a text, counted in bytes of its UTF-8 form, and cuts at them. A cut inside a
character moves back to that character's start, so the two parts always make up the text.
-/

namespace IndentMarkup.Text

def byteLength : Text → Nat
  | [] => 0
  | c :: rest => c.utf8Size + byteLength rest

/-- The bytes of the longest text that memory can hold. -/
def maxLength : Nat := 0x7fffffffffffffff

def takeBytes : Nat → Text → Text
  | _, [] => []
  | n, c :: rest => if c.utf8Size ≤ n then c :: takeBytes (n - c.utf8Size) rest else []

def dropBytes : Nat → Text → Text
  | _, [] => []
  | n, c :: rest => if c.utf8Size ≤ n then dropBytes (n - c.utf8Size) rest else c :: rest

/-- An offset at which a character of the text starts, or at which the text ends. -/
def IsBoundary (n : Nat) (t : Text) : Prop :=
  ∃ before after, t = before ++ after ∧ byteLength before = n

@[simp] theorem byteLength_nil : byteLength [] = 0 := rfl

@[simp] theorem byteLength_cons (c : Char) (t : Text) :
    byteLength (c :: t) = c.utf8Size + byteLength t := rfl

@[simp] theorem byteLength_append (s t : Text) :
    byteLength (s ++ t) = byteLength s + byteLength t := by
  induction s with
  | nil => simp
  | cons c rest ih => rw [List.cons_append, byteLength_cons, byteLength_cons, ih, Nat.add_assoc]

theorem takeBytes_append_dropBytes (n : Nat) (t : Text) : takeBytes n t ++ dropBytes n t = t := by
  induction t generalizing n with
  | nil => rfl
  | cons c rest ih =>
    by_cases h : c.utf8Size ≤ n
    · simp [takeBytes, dropBytes, h, ih]
    · simp [takeBytes, dropBytes, h]

@[simp] theorem takeBytes_byteLength_append (s t : Text) :
    takeBytes (byteLength s) (s ++ t) = s := by
  induction s with
  | nil => cases t <;> simp [takeBytes, Nat.pos_iff_ne_zero.mp (Char.utf8Size_pos _)]
  | cons c rest ih => simp [takeBytes, ih]

@[simp] theorem dropBytes_byteLength_append (s t : Text) :
    dropBytes (byteLength s) (s ++ t) = t := by
  have h := takeBytes_append_dropBytes (byteLength s) (s ++ t)
  rw [takeBytes_byteLength_append] at h
  exact List.append_cancel_left h

theorem isBoundary_iff_byteLength_takeBytes (n : Nat) (t : Text) :
    IsBoundary n t ↔ byteLength (takeBytes n t) = n := by
  constructor
  · rintro ⟨before, after, rfl, rfl⟩
    simp
  · intro h
    exact ⟨takeBytes n t, dropBytes n t, (takeBytes_append_dropBytes n t).symm, h⟩

end IndentMarkup.Text
