import IndentMarkup.Text.Basic

/-!
Attribute lists. They keep the order in which keys were first inserted, which is the order in
which they are written.
-/

namespace IndentMarkup

structure Attribute where
  key : Text
  value : Text
  deriving DecidableEq, Repr

structure Attributes where
  toList : List Attribute := []
  deriving DecidableEq, Repr

namespace Attributes

def empty : Attributes := {}

def insertInto (key value : Text) : List Attribute → List Attribute
  | [] => [⟨key, value⟩]
  | item :: rest =>
    if item.key = key then ⟨key, value⟩ :: rest else item :: insertInto key value rest

/-- Puts `value` in the place of the first item with this key, or at the end. -/
def insert (attrs : Attributes) (key value : Text) : Attributes :=
  ⟨insertInto key value attrs.toList⟩

/-- The value of the first item with this key. -/
def get? (attrs : Attributes) (key : Text) : Option Text :=
  (attrs.toList.find? (·.key = key)).map (·.value)

def size (attrs : Attributes) : Nat := attrs.toList.length

def isEmpty (attrs : Attributes) : Bool := attrs.toList.isEmpty

def keys (attrs : Attributes) : List Text := attrs.toList.map (·.key)

@[simp] theorem toList_empty : empty.toList = [] := rfl

@[simp] theorem toList_insert (attrs : Attributes) (key value : Text) :
    (attrs.insert key value).toList = insertInto key value attrs.toList := rfl

theorem get?_insert_self (attrs : Attributes) (key value : Text) :
    (attrs.insert key value).get? key = some value := by
  rcases attrs with ⟨items⟩
  simp only [get?, toList_insert]
  induction items with
  | nil => simp [insertInto]
  | cons item rest ih => by_cases h : item.key = key <;> simp [insertInto, h, ih]

theorem get?_insert_of_ne (attrs : Attributes) {key other : Text} (value : Text)
    (h : other ≠ key) : (attrs.insert key value).get? other = attrs.get? other := by
  rcases attrs with ⟨items⟩
  simp only [get?, toList_insert]
  induction items with
  | nil => simp [insertInto, h.symm]
  | cons item rest ih =>
    by_cases hk : item.key = key
    · simp [insertInto, hk, h.symm]
    · by_cases ho : item.key = other
      · subst ho
        simp [insertInto, hk]
      · simpa [insertInto, hk, ho] using ih

end Attributes

end IndentMarkup
