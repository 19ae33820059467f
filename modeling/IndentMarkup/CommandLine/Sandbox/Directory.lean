import IndentMarkup.Charset.Utf8

/-!
Files with their bytes: those of the working directory, and those that stand anywhere else.
-/

namespace IndentMarkup.CommandLine

namespace Files

variable {α : Type} [DecidableEq α]

def get? (files : List (α × Bytes)) (name : α) : Option Bytes :=
  (files.find? (·.1 = name)).map (·.2)

/-- Replaces the file of this name, or adds it. -/
def put (name : α) (bytes : Bytes) : List (α × Bytes) → List (α × Bytes)
  | [] => [(name, bytes)]
  | file :: rest => if file.1 = name then (name, bytes) :: rest else file :: put name bytes rest

theorem get?_put_self (files : List (α × Bytes)) (name : α) (bytes : Bytes) :
    get? (put name bytes files) name = some bytes := by
  induction files with
  | nil => simp [get?, put]
  | cons file rest ih =>
    by_cases h : file.1 = name
    · simp [get?, put, h]
    · simpa [get?, put, h] using ih

theorem get?_put_of_ne (files : List (α × Bytes)) {name other : α} (bytes : Bytes)
    (h : other ≠ name) : get? (put name bytes files) other = get? files other := by
  induction files with
  | nil => simp [get?, put, h.symm]
  | cons file rest ih =>
    by_cases hn : file.1 = name
    · simp [get?, put, hn, h.symm]
    · by_cases ho : file.1 = other
      · subst ho
        simp [get?, put, hn]
      · simpa [get?, put, hn, ho] using ih

end Files

structure Directory where
  /-- The files of the working directory, in the order in which they came. -/
  files : List (Text × Bytes) := []
  /-- All other files, by the names on the way from the root. -/
  elsewhere : List (List Text × Bytes) := []
  deriving DecidableEq, Repr

end IndentMarkup.CommandLine
