import IndentMarkup.Proofs.Attributes
import Mathlib.Data.Finset.Card

/-!
Attribute lists as ordered maps: what a list holds after any number of
insertions, in terms of the insertions alone. An insertion of a known key is
an assignment at its position. Main statement: each key stands once, where its
first insertion put it, with the value of its last one.
-/

namespace IndentMarkup.Attributes

theorem insertInto_eq_set {key : Text} (value : Text) {items : List Attribute}
    (h : key ∈ items.map Attribute.key) :
    insertInto key value items = items.set ((items.map Attribute.key).idxOf key) ⟨key, value⟩ := by
  induction items with
  | nil => cases h
  | cons item items ih =>
      rw [insertInto, List.map_cons]
      by_cases hkey : item.key = key
      · rw [if_pos hkey, hkey, List.idxOf_cons_self, List.set_cons_zero]
      · rw [List.map_cons, List.mem_cons] at h
        rw [if_neg hkey, ih (h.resolve_left (Ne.symm hkey)), List.idxOf_cons_ne _ hkey,
          List.set_cons_succ]

theorem get?_eq_none_iff (attrs : Attributes) (key : Text) :
    attrs.get? key = none ↔ key ∉ attrs.keys := by
  rw [get?, Option.map_eq_none_iff, List.find?_eq_none, keys]
  simp

/-- What is in the list after these insertions, one after another from the empty list. -/
def ofInsertions (insertions : List (Text × Text)) : Attributes :=
  insertions.foldl (fun attrs pair => attrs.insert pair.1 pair.2) .empty

section Insertions

variable (insertions : List (Text × Text))

theorem ofInsertions_concat (key value : Text) :
    ofInsertions (insertions ++ [(key, value)]) = (ofInsertions insertions).insert key value := by
  rw [ofInsertions, List.foldl_append, ← ofInsertions, List.foldl_cons, List.foldl_nil]

theorem nodup_keys_ofInsertions : (ofInsertions insertions).keys.Nodup :=
  nodup_keys_foldl_insert insertions List.nodup_nil

theorem mem_keys_ofInsertions (key : Text) :
    key ∈ (ofInsertions insertions).keys ↔ key ∈ insertions.map Prod.fst := by
  rw [ofInsertions, keys_foldl_insert]
  simp [keys]

/-- A key stands before another if it was first inserted before the other. -/
theorem pairwise_keys_ofInsertions :
    (ofInsertions insertions).keys.Pairwise fun key other =>
      (insertions.map Prod.fst).idxOf key < (insertions.map Prod.fst).idxOf other := by
  induction insertions using List.reverseRecOn with
  | nil => exact List.Pairwise.nil
  | append_singleton insertions pair ih =>
      obtain ⟨key, value⟩ := pair
      rw [ofInsertions_concat, List.map_append, List.map_singleton]
      -- An insertion at the end moves no first insertion of another key.
      have hkept : (ofInsertions insertions).keys.Pairwise fun key' other =>
          (insertions.map Prod.fst ++ [key]).idxOf key' <
            (insertions.map Prod.fst ++ [key]).idxOf other := by
        refine ih.imp_of_mem fun hkey hother hlt => ?_
        rw [mem_keys_ofInsertions] at hkey hother
        rwa [List.idxOf_append_of_mem hkey, List.idxOf_append_of_mem hother]
      rw [keys_insert]
      split
      case isTrue => exact hkept
      case isFalse hnew =>
        refine List.pairwise_append.mpr ⟨hkept, List.pairwise_singleton _ _, ?_⟩
        intro earlier hearlier _ hlast
        rw [mem_keys_ofInsertions] at hearlier hnew
        rw [List.mem_singleton.mp hlast, List.idxOf_append_of_mem hearlier,
          List.idxOf_append_of_notMem hnew]
        have := List.idxOf_lt_length_of_mem hearlier
        omega

theorem size_ofInsertions :
    (ofInsertions insertions).size = (insertions.map Prod.fst).toFinset.card := by
  have hkeys : (ofInsertions insertions).keys.toFinset = (insertions.map Prod.fst).toFinset := by
    ext key
    rw [List.mem_toFinset, List.mem_toFinset, mem_keys_ofInsertions]
  rw [← hkeys, List.toFinset_card_of_nodup (nodup_keys_ofInsertions insertions), keys,
    List.length_map, size]

theorem isEmpty_ofInsertions : (ofInsertions insertions).isEmpty = true ↔ insertions = [] := by
  have hkeys : (ofInsertions insertions).keys = [] ↔ insertions.map Prod.fst = [] := by
    simp only [List.eq_nil_iff_forall_not_mem, mem_keys_ofInsertions]
  rw [keys, List.map_eq_nil_iff, List.map_eq_nil_iff] at hkeys
  rw [isEmpty, List.isEmpty_iff, hkeys]

theorem get?_ofInsertions_eq_none_iff (key : Text) :
    (ofInsertions insertions).get? key = none ↔ key ∉ insertions.map Prod.fst := by
  rw [get?_eq_none_iff, mem_keys_ofInsertions]

theorem get?_ofInsertions_append_cons (before : List (Text × Text)) {key : Text} (value : Text)
    {after : List (Text × Text)} (h : key ∉ after.map Prod.fst) :
    (ofInsertions (before ++ (key, value) :: after)).get? key = some value := by
  have hafter : after.reverse.find? (·.1 = key) = none := by
    rw [List.find?_eq_none]
    intro pair hpair hkey
    exact h (List.mem_map.mpr ⟨pair, List.mem_reverse.mp hpair, by simpa using hkey⟩)
  rw [ofInsertions, get?_foldl_insert, List.reverse_append, List.reverse_cons, List.find?_append,
    List.find?_append, hafter]
  simp

/-- Attribute lists are ordered maps. Whatever is inserted, in whatever order, each key stands
once and where its first insertion puts it, and has the value of its last insertion. Inserting
it again changes the item at its position and nothing else. -/
theorem ofInsertions_orderedMap :
    (ofInsertions insertions).keys.Nodup ∧
      (∀ key, key ∈ (ofInsertions insertions).keys ↔ key ∈ insertions.map Prod.fst) ∧
      ((ofInsertions insertions).keys.Pairwise fun key other =>
        (insertions.map Prod.fst).idxOf key < (insertions.map Prod.fst).idxOf other) ∧
      (ofInsertions insertions).size = (insertions.map Prod.fst).toFinset.card ∧
      ((ofInsertions insertions).isEmpty = true ↔ insertions = []) ∧
      (∀ key, (ofInsertions insertions).get? key = none ↔ key ∉ insertions.map Prod.fst) ∧
      (∀ before key value after, insertions = before ++ (key, value) :: after →
        key ∉ after.map Prod.fst → (ofInsertions insertions).get? key = some value) ∧
      ∀ key ∈ (ofInsertions insertions).keys, ∀ value,
        ((ofInsertions insertions).insert key value).toList =
          (ofInsertions insertions).toList.set ((ofInsertions insertions).keys.idxOf key)
            ⟨key, value⟩ := by
  refine ⟨nodup_keys_ofInsertions insertions, mem_keys_ofInsertions insertions,
    pairwise_keys_ofInsertions insertions, size_ofInsertions insertions,
    isEmpty_ofInsertions insertions, get?_ofInsertions_eq_none_iff insertions, ?_, ?_⟩
  · rintro before key value after rfl hlast
    exact get?_ofInsertions_append_cons before value hlast
  · exact fun key hkey value => insertInto_eq_set value hkey

/-- An id and classes, given twice and with another key between. -/
def repeatedInsertions : List (Text × Text) :=
  [("id".toList, "x".toList), ("class".toList, "a".toList), ("id".toList, "y".toList),
    ("k".toList, []), ("class".toList, "b".toList)]

theorem ofInsertions_orderedMap_repeatedInsertions :
    (ofInsertions repeatedInsertions).keys = ["id".toList, "class".toList, "k".toList] ∧
      (ofInsertions repeatedInsertions).size = 3 ∧
      (ofInsertions repeatedInsertions).get? "id".toList = some "y".toList ∧
      ((ofInsertions repeatedInsertions).insert "class".toList "c".toList).toList =
        [⟨"id".toList, "y".toList⟩, ⟨"class".toList, "c".toList⟩, ⟨"k".toList, []⟩] := by
  obtain ⟨-, -, -, hsize, -, -, hlast, hagain⟩ := ofInsertions_orderedMap repeatedInsertions
  refine ⟨by decide, hsize.trans (by decide), ?_, ?_⟩
  · exact hlast (repeatedInsertions.take 2) _ "y".toList (repeatedInsertions.drop 3) rfl (by decide)
  · exact (hagain "class".toList (by decide) "c".toList).trans (by decide)

end Insertions

end IndentMarkup.Attributes
