import IndentMarkup.Attributes
import Mathlib.Data.List.Nodup

/-!
Insertions into an attribute list. A new key goes to the end and a known key
keeps its place, so keys are listed in the order in which they were first
inserted, and each has the value that was inserted last.
-/

namespace IndentMarkup.Attributes

theorem insertInto_of_notMem {key : Text} (value : Text) {items : List Attribute}
    (h : key ∉ items.map Attribute.key) :
    insertInto key value items = items ++ [⟨key, value⟩] := by
  induction items with
  | nil => rfl
  | cons item items ih =>
      rw [List.map_cons, List.mem_cons, not_or] at h
      rw [insertInto, if_neg (Ne.symm h.1), ih h.2, List.cons_append]

theorem insert_of_notMem {attrs : Attributes} {key : Text} (value : Text) (h : key ∉ attrs.keys) :
    attrs.insert key value = ⟨attrs.toList ++ [⟨key, value⟩]⟩ :=
  congrArg mk (insertInto_of_notMem value h)

theorem foldl_insert_of_nodup {attrs : Attributes} {items : List Attribute}
    (h : (attrs.keys ++ items.map Attribute.key).Nodup) :
    items.foldl (fun attrs item => attrs.insert item.key item.value) attrs =
      ⟨attrs.toList ++ items⟩ := by
  induction items generalizing attrs with
  | nil => simp
  | cons item items ih =>
      have hkey : item.key ∉ attrs.keys := by
        intro hmem
        exact (List.nodup_append.mp h).2.2 _ hmem item.key (by simp) rfl
      rw [List.foldl_cons, insert_of_notMem item.value hkey, ih]
      · simp
      · simpa [keys] using h

theorem keys_insert (attrs : Attributes) (key value : Text) :
    (attrs.insert key value).keys =
      if key ∈ attrs.keys then attrs.keys else attrs.keys ++ [key] := by
  split
  case isTrue hmem =>
    rcases attrs with ⟨items⟩
    simp only [keys, toList_insert] at hmem ⊢
    induction items with
    | nil => cases hmem
    | cons item items ih =>
        by_cases hkey : item.key = key
        · rw [insertInto, if_pos hkey, List.map_cons, List.map_cons, hkey]
        · rw [List.map_cons, List.mem_cons] at hmem
          rw [insertInto, if_neg hkey, List.map_cons, List.map_cons,
            ih (hmem.resolve_left (Ne.symm hkey))]
  case isFalse hnew =>
    rw [insert_of_notMem value hnew]
    simp [keys]

theorem get?_insert (attrs : Attributes) (key value other : Text) :
    (attrs.insert key value).get? other = if key = other then some value else attrs.get? other := by
  split
  case isTrue heq => rw [← heq, get?_insert_self]
  case isFalse hne => exact get?_insert_of_ne attrs value (Ne.symm hne)

/-- With no key twice, every item is found. -/
theorem get?_of_mem {attrs : Attributes} {item : Attribute} (h : attrs.keys.Nodup)
    (hitem : item ∈ attrs.toList) : attrs.get? item.key = some item.value := by
  rw [get?]
  cases hfind : attrs.toList.find? (·.key = item.key) with
  | none => exact absurd (decide_eq_true rfl) (List.find?_eq_none.mp hfind item hitem)
  | some found =>
      have hkey : found.key = item.key := by simpa using List.find?_some hfind
      obtain rfl := List.inj_on_of_nodup_map h (List.mem_of_find?_eq_some hfind) hitem hkey
      rfl

theorem nodup_keys_insert {attrs : Attributes} (key value : Text) (h : attrs.keys.Nodup) :
    (attrs.insert key value).keys.Nodup := by
  rw [keys_insert]
  split
  case isTrue => exact h
  case isFalse hnew =>
    refine List.nodup_append.mpr ⟨h, by simp, ?_⟩
    rintro other hother _ hkey rfl
    exact hnew (List.mem_singleton.mp hkey ▸ hother)

section Pairs

variable (attrs : Attributes) (pairs : List (Text × Text))

/-- The last pair with a key gives its value. -/
theorem get?_foldl_insert (key : Text) :
    (pairs.foldl (fun attrs pair => attrs.insert pair.1 pair.2) attrs).get? key =
      ((pairs.reverse.find? (·.1 = key)).map Prod.snd).or (attrs.get? key) := by
  induction pairs generalizing attrs with
  | nil => simp
  | cons pair pairs ih =>
      rw [List.foldl_cons, ih, get?_insert, List.reverse_cons, List.find?_append]
      cases pairs.reverse.find? (·.1 = key) with
      | some last => rfl
      | none => by_cases hkey : pair.1 = key <;> simp [hkey]

/-- New keys come behind the known ones, in the order of their first pairs. -/
theorem keys_foldl_insert :
    (pairs.foldl (fun attrs pair => attrs.insert pair.1 pair.2) attrs).keys =
      attrs.keys ++ ((pairs.map Prod.fst).filter (· ∉ attrs.keys)).eraseDups := by
  induction pairs generalizing attrs with
  | nil => simp
  | cons pair pairs ih =>
      rw [List.foldl_cons, ih, keys_insert, List.map_cons]
      by_cases hmem : pair.1 ∈ attrs.keys
      · rw [if_pos hmem, List.filter_cons_of_neg (by simpa using hmem)]
      · rw [if_neg hmem, List.filter_cons_of_pos (by simpa using hmem), List.eraseDups_cons,
          List.filter_filter, List.append_assoc, List.singleton_append]
        congr 4
        funext key
        by_cases hkey : key = pair.1 <;> simp [hkey]

theorem nodup_keys_foldl_insert {attrs : Attributes} (h : attrs.keys.Nodup) :
    (pairs.foldl (fun attrs pair => attrs.insert pair.1 pair.2) attrs).keys.Nodup := by
  induction pairs generalizing attrs with
  | nil => exact h
  | cons pair pairs ih => exact ih (nodup_keys_insert _ _ h)

end Pairs

end IndentMarkup.Attributes
