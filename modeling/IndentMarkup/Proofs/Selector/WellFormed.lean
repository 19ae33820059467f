import IndentMarkup.Proofs.Provenance
import IndentMarkup.Proofs.Selector.Attributes

/-!
What a line holds once it has been read. An element is written without any
escapes, so its markup is sound only because of what its name, keys and values
cannot hold. White space can stand in a group, but all that is taken from a
group are its words; outside groups a head has none. Main statement: reading
replaces whatever a line held by fields of this form, which the content alone
decides.
-/

namespace IndentMarkup

open Text
open Template (FreeOf)

namespace Selector

section Seen

/-- A part that ends before any group is seen whole. -/
theorem isBlank_of_mem_takeWhile {ends : Char → Bool} (hends : ends '(' = true) {rest : Text}
    (hrest : ∀ c ∈ outsideChars false rest, isBlank c = false) :
    ∀ c ∈ rest.takeWhile (!ends ·), isBlank c = false := by
  have hopen : '(' ∉ rest.takeWhile (!ends ·) := by
    intro hmem
    have hnot := List.mem_takeWhile_imp hmem
    rw [hends] at hnot
    cases hnot
  rw [← List.takeWhile_append_dropWhile (p := (!ends ·)) (l := rest), outsideChars_append,
    outsideChars_of_notMem_open hopen] at hrest
  exact fun c hc => hrest c (List.mem_append_left _ hc)

/-- Behind a mark that opens no group, a scan sees what it saw before. -/
theorem forall_mem_outsideChars_of_behindMark? {p q : Char → Bool} (hp : p '(' = false)
    {inGroup : Bool} {t rest : Text} (h : behindMark? p inGroup t = some rest)
    (ht : ∀ c ∈ outsideChars inGroup t, q c = false) :
    ∀ c ∈ outsideChars false rest, q c = false := by
  induction t generalizing inGroup with
  | nil => cases h
  | cons c t ih =>
      have hrest := (forall_mem_outsideChars_cons ht).2
      rw [behindMark?] at h
      split at h
      case isTrue hmark =>
        obtain ⟨rfl, hc⟩ := hmark
        obtain rfl := Option.some.inj h
        have hopen : groupAfter false [c] = false := by
          refine beq_eq_false_iff_ne.mpr ?_
          rintro rfl
          rw [hp] at hc
          cases hc
        rwa [hopen] at hrest
      case isFalse => exact ih h hrest

theorem freeOf_of_idOf? {head id : Text}
    (hhead : ∀ c ∈ outsideChars false head, isBlank c = false) (h : idOf? head = some id) :
    FreeOf [] id := by
  rw [idOf?_eq, Option.filter_eq_some_iff, Option.map_eq_some_iff] at h
  obtain ⟨⟨rest, hrest, rfl⟩, -⟩ := h
  have hseen := forall_mem_outsideChars_of_behindMark? rfl hrest hhead
  exact fun c hc => ⟨isBlank_of_mem_takeWhile rfl hseen c hc, List.not_mem_nil⟩

theorem freeOf_of_mem_classesFrom {inGroup : Bool} {t word : Text}
    (ht : ∀ c ∈ outsideChars inGroup t, isBlank c = false) (h : word ∈ classesFrom inGroup t) :
    FreeOf [] word := by
  induction t generalizing inGroup with
  | nil => cases h
  | cons c t ih =>
      have hrest := (forall_mem_outsideChars_cons ht).2
      rw [classesFrom] at h
      split at h
      case isTrue hdot =>
        obtain ⟨rfl, rfl⟩ := hdot
        rcases List.mem_cons.mp h with rfl | hlater
        · exact fun d hd => ⟨isBlank_of_mem_takeWhile rfl hrest d hd, List.not_mem_nil⟩
        · exact ih hrest hlater
      case isFalse => exact ih hrest h

end Seen

section Words

/-- A word of the group that is a pair. -/
theorem pair_of_mem_pairWords {selector : Selector} {word : Text}
    (h : word ∈ selector.pairWords) : word ∈ selector.groupWords ∧ ¬ Malformed word := by
  simpa [pairWords] using h

theorem nameIn_ne_nil {word : Text} (h : ¬ Malformed word) : nameIn word ≠ [] := by
  rw [Malformed, not_or, not_not] at h
  obtain ⟨hcolon, hhead⟩ := h
  cases word with
  | nil => cases hcolon
  | cons c rest =>
      have hc : c ≠ ':' := by simpa using hhead
      simp [nameIn, hc]

theorem mem_of_mem_nameIn {c : Char} {word : Text} (h : c ∈ nameIn word) :
    c ∈ word ∧ c ≠ ':' :=
  ⟨(List.takeWhile_sublist _).subset h, by simpa using List.mem_takeWhile_imp h⟩

theorem mem_of_mem_valueIn {c : Char} {word : Text} (h : c ∈ valueIn word) : c ∈ word :=
  (List.dropWhile_sublist _).subset (List.mem_of_mem_tail h)

end Words

section Items

variable (selector : Selector)

theorem nodup_shorthandKeys : selector.shorthandKeys.Nodup := by
  have hkeys : ["id".toList, "class".toList].Nodup := by decide
  rw [shorthandKeys]
  cases selector.id? with
  | none => split <;> simp
  | some id =>
      split
      · simp
      · exact hkeys

theorem nodup_keys_attributes : selector.attributes.keys.Nodup := by
  rw [attributes_eq]
  apply Attributes.nodup_keys_foldl_insert
  rw [keys_shorthand]
  exact selector.nodup_shorthandKeys

variable {selector}

theorem mem_of_mem_shorthandKeys {key : Text} (h : key ∈ selector.shorthandKeys) :
    key ∈ ["id".toList, "class".toList] := by
  rw [shorthandKeys, List.mem_append] at h
  rcases h with hid | hclass
  · obtain ⟨id, -, rfl⟩ := List.mem_map.mp hid
    exact List.mem_cons_self
  · split at hclass
    · cases hclass
    · exact List.mem_cons_of_mem _ hclass

/-- A key is one of the two that marks stand for, or the name of a pair. -/
theorem mem_keys_attributes {key : Text} (h : key ∈ selector.attributes.keys) :
    key ∈ ["id".toList, "class".toList] ∨ ∃ word ∈ selector.pairWords, nameIn word = key := by
  rw [keys_attributes, List.mem_append, List.mem_eraseDups] at h
  rcases h with hshorthand | hnamed
  · exact .inl (mem_of_mem_shorthandKeys hshorthand)
  · exact .inr (List.mem_map.mp (List.mem_of_mem_filter hnamed))

/-- An item is one of the pairs, or what marks stand for if no pair names its key. -/
theorem item_cases {item : Attribute} (h : item ∈ selector.attributes.toList) :
    (∃ word ∈ selector.pairWords, nameIn word = item.key ∧ valueIn word = item.value) ∨
      (∀ word ∈ selector.pairWords, nameIn word ≠ item.key) ∧
        selector.shorthandValue? item.key = some item.value := by
  have hget := Attributes.get?_of_mem selector.nodup_keys_attributes h
  rw [get?_attributes] at hget
  cases hfind : selector.pairWords.reverse.find? (nameIn · = item.key) with
  | none =>
      rw [hfind, Option.map_none, Option.none_or] at hget
      rw [List.find?_eq_none] at hfind
      exact .inr ⟨fun word hword => by simpa using hfind word (List.mem_reverse.mpr hword), hget⟩
  | some word =>
      rw [hfind, Option.map_some, Option.some_or] at hget
      have hname : nameIn word = item.key := by simpa using List.find?_some hfind
      have hword := List.mem_reverse.mp (List.mem_of_find?_eq_some hfind)
      exact .inl ⟨word, hword, hname, Option.some.inj hget⟩

end Items

/-- The item holds the classes of the selector: no pair has replaced them. -/
def HoldsClasses (selector : Selector) (item : Attribute) : Prop :=
  item.key = "class".toList ∧ ∀ word ∈ selector.pairWords, nameIn word ≠ item.key

section Parts

variable {content : Text} {selector : Selector} (h : ofContent? content = some selector)

include h

theorem freeOf_of_mem_id? {id : Text} (hid : id ∈ selector.id?) : FreeOf [] id := by
  rw [ofContent?, Option.map_eq_some_iff] at h
  obtain ⟨name, -, rfl⟩ := h
  exact freeOf_of_idOf? (fun c hc => isBlank_of_mem_outsideChars_headOf hc) hid

theorem class_spec {word : Text} (hword : word ∈ selector.classes) :
    word ≠ [] ∧ FreeOf [] word := by
  rw [ofContent?, Option.map_eq_some_iff] at h
  obtain ⟨name, -, rfl⟩ := h
  simp only [classesOf_eq, List.mem_filter] at hword
  refine ⟨by simpa using hword.2, ?_⟩
  exact freeOf_of_mem_classesFrom (fun c hc => isBlank_of_mem_outsideChars_headOf hc) hword.1

/-- A word has no white space, and the group ends before any closing parenthesis. -/
theorem freeOf_of_mem_groupWords {word : Text} (hword : word ∈ selector.groupWords) :
    FreeOf [')'] word := by
  have hgroup := group_of_ofContent? h
  rw [groupWords] at hword
  split at hword
  case h_1 inner hclosed =>
    rw [hclosed] at hgroup
    obtain ⟨-, -, -, -, hinner⟩ := (groupOf_eq_closed_iff content inner).mp hgroup.symm
    intro c hc
    refine ⟨isBlank_of_mem_words hword hc, ?_⟩
    rw [List.mem_singleton]
    exact ne_of_mem_of_not_mem (mem_of_mem_words hword hc) hinner
  case h_2 => cases hword

theorem freeOf_nameIn {word : Text} (hword : word ∈ selector.pairWords) :
    FreeOf [':', ')'] (nameIn word) := by
  have hfree := freeOf_of_mem_groupWords h (pair_of_mem_pairWords hword).1
  intro c hc
  obtain ⟨hmem, hcolon⟩ := mem_of_mem_nameIn hc
  obtain ⟨hblank, hclose⟩ := hfree c hmem
  exact ⟨hblank, by simpa [hcolon] using hclose⟩

theorem freeOf_valueIn {word : Text} (hword : word ∈ selector.pairWords) :
    FreeOf [] (valueIn word) := by
  have hfree := freeOf_of_mem_groupWords h (pair_of_mem_pairWords hword).1
  exact fun c hc => ⟨(hfree c (mem_of_mem_valueIn hc)).1, List.not_mem_nil⟩

theorem key_spec {key : Text} (hkey : key ∈ selector.attributes.keys) :
    key ≠ [] ∧ FreeOf [':', ')'] key := by
  rcases mem_keys_attributes hkey with hshorthand | ⟨word, hword, rfl⟩
  · have hown : ∀ key ∈ ["id".toList, "class".toList], key ≠ [] ∧ FreeOf [':', ')'] key := by
      decide
    exact hown key hshorthand
  · exact ⟨nameIn_ne_nil (pair_of_mem_pairWords hword).2, freeOf_nameIn h hword⟩

theorem freeOf_value {item : Attribute} (hitem : item ∈ selector.attributes.toList)
    (hclass : ¬ selector.HoldsClasses item) : FreeOf [] item.value := by
  rcases item_cases hitem with ⟨word, hword, -, hvalue⟩ | ⟨hunnamed, hvalue⟩
  · exact hvalue ▸ freeOf_valueIn h hword
  · rw [shorthandValue?] at hvalue
    split at hvalue
    case isTrue => exact freeOf_of_mem_id? h hvalue
    case isFalse =>
      split at hvalue
      case isTrue hkey => exact absurd ⟨hkey.1, hunnamed⟩ hclass
      case isFalse => cases hvalue

/-- Cutting at spaces undoes the joining of the classes. -/
theorem value_of_holdsClasses {item : Attribute} (hitem : item ∈ selector.attributes.toList)
    (hclass : selector.HoldsClasses item) :
    selector.classes ≠ [] ∧ item.value = [' '].intercalate selector.classes ∧
      item.value.splitOn ' ' = selector.classes := by
  obtain ⟨hkey, hunnamed⟩ := hclass
  have hvalue : selector.shorthandValue? item.key = some item.value := by
    rcases item_cases hitem with ⟨word, hword, hname, -⟩ | ⟨-, hvalue⟩
    · exact absurd hname (hunnamed word hword)
    · exact hvalue
  have hnotId : item.key ≠ "id".toList := by
    rw [hkey]
    decide
  rw [shorthandValue?, if_neg hnotId] at hvalue
  split at hvalue
  case isTrue hclasses =>
    have hjoin := (Option.some.inj hvalue).symm
    have hspace : ∀ word ∈ selector.classes, ' ' ∉ word := by
      intro word hword hmem
      have hblank := ((class_spec h hword).2 ' ' hmem).1
      cases hblank
    refine ⟨hclasses.2, hjoin, ?_⟩
    rw [hjoin, List.splitOn_intercalate ' ' hspace hclasses.2]
  case isFalse => cases hvalue

theorem trim_body : trim selector.body = selector.body := by
  rw [body_of_ofContent? h, bodyOf, trim_trim]

end Parts

/-- What the fields of an element line hold when they were read as this selector. -/
structure FilledIn (selector : Selector) (line : Line) : Prop where
  ofContent : ofContent? line.content = some selector
  tag : line.tag = .element selector.name
  name_ne_nil : selector.name ≠ []
  name_free : FreeOf ['#', '.', '(', ':'] selector.name
  keys_nodup : line.attrs.keys.Nodup
  keys_ne_nil : ∀ key ∈ line.attrs.keys, key ≠ []
  keys_free : ∀ key ∈ line.attrs.keys, FreeOf [':', ')'] key
  values_free : ∀ item ∈ line.attrs.toList, ¬ selector.HoldsClasses item → FreeOf [] item.value
  classes_ne_nil : ∀ word ∈ selector.classes, word ≠ []
  classes_free : ∀ word ∈ selector.classes, FreeOf [] word
  class_value : ∀ item ∈ line.attrs.toList, selector.HoldsClasses item →
    selector.classes ≠ [] ∧ item.value = [' '].intercalate selector.classes ∧
      item.value.splitOn ' ' = selector.classes
  trim_body : trim line.body = line.body

theorem filledIn_read {line : Line} {selector : Selector}
    (h : ofContent? line.content = some selector) : selector.FilledIn line.read := by
  have hattrs : line.read.attrs = selector.attributes := by simp only [Line.read, h]
  have hbody : line.read.body = selector.body := by simp only [Line.read, h]
  obtain ⟨hne, hname⟩ := name_spec h
  exact {
    ofContent := by rwa [Line.content_read]
    tag := by simp only [Line.read, h]
    name_ne_nil := hne
    name_free := fun c hc => ⟨(hname c hc).1, by simpa [isMark, and_assoc] using (hname c hc).2⟩
    keys_nodup := hattrs ▸ selector.nodup_keys_attributes
    keys_ne_nil := fun key hkey => (key_spec h (hattrs ▸ hkey)).1
    keys_free := fun key hkey => (key_spec h (hattrs ▸ hkey)).2
    values_free := fun item hitem => freeOf_value h (hattrs ▸ hitem)
    classes_ne_nil := fun word hword => (class_spec h hword).1
    classes_free := fun word hword => (class_spec h hword).2
    class_value := fun item hitem => value_of_holdsClasses h (hattrs ▸ hitem)
    trim_body := by rw [hbody, trim_body h] }

end Selector

namespace Line

/-- A text line has neither attributes nor a body, and an element line has
those of a selector. -/
def WellFormed (line : Line) : Prop :=
  match line.tag with
  | .text => line.attrs = .empty ∧ line.body = []
  | .element _ => ∃ selector : Selector, selector.FilledIn line

theorem wellFormed_read (line : Line) : line.read.WellFormed := by
  cases h : Selector.ofContent? line.content with
  | none => simp [WellFormed, read, h]
  | some selector =>
      have hfilled := Selector.filledIn_read h
      rw [WellFormed, hfilled.tag]
      exact ⟨selector, hfilled⟩

theorem read_of_content_eq {line other : Line} (h : other.content = line.content) :
    other.read = { line.read with level := other.level } := by
  rw [read, read, h]
  split <;> rfl

theorem findings_of_content_eq {line other : Line} (h : other.content = line.content) :
    other.findings = line.findings := by
  rw [findings, findings, h]

/-- Reading keeps the content, the level and what has been found before. The
rest of the line and what is added depend on the content alone, whatever else
the line held, and the line is well formed. -/
theorem readAfter_wellFormed (line : Line) (found : List Diagnostic) :
    (line.readAfter found).1.content = line.content ∧
      (line.readAfter found).1.level = line.level ∧
      (∃ added, (line.readAfter found).2 = found ++ added ∧
        ∀ (other : Line) (before : List Diagnostic), other.content = line.content →
          (other.readAfter before).1 = { (line.readAfter found).1 with level := other.level } ∧
            (other.readAfter before).2 = before ++ added) ∧
      (line.readAfter found).1.WellFormed := by
  refine ⟨content_read line, level_read line, ?_, wellFormed_read line⟩
  refine ⟨line.findings, rfl, fun other before h => ⟨read_of_content_eq h, ?_⟩⟩
  rw [readAfter, findings_of_content_eq h]

/-- An item of a list that still holds what was read before, one key twice. -/
def reusedItem : Line :=
  { level := 2
    content := "li#a.b.c(k:v k:w bare) x".toList
    tag := .element "old name".toList
    attrs := ⟨[⟨"k".toList, "1 2".toList⟩, ⟨"k".toList, []⟩]⟩
    body := " left over".toList }

theorem readAfter_wellFormed_reusedItem :
    ¬ reusedItem.WellFormed ∧ (reusedItem.readAfter []).1.WellFormed ∧
      (reusedItem.readAfter []).1.tag = .element "li".toList ∧
      (reusedItem.readAfter []).1.attrs.toList =
        [⟨"id".toList, "a".toList⟩, ⟨"class".toList, "b c".toList⟩, ⟨"k".toList, "w".toList⟩] := by
  refine ⟨?_, (readAfter_wellFormed reusedItem []).2.2.2, by decide +kernel, by decide +kernel⟩
  rintro ⟨selector, hfilled⟩
  exact absurd hfilled.keys_nodup (by decide)

end Line

end IndentMarkup
