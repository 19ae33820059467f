import IndentMarkup.Compile
import IndentMarkup.Proofs.Canonical.Basic
import IndentMarkup.Proofs.Outline

/-!
Where the characters of a document come from. Each stage takes parts of the
text before it; the only characters that it adds are tabs and line feeds
between lines, the default name, the keys of shorthand attributes and the
space between classes. So a property of characters that holds of these and of
the source holds of everything that is read.
-/

namespace IndentMarkup

variable {P : Char → Prop}

namespace Text

theorem mem_of_mem_splitOnP {c : Char} {p : Char → Bool} {t part : Text}
    (hpart : part ∈ t.splitOnP p) (hc : c ∈ part) : c ∈ t := by
  induction t generalizing part with
  | nil =>
      rw [List.splitOnP_nil, List.mem_singleton] at hpart
      rwa [hpart] at hc
  | cons d t ih =>
      rw [List.splitOnP_cons_eq_if_modifyHead] at hpart
      -- A new part starts after a separator; any other character joins the first part.
      split at hpart
      · rcases List.mem_cons.mp hpart with rfl | hpart
        · cases hc
        · exact List.mem_cons_of_mem _ (ih hpart hc)
      · obtain ⟨first, rest, hsplit⟩ := List.exists_cons_of_ne_nil (List.splitOnP_ne_nil p t)
        rw [hsplit, List.modifyHead_cons] at hpart
        rcases List.mem_cons.mp hpart with rfl | hpart
        · rcases List.mem_cons.mp hc with rfl | hc
          · exact List.mem_cons_self
          · exact List.mem_cons_of_mem _ (ih (hsplit ▸ List.mem_cons_self) hc)
        · exact List.mem_cons_of_mem _ (ih (hsplit ▸ List.mem_cons_of_mem _ hpart) hc)

theorem mem_of_mem_words {c : Char} {t word : Text} (hword : word ∈ words t) (hc : c ∈ word) :
    c ∈ t :=
  mem_of_mem_splitOnP (List.mem_of_mem_filter hword) hc

theorem mem_of_mem_pieces {c : Char} {t piece : Text} (hpiece : piece ∈ t.pieces)
    (hc : c ∈ piece) : c ∈ t := by
  rw [pieces, List.splitOn_eq_splitOnP] at hpiece
  exact mem_of_mem_splitOnP hpiece hc

end Text

open Text

namespace Selector

/-- The characters that reading a line adds of its own. -/
def synthesized : Text := "div id class".toList

theorem mem_of_mem_partFrom {c : Char} {ends : Char → Bool} {start : Nat} {head : Text}
    (h : c ∈ partFrom ends start head) : c ∈ head :=
  mem_of_mem_dropBytes ((List.takeWhile_sublist _).subset h)

theorem mem_of_nameOf? {c : Char} {head name : Text} (h : nameOf? head = some name)
    (hc : c ∈ name) : c ∈ synthesized ∨ c ∈ head := by
  have hdefault : defaultName ⊆ synthesized := by decide
  rw [nameOf?] at h
  split at h
  case h_1 =>
    obtain rfl := Option.some.inj h
    exact .inl (hdefault hc)
  case h_2 =>
    obtain rfl := Option.some.inj h
    exact .inr (mem_of_mem_takeBytes hc)
  case h_3 =>
    split at h
    case isTrue =>
      obtain rfl := Option.some.inj h
      exact .inr hc
    case isFalse => cases h

theorem mem_of_mem_name {c : Char} {content : Text} {selector : Selector}
    (h : ofContent? content = some selector) (hc : c ∈ selector.name) :
    c ∈ synthesized ∨ c ∈ content := by
  rw [ofContent?, Option.map_eq_some_iff] at h
  obtain ⟨name, hname, rfl⟩ := h
  exact (mem_of_nameOf? hname hc).imp_right mem_of_mem_takeBytes

theorem mem_of_mem_body {c : Char} {content : Text} {selector : Selector}
    (h : ofContent? content = some selector) (hc : c ∈ selector.body) : c ∈ content := by
  rw [ofContent?, Option.map_eq_some_iff] at h
  obtain ⟨name, -, rfl⟩ := h
  exact mem_of_mem_dropBytes (mem_of_mem_trim hc)

theorem mem_of_idOf? {c : Char} {head id : Text} (h : idOf? head = some id) (hc : c ∈ id) :
    c ∈ head := by
  rw [idOf?, Option.filter_eq_some_iff, Option.map_eq_some_iff] at h
  obtain ⟨⟨mark, -, rfl⟩, -⟩ := h
  exact mem_of_mem_partFrom hc

theorem mem_of_mem_classesOf {c : Char} {head word : Text} (h : word ∈ classesOf head)
    (hc : c ∈ word) : c ∈ head := by
  obtain ⟨dot, -, rfl⟩ := List.mem_map.mp (List.mem_of_mem_filter h)
  exact mem_of_mem_partFrom hc

theorem mem_of_groupOf {c : Char} {head inner : Text} (h : groupOf head = .closed inner)
    (hc : c ∈ inner) : c ∈ head := by
  simp only [groupOf] at h
  split at h
  case h_1 => cases h
  case h_2 =>
    split at h
    case isTrue =>
      obtain rfl := AttributeGroup.closed.inj h
      exact mem_of_mem_dropBytes ((List.takeWhile_sublist _).subset hc)
    case isFalse => cases h

theorem mem_of_pair? {c : Char} {word : Text} {pair : Text × Text} (h : pair? word = some pair) :
    (c ∈ pair.1 → c ∈ word) ∧ (c ∈ pair.2 → c ∈ word) := by
  rw [pair?] at h
  split at h
  case h_1 => cases h
  case h_2 mark value hrest =>
    split at h
    case isTrue => cases h
    case isFalse =>
      obtain rfl := Option.some.inj h
      refine ⟨fun hc => (List.takeWhile_sublist _).subset hc, fun hc => ?_⟩
      exact (List.dropWhile_sublist _).subset (hrest ▸ List.mem_cons_of_mem _ hc)

end Selector

namespace Attributes

/-- Every character of the keys and values has the property. -/
def Within (P : Char → Prop) (attrs : Attributes) : Prop :=
  ∀ item ∈ attrs.toList, (∀ c ∈ item.key, P c) ∧ ∀ c ∈ item.value, P c

theorem Within.mono {Q : Char → Prop} {attrs : Attributes} (h : attrs.Within P)
    (himp : ∀ c, P c → Q c) : attrs.Within Q := by
  intro item hitem
  obtain ⟨hkey, hvalue⟩ := h item hitem
  exact ⟨fun c hc => himp c (hkey c hc), fun c hc => himp c (hvalue c hc)⟩

theorem mem_insertInto {key value : Text} {item : Attribute} {items : List Attribute}
    (h : item ∈ insertInto key value items) : item = ⟨key, value⟩ ∨ item ∈ items := by
  induction items with
  | nil => exact .inl (by simpa [insertInto] using h)
  | cons first items ih =>
      rw [insertInto] at h
      split at h
      · rcases List.mem_cons.mp h with heq | hmem
        · exact .inl heq
        · exact .inr (List.mem_cons_of_mem _ hmem)
      · rcases List.mem_cons.mp h with rfl | hmem
        · exact .inr List.mem_cons_self
        · rcases ih hmem with heq | hmem
          · exact .inl heq
          · exact .inr (List.mem_cons_of_mem _ hmem)

theorem within_empty : Within P empty := by
  intro item hitem
  cases hitem

theorem Within.insert {attrs : Attributes} {key value : Text} (h : attrs.Within P)
    (hkey : ∀ c ∈ key, P c) (hvalue : ∀ c ∈ value, P c) : (attrs.insert key value).Within P := by
  intro item hitem
  rcases mem_insertInto hitem with rfl | hmem
  · exact ⟨hkey, hvalue⟩
  · exact h item hmem

theorem Within.foldl_insert {attrs : Attributes} {pairs : List (Text × Text)}
    (h : attrs.Within P) (hpairs : ∀ pair ∈ pairs, (∀ c ∈ pair.1, P c) ∧ ∀ c ∈ pair.2, P c) :
    (pairs.foldl (fun attrs pair => attrs.insert pair.1 pair.2) attrs).Within P := by
  induction pairs generalizing attrs with
  | nil => exact h
  | cons pair pairs ih =>
      obtain ⟨hkey, hvalue⟩ := hpairs pair List.mem_cons_self
      exact ih (h.insert hkey hvalue) fun other hother =>
        hpairs other (List.mem_cons_of_mem _ hother)

end Attributes

/-- Every character of what a line holds has the property. -/
structure Line.Within (P : Char → Prop) (line : Line) : Prop where
  content : ∀ c ∈ line.content, P c
  name : ∀ name ∈ line.tag.name?, ∀ c ∈ name, P c
  attrs : line.attrs.Within P
  body : ∀ c ∈ line.body, P c

theorem Line.Within.mono {Q : Char → Prop} {line : Line} (h : line.Within P)
    (himp : ∀ c, P c → Q c) : line.Within Q where
  content := fun c hc => himp c (h.content c hc)
  name := fun name hname c hc => himp c (h.name name hname c hc)
  attrs := h.attrs.mono himp
  body := fun c hc => himp c (h.body c hc)

section Read

variable (hown : ∀ c ∈ Selector.synthesized, P c)

include hown

theorem Selector.within_shorthand {selector : Selector}
    (hid : ∀ id ∈ selector.id?, ∀ c ∈ id, P c)
    (hclasses : ∀ word ∈ selector.classes, ∀ c ∈ word, P c) :
    selector.shorthand.Within P := by
  have hadded : ∀ c ∈ "id".toList ++ "class".toList ++ [' '], P c := by
    have hsubset : "id".toList ++ "class".toList ++ [' '] ⊆ synthesized := by decide
    exact fun c hc => hown c (hsubset hc)
  simp only [List.forall_mem_append] at hadded
  obtain ⟨⟨hidKey, hclassKey⟩, hspace⟩ := hadded
  have hjoined : ∀ c ∈ [' '].intercalate selector.classes, P c := by
    intro c hc
    rcases mem_or_exists_mem_of_mem_intercalate hc with hsep | ⟨word, hword, hmem⟩
    · exact hspace c hsep
    · exact hclasses word hword c hmem
  have hclass : ∀ attrs : Attributes, attrs.Within P →
      (if selector.classes.isEmpty then attrs
        else attrs.insert "class".toList ([' '].intercalate selector.classes)).Within P := by
    intro attrs hattrs
    split
    · exact hattrs
    · exact hattrs.insert hclassKey hjoined
  rw [shorthand]
  cases hsome : selector.id? with
  | none => exact hclass _ Attributes.within_empty
  | some id => exact hclass _ (Attributes.within_empty.insert hidKey (hid id hsome))

theorem Selector.within_attributes {content : Text} {selector : Selector}
    (h : ofContent? content = some selector) (hcontent : ∀ c ∈ content, P c) :
    selector.attributes.Within P := by
  have hhead : ∀ c ∈ headOf content, P c := fun c hc => hcontent c (mem_of_mem_takeBytes hc)
  rw [ofContent?, Option.map_eq_some_iff] at h
  obtain ⟨name, -, rfl⟩ := h
  apply Attributes.Within.foldl_insert
  · apply Selector.within_shorthand hown
    · exact fun id hid c hc => hhead c (mem_of_idOf? hid hc)
    · exact fun word hword c hc => hhead c (mem_of_mem_classesOf hword hc)
  · intro pair hpair
    obtain ⟨word, hword, hpair⟩ := List.mem_filterMap.mp hpair
    have hwordHead : ∀ c ∈ word, P c := by
      intro c hc
      simp only [groupWords] at hword
      split at hword
      case h_1 inner hgroup => exact hhead c (mem_of_groupOf hgroup (mem_of_mem_words hword hc))
      case h_2 => cases hword
    exact ⟨fun c hc => hwordHead c ((mem_of_pair? hpair).1 hc),
      fun c hc => hwordHead c ((mem_of_pair? hpair).2 hc)⟩

theorem Line.within_read {line : Line} (hline : ∀ c ∈ line.content, P c) :
    line.read.Within P := by
  rw [Line.read]
  split
  case h_1 =>
    exact {
      content := hline
      name := by simp [Tag.name?]
      attrs := Attributes.within_empty
      body := by simp }
  case h_2 selector hselector =>
    refine {
      content := hline
      name := ?_
      attrs := Selector.within_attributes hown hselector hline
      body := ?_ }
    · intro name hname c hc
      obtain rfl : selector.name = name := Option.some.inj hname
      rcases Selector.mem_of_mem_name hselector hc with hmem | hmem
      · exact hown c hmem
      · exact hline c hmem
    · exact fun c hc => hline c (Selector.mem_of_mem_body hselector hc)

end Read

section Document

theorem Line.forall_mem_content_of_ofText? {t : Text} {line : Line} (h : ofText? t = some line)
    (ht : ∀ c ∈ t, P c) : ∀ c ∈ line.content, P c := by
  obtain ⟨-, rfl⟩ := (ofText?_eq_some_iff t line).mp h
  exact fun c hc => ht c (mem_of_mem_trim hc)

theorem forall_mem_content_outline {t : Text} (ht : ∀ c ∈ t, P c) :
    ∀ line ∈ outline t, ∀ c ∈ line.content, P c := by
  intro line hline
  rw [outline_eq_filterMap_pieces] at hline
  obtain ⟨piece, hpiece, hsome⟩ := List.mem_filterMap.mp hline
  exact Line.forall_mem_content_of_ofText? hsome fun c hc => ht c (mem_of_mem_pieces hpiece hc)

theorem Line.forall_mem_content_separate {line : Line} (h : ∀ c ∈ line.content, P c) :
    ∀ part ∈ line.separate, ∀ c ∈ part.content, P c := by
  intro part hpart c hc
  rw [Line.separate, Line.inlineBlock?] at hpart
  cases hstart : inlineBlockStart? line.content with
  | none =>
      obtain rfl : part = line := by simpa [hstart] using hpart
      exact h c hc
  | some start =>
      simp only [hstart, Option.map_some, List.mem_cons, List.not_mem_nil, or_false] at hpart
      rcases hpart with rfl | rfl
      · exact h c (mem_of_mem_takeBytes hc)
      · exact h c (mem_of_mem_dropBytes (mem_of_mem_trim hc))

/-- What is parsed holds characters of the text and the synthesized ones. -/
theorem Document.within_of_mem_lines {canonical : Text}
    (hown : ∀ c ∈ Selector.synthesized, P c) (h : ∀ c ∈ canonical, P c) :
    ∀ line ∈ (parse canonical).lines, line.Within P := by
  intro line hline
  obtain ⟨part, hpart, rfl⟩ := List.mem_map.mp hline
  obtain ⟨whole, hwhole, hpart⟩ := List.mem_flatMap.mp hpart
  exact Line.within_read hown
    (Line.forall_mem_content_separate (forall_mem_content_outline h whole hwhole) part hpart)

end Document

section Canonical

theorem mem_of_mem_significantLines {c : Char} {raw line : Text}
    (hline : line ∈ significantLines raw) (hc : c ∈ line) : c ∈ raw := by
  obtain ⟨piece, hpiece, rfl⟩ := List.mem_map.mp (List.mem_of_mem_filter hline)
  exact mem_of_mem_pieces hpiece (mem_of_mem_dropEndWhile hc)

theorem mem_of_mem_canonicalLines {c : Char} {lines : List Text} {line : Text}
    (hline : line ∈ canonicalLines lines) (hc : c ∈ line) :
    c = '\t' ∨ ∃ original ∈ lines, c ∈ original := by
  have hall : ∀ line ∈ canonicalLines lines,
      c ∈ line → c = '\t' ∨ ∃ original ∈ lines, c ∈ original := by
    apply forall_mem_canonicalLines
    · intro width line ih hmem
      rcases mem_of_mem_retab hmem with htab | hmem
      · exact .inl htab
      · exact ih hmem
    · exact fun line hline hmem => .inr ⟨line, hline, hmem⟩
  exact hall line hline hc

theorem mem_of_mem_canonicalize {c : Char} {raw : Text} (h : c ∈ canonicalize raw) :
    c = '\n' ∨ c = '\t' ∨ c ∈ raw := by
  rcases mem_or_exists_mem_of_mem_intercalate h with hfeed | ⟨line, hline, hc⟩
  · exact .inl (List.mem_singleton.mp hfeed)
  · rcases mem_of_mem_canonicalLines hline hc with htab | ⟨original, horiginal, hmem⟩
    · exact .inr (.inl htab)
    · exact .inr (.inr (mem_of_mem_significantLines horiginal hmem))

end Canonical

end IndentMarkup
