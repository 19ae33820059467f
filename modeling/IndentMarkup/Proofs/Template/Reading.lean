import IndentMarkup.Proofs.Attributes
import IndentMarkup.Proofs.Selector
import IndentMarkup.Proofs.Template.Basic

/-!
Reading back the content of a well-formed element. Up to its group a head
holds no parenthesis, so a scan sees all of it; of the group a scan sees the
parentheses alone. Each part of the selector is then found where it was
written.
-/

namespace IndentMarkup.Template

open Text Selector

theorem FreeOf.notMem {marks : List Char} {t : Text} {c : Char} (h : FreeOf marks t)
    (hc : c ∈ marks) : c ∉ t :=
  fun hmem => (h c hmem).2 hc

theorem FreeOf.mono {marks fewer : List Char} {t : Text} (h : FreeOf marks t)
    (hsub : ∀ c ∈ fewer, c ∈ marks) : FreeOf fewer t :=
  fun c hc => ⟨(h c hc).1, fun hmem => (h c hc).2 (hsub c hmem)⟩

theorem FreeOf.append {marks : List Char} {s t : Text} (hs : FreeOf marks s)
    (ht : FreeOf marks t) : FreeOf marks (s ++ t) := by
  intro c hc
  rcases List.mem_append.mp hc with hc | hc
  · exact hs c hc
  · exact ht c hc

theorem FreeOf.cons {marks : List Char} {c : Char} {t : Text} (hblank : isBlank c = false)
    (hc : c ∉ marks) (ht : FreeOf marks t) : FreeOf marks (c :: t) := by
  intro d hd
  rcases List.mem_cons.mp hd with rfl | hd
  · exact ⟨hblank, hc⟩
  · exact ht d hd

theorem freeOf_nil (marks : List Char) : FreeOf marks [] := by
  intro c hc
  cases hc

theorem freeOf_idText {marks : List Char} {id? : Option Text} (hmark : '#' ∉ marks)
    (h : ∀ id ∈ id?, FreeOf marks id) : FreeOf marks (idText id?) := by
  cases id? with
  | none => exact freeOf_nil marks
  | some id => exact FreeOf.cons rfl hmark (h id rfl)

theorem freeOf_classText {marks : List Char} {classes : List Text} (hmark : '.' ∉ marks)
    (h : ∀ word ∈ classes, FreeOf marks word) : FreeOf marks (classText classes) := by
  induction classes with
  | nil => exact freeOf_nil marks
  | cons word classes ih =>
      have hword : FreeOf marks word := h word (by simp)
      have hrest : FreeOf marks (classText classes) := ih fun other ho => h other (by simp [ho])
      exact (FreeOf.cons rfl hmark hword).append hrest

theorem idText_eq_nil_iff (id? : Option Text) : idText id? = [] ↔ id? = none := by
  cases id? <;> simp [idText]

theorem classText_eq_nil_iff (classes : List Text) : classText classes = [] ↔ classes = [] := by
  cases classes <;> simp [classText]

theorem groupText_eq_nil_iff (named : List Attribute) : groupText named = [] ↔ named = [] := by
  cases named <;> simp [groupText]

/-- The part after the name, if there is one, starts with its mark. -/
theorem mem_head?_groupText {c : Char} {named : List Attribute}
    (h : c ∈ (groupText named).head?) : c = '(' := by
  cases named with
  | nil => simp [groupText] at h
  | cons item named => simpa [groupText, eq_comm] using h

theorem mem_head?_classText_append {c : Char} {classes : List Text} {named : List Attribute}
    (h : c ∈ (classText classes ++ groupText named).head?) : c = '.' ∨ c = '(' := by
  cases classes with
  | nil => exact .inr (mem_head?_groupText h)
  | cons word classes => simpa [classText, eq_comm] using Or.inl (b := c = '(') h

theorem mem_head?_idText_append {c : Char} {id? : Option Text} {classes : List Text}
    {named : List Attribute}
    (h : c ∈ (idText id? ++ (classText classes ++ groupText named)).head?) :
    c = '#' ∨ c = '.' ∨ c = '(' := by
  cases id? with
  | none => exact .inr (mem_head?_classText_append h)
  | some id => exact .inl (by simpa [idText, eq_comm] using h)

section Pairs

theorem pair?_pairText {item : Attribute} (hne : item.key ≠ []) (hkey : ':' ∉ item.key) :
    pair? (pairText item) = some (item.key, item.value) := by
  have htake : (pairText item).takeWhile (· != ':') = item.key :=
    takeWhile_bne_append hkey (by simp)
  have hdrop : (pairText item).dropWhile (· != ':') = ':' :: item.value :=
    dropWhile_bne_append hkey (by simp)
  simp [pair?, htake, hdrop, hne]

variable {named : List Attribute} (hkeys : ∀ item ∈ named, FreeOf [':', ')'] item.key)
  (hvalues : ∀ item ∈ named, FreeOf [')'] item.value)

include hkeys hvalues

theorem freeOf_pairText {item : Attribute} (h : item ∈ named) : FreeOf [')'] (pairText item) := by
  have hkey : FreeOf [')'] item.key := (hkeys item h).mono (by simp)
  exact hkey.append (FreeOf.cons (by decide) (by decide) (hvalues item h))

theorem words_pairsText : words (pairsText named) = named.map pairText := by
  apply words_intercalate
  · simp [pairText]
  · rw [List.forall_mem_map]
    intro item hitem c hc
    exact (freeOf_pairText hkeys hvalues hitem c hc).1

theorem eq_space_or_free_of_mem_pairsText {c : Char} (h : c ∈ pairsText named) :
    c = ' ' ∨ isBlank c = false ∧ c ≠ ')' := by
  rcases mem_or_exists_mem_of_mem_intercalate h with hspace | ⟨part, hpart, hc⟩
  · exact .inl (by simpa using hspace)
  · obtain ⟨item, hitem, rfl⟩ := List.mem_map.mp hpart
    exact .inr (by simpa using freeOf_pairText hkeys hvalues hitem c hc)

theorem notMem_pairsText : ')' ∉ pairsText named := by
  intro h
  rcases eq_space_or_free_of_mem_pairsText hkeys hvalues h with heq | hfree
  · exact absurd heq (by decide)
  · exact hfree.2 rfl

theorem groupAfter_groupText : groupAfter false (groupText named) = false := by
  rw [groupText]
  split
  · rfl
  · exact groupAfter_group (notMem_pairsText hkeys hvalues)

/-- The pairs are hidden from every scan. -/
theorem outsideChars_groupText :
    outsideChars false (groupText named) = if named.isEmpty then [] else ['(', ')'] := by
  rw [groupText]
  split
  · rfl
  · exact outsideChars_group (notMem_pairsText hkeys hvalues)

theorem filterMap_pair?_words (hne : ∀ item ∈ named, item.key ≠ []) :
    (words (pairsText named)).filterMap pair? = named.map fun item => (item.key, item.value) := by
  rw [words_pairsText hkeys hvalues, List.filterMap_map, ← List.filterMap_eq_map]
  apply List.filterMap_congr
  intro item hitem
  exact pair?_pairText (hne item hitem) ((hkeys item hitem).notMem (by simp))

end Pairs

namespace Element

/-- What there is to read off the content of an element. -/
def selector (element : Element) : Selector where
  name := element.name
  id? := element.id?
  classes := element.classes
  group := if element.named.isEmpty then .absent else .closed (pairsText element.named)
  body := element.body

variable {element : Element} (h : element.WellFormed)

include h

theorem freeOf_shorthandText : FreeOf ['(', ':'] element.shorthandText := by
  have hname : FreeOf ['(', ':'] element.name := h.name_free.mono (by simp)
  have hid : FreeOf ['(', ':'] (idText element.id?) :=
    freeOf_idText (by decide) fun id hmem => (h.id_free id hmem).mono (by simp)
  have hclasses : FreeOf ['(', ':'] (classText element.classes) :=
    freeOf_classText (by decide) fun word hmem => (h.classes_free word hmem).mono (by simp)
  exact (hname.append hid).append hclasses

theorem outsideChars_head :
    outsideChars false element.head =
      element.shorthandText ++ if element.named.isEmpty then [] else ['(', ')'] := by
  have hopen : '(' ∉ element.shorthandText := (freeOf_shorthandText h).notMem (by simp)
  rw [head, outsideChars_append, outsideChars_of_notMem_open hopen,
    groupAfter_of_notMem_open hopen, outsideChars_groupText h.keys_free h.values_free]

theorem groupAfter_head : groupAfter false element.head = false := by
  have hopen : '(' ∉ element.shorthandText := (freeOf_shorthandText h).notMem (by simp)
  rw [head, groupAfter_append, groupAfter_of_notMem_open hopen,
    groupAfter_groupText h.keys_free h.values_free]

theorem freeOf_outsideChars_head : FreeOf [':'] (outsideChars false element.head) := by
  have hshort : FreeOf [':'] element.shorthandText := (freeOf_shorthandText h).mono (by simp)
  rw [outsideChars_head h]
  split
  · exact hshort.append (freeOf_nil _)
  · exact hshort.append (by decide)

theorem headOf_content : headOf element.content = element.head := by
  have hblank := fun c hc => (freeOf_outsideChars_head h c hc).1
  rw [content]
  split
  · rw [List.append_nil, headOf_self hblank]
  · exact headOf_append_cons hblank element.body (groupAfter_head h) rfl

theorem bodyOf_content : bodyOf element.content = element.body := by
  have hblank := fun c hc => (freeOf_outsideChars_head h c hc).1
  rw [content]
  split
  case isTrue hempty =>
    rw [List.append_nil, bodyOf_self hblank, List.isEmpty_iff.mp hempty]
  case isFalse =>
    rw [bodyOf_append_cons hblank element.body (groupAfter_head h) rfl,
      h.body_oneLine.trim_eq]

theorem nameOf?_head : nameOf? element.head = some element.name := by
  have hname : ∀ c ∈ element.name, isMark c = false := by
    intro c hc
    have hfree := (h.name_free c hc).2
    simpa [isMark, and_assoc] using hfree
  have hhead : element.head = element.name ++
      (idText element.id? ++ (classText element.classes ++ groupText element.named)) := by
    simp [head, shorthandText]
  rw [hhead]
  cases hrest : idText element.id? ++ (classText element.classes ++ groupText element.named) with
  | nil =>
      rw [List.append_eq_nil_iff, List.append_eq_nil_iff, idText_eq_nil_iff,
        classText_eq_nil_iff, groupText_eq_nil_iff] at hrest
      -- Nothing follows the name, so it has to be known as an element's.
      have hbare := h.bare hrest.1 hrest.2.1 hrest.2.2
      rw [List.append_nil, nameOf?_bare hname, if_pos hbare]
  | cons mark rest =>
      have hmark : mark = '#' ∨ mark = '.' ∨ mark = '(' := by
        apply mem_head?_idText_append
        rw [hrest]
        rfl
      apply nameOf?_append_cons rest h.name_ne_nil hname
      rcases hmark with rfl | rfl | rfl <;> rfl

theorem idOf?_head : idOf? element.head = element.id? := by
  have hname : '#' ∉ element.name := h.name_free.notMem (by simp)
  have hopen : '(' ∉ element.name := h.name_free.notMem (by simp)
  cases hid : element.id? with
  | none =>
      have hfree : FreeOf ['#'] (classText element.classes) :=
        freeOf_classText (by decide) fun word hmem => (h.classes_free word hmem).mono (by simp)
      have hclasses : '#' ∉ classText element.classes := hfree.notMem (by simp)
      apply idOf?_eq_none
      rw [outsideChars_head h, shorthandText, hid]
      split <;> simp [idText, hname, hclasses]
  | some id =>
      have hhead : element.head =
          element.name ++
            '#' :: (id ++ (classText element.classes ++ groupText element.named)) := by
        simp [head, shorthandText, hid, idText]
      rw [hhead]
      apply idOf?_append_cons
      · rwa [outsideChars_of_notMem_open hopen]
      · exact groupAfter_of_notMem_open hopen
      · exact h.id_ne_nil id hid
      · intro c hc
        have hfree := (h.id_free id hid c hc).2
        simpa [endsId, and_assoc] using hfree
      · intro c hc
        rcases mem_head?_classText_append hc with rfl | rfl <;> rfl

theorem classesOf_head : classesOf element.head = element.classes := by
  have hopen : '(' ∉ element.name ++ idText element.id? := fun hmem =>
    (freeOf_shorthandText h).notMem (by simp) (List.mem_append_left _ hmem)
  have hdot : '.' ∉ element.name ++ idText element.id? := by
    have hname : FreeOf ['.'] element.name := h.name_free.mono (by simp)
    have hid : FreeOf ['.'] (idText element.id?) :=
      freeOf_idText (by decide) fun id hmem => (h.id_free id hmem).mono (by simp)
    exact (hname.append hid).notMem (by simp)
  have hhead : element.head = element.name ++ idText element.id? ++
      (element.classes.flatMap ('.' :: ·) ++ groupText element.named) := by
    simp [head, shorthandText, classText]
  rw [hhead]
  apply classesOf_append
  · rwa [outsideChars_of_notMem_open hopen]
  · exact groupAfter_of_notMem_open hopen
  · exact h.classes_ne_nil
  · intro word hword c hc
    have hfree := (h.classes_free word hword c hc).2
    simp only [List.mem_cons, List.not_mem_nil, or_false, not_or] at hfree
    simp [endsClass, endsId, hfree]
  · rw [outsideChars_groupText h.keys_free h.values_free]
    split <;> decide
  · intro c hc
    rw [mem_head?_groupText hc]
    rfl

theorem groupOf_head :
    groupOf element.head =
      if element.named.isEmpty then .absent else .closed (pairsText element.named) := by
  have hopen : '(' ∉ element.shorthandText := (freeOf_shorthandText h).notMem (by simp)
  split
  case isTrue hempty =>
    apply groupOf_eq_absent
    rw [outsideChars_head h, if_pos hempty, List.append_nil]
    exact hopen
  case isFalse hnamed =>
    have hhead : element.head =
        element.shorthandText ++ '(' :: (pairsText element.named ++ ')' :: []) := by
      rw [head, groupText, if_neg hnamed]
      rfl
    rw [hhead]
    exact groupOf_append_cons [] hopen (notMem_pairsText h.keys_free h.values_free)

theorem ofContent?_content : ofContent? element.content = some element.selector := by
  rw [ofContent?, headOf_content h, nameOf?_head h, idOf?_head h, classesOf_head h,
    groupOf_head h, bodyOf_content h]
  rfl

theorem filterMap_pair?_groupWords :
    element.selector.groupWords.filterMap pair? =
      element.named.map fun item => (item.key, item.value) := by
  cases hnamed : element.named with
  | nil => simp [groupWords, selector, hnamed]
  | cons item named =>
      have hpairs := filterMap_pair?_words h.keys_free h.values_free h.keys_ne_nil
      simpa [groupWords, selector, hnamed] using hpairs

omit h in
theorem shorthand_selector :
    element.selector.shorthand =
      ⟨element.id?.toList.map (⟨"id".toList, ·⟩) ++
        if element.classes.isEmpty then []
        else [⟨"class".toList, [' '].intercalate element.classes⟩]⟩ := by
  cases hid : element.id? <;> cases hclasses : element.classes <;>
    simp [shorthand, selector, hid, hclasses, Attributes.empty, Attributes.insert,
      Attributes.insertInto]

omit h in
theorem mem_keys_shorthand {key : Text} (hkey : key ∈ element.selector.shorthand.keys) :
    key ∈ ["id".toList, "class".toList] := by
  rw [shorthand_selector, Attributes.keys] at hkey
  cases hid : element.id? <;> cases hclasses : element.classes <;> simp_all

/-- The attributes are the ones that were written, in their order: no key
stands twice, so no insertion replaces anything. -/
theorem attributes_selector : element.selector.attributes = element.attributes := by
  have hkeys : (element.selector.shorthand.keys ++ element.named.map Attribute.key).Nodup := by
    rw [List.nodup_append]
    refine ⟨?_, h.keys_nodup, ?_⟩
    · rw [shorthand_selector, Attributes.keys]
      cases element.id? <;> cases element.classes <;> simp
    · rintro key hshort _ hnamed rfl
      obtain ⟨item, hitem, rfl⟩ := List.mem_map.mp hnamed
      exact h.keys_not_shorthand item hitem (mem_keys_shorthand hshort)
  rw [Selector.attributes, filterMap_pair?_groupWords h, List.foldl_map,
    Attributes.foldl_insert_of_nodup hkeys, shorthand_selector]
  rfl

theorem findings_selector : Selector.findings element.content element.selector = [] := by
  cases hnamed : element.named with
  | nil => simp [Selector.findings, selector, hnamed]
  | cons item named =>
      have hall : ∀ word ∈ words (pairsText element.named), (pair? word).isNone = false := by
        rw [words_pairsText h.keys_free h.values_free, List.forall_mem_map]
        intro item hitem
        rw [pair?_pairText (h.keys_ne_nil item hitem) ((h.keys_free item hitem).notMem (by simp))]
        rfl
      have hfilter : (words (pairsText element.named)).filter (fun word => (pair? word).isNone) =
          [] := by
        rw [List.filter_eq_nil_iff]
        intro word hword
        simp [hall word hword]
      simp only [Selector.findings, selector, hnamed] at hfilter ⊢
      simp [hfilter]

end Element

end IndentMarkup.Template
