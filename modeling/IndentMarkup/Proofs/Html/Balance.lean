import IndentMarkup.Proofs.Compile
import IndentMarkup.Proofs.Html.Tags
import IndentMarkup.Proofs.Selector

/-!
Balance of the written tags. A name that starts with a slash turns its own
start tag into a closing tag, and no other name can do harm: the closing tags
outnumber the opening ones by two for every such name, and without one the
names that are open at a start tag are those of the enclosing lines.
-/

namespace IndentMarkup.Html

/-- The names of the elements among the lines. -/
def names (lines : List Line) : List Text := lines.filterMap (·.tag.name?)

def openNames (stack : List Scope) : List Text := names (stack.map Scope.line)

/-- A tag with this name starts like a closing tag. -/
def IsSlashed (name : Text) : Prop := name.head? = some '/'

instance : DecidablePred IsSlashed := fun name =>
  inferInstanceAs (Decidable (name.head? = some '/'))

/-- The opening tags of the lines that follow `before`, each with the names of
the lines that enclose it. -/
def openingsAfter (before : List Line) : List Line → List Opening
  | [] => []
  | line :: rest =>
    (names [line]).map (fun name => ⟨name, names (line.enclosing before)⟩) ++
      openingsAfter (before ++ [line]) rest

section Names

@[simp] theorem names_nil : names [] = [] := rfl

theorem names_append (lines others : List Line) :
    names (lines ++ others) = names lines ++ names others :=
  List.filterMap_append

theorem names_cons (line : Line) (lines : List Line) :
    names (line :: lines) = names [line] ++ names lines :=
  names_append [line] lines

theorem openNames_append (stack below : List Scope) :
    openNames (stack ++ below) = openNames stack ++ openNames below := by
  rw [openNames, List.map_append, names_append]
  rfl

theorem openNames_closedBy_append_keptBy (line : Line) (stack : List Scope) :
    openNames (closedBy line stack) ++ openNames (keptBy line stack) = openNames stack := by
  rw [← openNames_append, closedBy_append_keptBy]

theorem openNames_enter (stack : List Scope) (line : Line) :
    openNames (enter stack line) = names [line] ++ openNames (keptBy line stack) := by
  rw [openNames, map_line_enter, names_cons]
  rfl

/-- The names that a line leaves open are those of the lines that enclose it. -/
theorem openNames_keptBy_stackAfter (before : List Line) (line : Line) :
    openNames (keptBy line (stackAfter before)) = (names (line.enclosing before)).reverse := by
  rw [openNames, map_line_keptBy_stackAfter]
  exact List.filterMap_reverse

end Names

section Tags

theorem flatMap_tags_lineEnd (stack : List Scope) : (lineEnd stack).flatMap Move.tags = [] := by
  cases stack with
  | nil => rfl
  | cons parent below =>
      rw [lineEnd]
      split <;> rfl

theorem flatMap_tags_finish (closed : List Scope) :
    (closed.map Move.finish).flatMap Move.tags = (openNames closed).map .closing := by
  induction closed with
  | nil => rfl
  | cons scope closed ih =>
      rw [List.map_cons, List.flatMap_cons, ih]
      cases htag : scope.line.tag <;> simp [Move.tags, openNames, names, htag, Tag.name?]

theorem flatMap_tags_walk_cons (stack : List Scope) (line : Line) (lines : List Line) :
    (walk stack (line :: lines)).flatMap Move.tags =
      (openNames (closedBy line stack)).map .closing ++ ((Move.start line).tags ++
        (walk (enter stack line) lines).flatMap Move.tags) := by
  rw [walk, List.flatMap_append, List.flatMap_append, flatMap_tags_finish, flatMap_tags_lineEnd,
    List.append_nil, List.flatMap_cons]

theorem head?_attributesText (line : Line) : ∀ c ∈ (attributesText line).head?, c = ' ' := by
  intro c hc
  rw [attributesText] at hc
  cases hitems : line.attrs.toList with
  | nil => simp [hitems] at hc
  | cons item items =>
      rw [hitems, List.flatMap_cons, attributeText] at hc
      exact (Option.some.inj hc).symm

/-- The start tag of an element opens its name unless the name is slashed. -/
theorem ofInner_startTag (line : Line) {name : Text} (hspace : ' ' ∉ name)
    (hslash : ¬ IsSlashed name) :
    TagMark.ofInner (name ++ attributesText line) = .opening name := by
  have hhead : (name ++ attributesText line).head? ≠ some '/' := by
    cases name with
    | nil =>
        -- An empty name would still be followed by a space.
        intro hslash
        exact absurd (head?_attributesText line '/' hslash) (by decide)
    | cons c name => exact hslash
  have htag := tagName_append _ hspace (head?_attributesText line)
  rw [TagMark.ofInner.eq_def]
  split
  case h_1 hinner =>
    rw [hinner] at hhead
    exact absurd rfl hhead
  case h_2 => rw [htag]

theorem ofInner_startTag_of_isSlashed (line : Line) {name : Text} (hslash : IsSlashed name) :
    ∃ closed, TagMark.ofInner (name ++ attributesText line) = .closing closed := by
  cases name with
  | nil => cases hslash
  | cons c name =>
      obtain rfl : c = '/' := Option.some.inj hslash
      exact ⟨_, rfl⟩

end Tags

section Acceptance

theorem balance_closing (closed below : List Text) (tags : List TagMark) :
    balance (closed ++ below) (closed.map .closing ++ tags) = balance below tags := by
  induction closed with
  | nil => rfl
  | cons name closed ih =>
      rw [List.cons_append, List.map_cons, List.cons_append, balance, if_pos rfl, ih]

theorem balance_start {line : Line} (stack : List Text) (tags : List TagMark)
    (hline : Readable line) (hslash : ∀ name ∈ names [line], ¬ IsSlashed name) :
    balance stack ((Move.start line).tags ++ tags) =
      (balance (names [line] ++ stack) tags).map
        ((names [line]).map (fun name => ⟨name, stack.reverse⟩) ++ ·) := by
  cases htag : line.tag with
  | text => simp [Move.tags, names, htag, Tag.name?]
  | element name =>
      have hname : name ∈ line.tag.name? := by rw [htag]; rfl
      have hnames : names [line] = [name] := by simp [names, htag, Tag.name?]
      have htags : (Move.start line).tags = [.opening name] := by
        have hopening := ofInner_startTag line (hline.unspaced name hname)
          (hslash name (by simp [hnames]))
        simpa [Move.tags, htag, Tag.name?] using hopening
      rw [htags, hnames, List.singleton_append, balance]
      rfl

/-- Without slashed names the walk is balanced, and each start tag stands
inside those of the enclosing lines. -/
theorem balance_walk (before : List Line) {lines : List Line}
    (hlines : ∀ line ∈ lines, Readable line)
    (hslash : ∀ name ∈ names lines, ¬ IsSlashed name) :
    balance (openNames (stackAfter before)) ((walk (stackAfter before) lines).flatMap Move.tags) =
      some (openingsAfter before lines) := by
  -- The names on the checker's stack are those of the open scopes.
  induction lines generalizing before with
  | nil =>
      have hempty := balance_closing (openNames (stackAfter before)) [] []
      rw [List.append_nil, List.append_nil] at hempty
      rw [walk, flatMap_tags_finish, hempty]
      rfl
  | cons line lines ih =>
      rw [names_cons] at hslash
      have hrest := ih (before ++ [line])
        (fun other hother => hlines other (List.mem_cons_of_mem _ hother))
        (fun name hname => hslash name (List.mem_append_right _ hname))
      rw [stackAfter_concat, openNames_enter] at hrest
      rw [flatMap_tags_walk_cons, ← openNames_closedBy_append_keptBy line, balance_closing,
        balance_start _ _ (hlines line List.mem_cons_self)
          (fun name hname => hslash name (List.mem_append_left _ hname)),
        hrest, openNames_keptBy_stackAfter, List.reverse_reverse, Option.map_some, openingsAfter]

end Acceptance

section Counting

def TagMark.isOpening : TagMark → Bool
  | opening _ => true
  | closing _ => false

def TagMark.isClosing : TagMark → Bool
  | opening _ => false
  | closing _ => true

@[simp] theorem countP_isClosing_map_closing (closed : List Text) :
    (closed.map TagMark.closing).countP TagMark.isClosing = closed.length := by
  rw [List.countP_map]
  exact List.countP_eq_length.mpr fun _ _ => rfl

@[simp] theorem countP_isOpening_map_closing (closed : List Text) :
    (closed.map TagMark.closing).countP TagMark.isOpening = 0 := by
  rw [List.countP_map]
  exact List.countP_eq_zero.mpr fun _ _ => Bool.false_ne_true

theorem countP_isClosing_of_balance {stack : List Text} {tags : List TagMark}
    {openings : List Opening} (h : balance stack tags = some openings) :
    tags.countP TagMark.isClosing = tags.countP TagMark.isOpening + stack.length := by
  induction tags generalizing stack openings with
  | nil =>
      cases stack with
      | nil => rfl
      | cons => cases h
  | cons tag tags ih =>
      cases tag with
      | opening name =>
          rw [balance, Option.map_eq_some_iff] at h
          obtain ⟨later, hlater, -⟩ := h
          have hcount := ih hlater
          rw [List.length_cons] at hcount
          rw [List.countP_cons_of_neg (by simp [TagMark.isClosing]),
            List.countP_cons_of_pos (by rfl)]
          omega
      | closing name =>
          cases stack with
          | nil => cases h
          | cons top below =>
              rw [balance] at h
              split at h
              · have hcount := ih h
                rw [List.countP_cons_of_pos (by rfl),
                  List.countP_cons_of_neg (by simp [TagMark.isOpening]), List.length_cons]
                omega
              · cases h

/-- A slashed start tag is a closing tag where an opening one was due. -/
theorem countP_isClosing_start {line : Line} (hline : Readable line) :
    (Move.start line).tags.countP TagMark.isClosing + (names [line]).length =
      (Move.start line).tags.countP TagMark.isOpening +
        2 * (names [line]).countP (IsSlashed ·) := by
  cases htag : line.tag with
  | text => simp [Move.tags, names, htag, Tag.name?]
  | element name =>
      have hname : name ∈ line.tag.name? := by rw [htag]; rfl
      have hnames : names [line] = [name] := by simp [names, htag, Tag.name?]
      have htags : (Move.start line).tags = [.ofInner (name ++ attributesText line)] := by
        simp [Move.tags, htag, Tag.name?]
      rw [htags, hnames]
      by_cases hslash : IsSlashed name
      · obtain ⟨closed, hclosing⟩ := ofInner_startTag_of_isSlashed line hslash
        simp [hclosing, hslash, TagMark.isClosing, TagMark.isOpening]
      · have hopening := ofInner_startTag line (hline.unspaced name hname) hslash
        simp [hopening, hslash, TagMark.isClosing, TagMark.isOpening]

theorem countP_isClosing_walk (stack : List Scope) {lines : List Line}
    (hlines : ∀ line ∈ lines, Readable line) :
    ((walk stack lines).flatMap Move.tags).countP TagMark.isClosing =
      ((walk stack lines).flatMap Move.tags).countP TagMark.isOpening +
        (openNames stack).length + 2 * (names lines).countP (IsSlashed ·) := by
  induction lines generalizing stack with
  | nil =>
      rw [walk, flatMap_tags_finish, countP_isClosing_map_closing, countP_isOpening_map_closing]
      simp
  | cons line lines ih =>
      have hrest := ih (enter stack line)
        fun other hother => hlines other (List.mem_cons_of_mem _ hother)
      have hstart := countP_isClosing_start (hlines line List.mem_cons_self)
      have hstack := congrArg List.length (openNames_closedBy_append_keptBy line stack)
      rw [openNames_enter, List.length_append] at hrest
      rw [List.length_append] at hstack
      -- What is closed leaves the stack as closing tags, and what is entered
      -- will leave it later, opened before or not.
      rw [flatMap_tags_walk_cons, names_cons]
      simp only [List.countP_append, countP_isClosing_map_closing, countP_isOpening_map_closing]
      omega

theorem not_isSlashed_of_balance_walk {lines : List Line} {openings : List Opening}
    (hlines : ∀ line ∈ lines, Readable line)
    (h : balance [] ((walk [] lines).flatMap Move.tags) = some openings) :
    ∀ name ∈ names lines, ¬ IsSlashed name := by
  have hbalanced := countP_isClosing_of_balance h
  have hcounted := countP_isClosing_walk [] hlines
  have hnone : (names lines).countP (IsSlashed ·) = 0 := by
    have hempty : (openNames []).length = 0 := rfl
    rw [List.length_nil] at hbalanced
    omega
  simpa using List.countP_eq_zero.mp hnone

end Counting

/-- The tags of written lines are balanced exactly if no name is slashed. -/
theorem scan_write {indent : Indent} {lines : List Line} (hindent : ∀ c ∈ indent.unit, IsPlain c)
    (hlines : ∀ line ∈ lines, Readable line) :
    scan (write indent lines) =
      if ∀ name ∈ names lines, ¬ IsSlashed name then some (openingsAfter [] lines) else none := by
  rw [scan, readTags_write hindent hlines, Option.bind_some]
  split
  case isTrue hslash => exact balance_walk [] hlines hslash
  case isFalse hslash =>
    cases hbalance : balance [] ((walk [] lines).flatMap Move.tags) with
    | none => rfl
    | some openings => exact absurd (not_isSlashed_of_balance_walk hlines hbalance) hslash

section Render

theorem unspaced_of_mem_parse {canonical : Text} {line : Line}
    (hline : line ∈ (Document.parse canonical).lines) : ∀ name ∈ line.tag.name?, ' ' ∉ name := by
  obtain ⟨part, -, rfl⟩ := List.mem_map.mp hline
  intro name hname hspace
  rw [Line.read] at hname
  split at hname
  case h_1 => cases hname
  case h_2 selector hselector =>
    obtain rfl : selector.name = name := Option.some.inj hname
    exact absurd ((Selector.name_spec hselector).2 ' ' hspace).1 (by decide)

/-- Lines of a raw text without angle brackets are read back as written. -/
theorem readable_of_mem_parse {raw : Text} (hraw : ∀ c ∈ raw, IsPlain c) :
    ∀ line ∈ (Document.parse (canonicalize raw)).lines, Readable line := by
  intro line hline
  have hcanonical : ∀ c ∈ canonicalize raw, IsPlain c := by
    intro c hc
    rcases mem_of_mem_canonicalize hc with rfl | rfl | hmem
    · exact ⟨by decide, by decide⟩
    · exact ⟨by decide, by decide⟩
    · exact hraw c hmem
  have hown : ∀ c ∈ Selector.synthesized, IsPlain c := by
    have hmarks : '<' ∉ Selector.synthesized ∧ '>' ∉ Selector.synthesized := by decide
    exact isPlain_of_notMem hmarks.1 hmarks.2
  exact ⟨Document.within_of_mem_lines hown hcanonical line hline, unspaced_of_mem_parse hline⟩

theorem forall_mem_names_iff (lines : List Line) :
    (∀ name ∈ names lines, ¬ IsSlashed name) ↔
      ∀ line ∈ lines, ∀ name ∈ line.tag.name?, name.head? ≠ some '/' := by
  refine ⟨fun hall line hline name hname => ?_, fun hall name hmem => ?_⟩
  · exact hall name (List.mem_filterMap.mpr ⟨line, hline, hname⟩)
  · obtain ⟨line, hline, hname⟩ := List.mem_filterMap.mp hmem
    exact hall line hline name hname

/-- Rendered text without angle brackets of its own has balanced tags exactly
if no element name starts with a slash, and then the start tag of each element
stands inside those of the elements that enclose its line. -/
theorem scan_render {options : Options} {raw : Text} {compiled : Compiled}
    (hraw : ∀ c ∈ raw, IsPlain c) (hindent : ∀ c ∈ options.indent.unit, IsPlain c)
    (h : render options raw = .ok compiled) :
    ((scan compiled.html).isSome ↔
        ∀ line ∈ (Document.parse (canonicalize raw)).lines, ∀ name ∈ line.tag.name?,
          name.head? ≠ some '/') ∧
      ∀ openings, scan compiled.html = some openings →
        openings = openingsAfter [] (Document.parse (canonicalize raw)).lines := by
  have hscan := scan_write hindent (readable_of_mem_parse hraw)
  rw [eq_of_compile_eq_ok h, hscan, ← forall_mem_names_iff]
  split
  case isTrue hslash =>
    refine ⟨⟨fun _ => hslash, fun _ => rfl⟩, fun openings hopenings => ?_⟩
    exact (Option.some.inj hopenings).symm
  case isFalse hslash =>
    refine ⟨⟨fun hsome => ?_, fun hall => absurd hall hslash⟩, fun openings hopenings => ?_⟩
    · cases hsome
    · cases hopenings

/-- A nested template whose second item holds a text and an inline block. -/
def nestedMenu : Text := "ul.menu\n\tli\n\t\thome page\n\tli#last: b x".toList

theorem scan_render_nestedMenu : ∃ compiled, render {} nestedMenu = .ok compiled ∧
    scan compiled.html = some
      [⟨"ul".toList, []⟩, ⟨"li".toList, ["ul".toList]⟩, ⟨"li".toList, ["ul".toList]⟩,
        ⟨"b".toList, ["ul".toList, "li".toList]⟩] := by
  have hplain : '<' ∉ nestedMenu ∧ '>' ∉ nestedMenu := by decide
  obtain ⟨compiled, hcompiled⟩ : ∃ compiled, render {} nestedMenu = .ok compiled := ⟨_, rfl⟩
  refine ⟨compiled, hcompiled, ?_⟩
  obtain ⟨hbalanced, hopenings⟩ := scan_render (isPlain_of_notMem hplain.1 hplain.2)
    (by simp [Indent.unit, Indent.tab, IsPlain]) hcompiled
  have hnames : ∀ line ∈ (Document.parse (canonicalize nestedMenu)).lines,
      ∀ name ∈ line.tag.name?, name.head? ≠ some '/' := by decide +kernel
  obtain ⟨openings, hscan⟩ := Option.isSome_iff_exists.mp (hbalanced.mpr hnames)
  rw [hscan, hopenings openings hscan]
  decide +kernel

end Render

end IndentMarkup.Html
