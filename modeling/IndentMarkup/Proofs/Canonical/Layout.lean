import IndentMarkup.Compile
import IndentMarkup.Proofs.Canonical.Basic

/-!
Layouts of a document. The same lines can be indented with tabs or with
spaces, some of them a few spaces too far, and stand between pieces of white
space. Main statement: the canonical text does not depend on any of that.
-/

namespace IndentMarkup.Layout

open Text

/-- A line of a document, and how many spaces it stands too far to the right
when it is indented with spaces. -/
structure Item where
  level : Nat
  content : Text
  surplus : Nat := 0
  deriving DecidableEq, Repr

namespace Item

def tabbed (item : Item) : Text := List.replicate item.level '\t' ++ item.content

def spaced (width : Nat) (item : Item) : Text :=
  List.replicate (item.level * width + item.surplus) ' ' ++ item.content

end Item

/-- Pieces that hold these lines in order, each before any number of carriage
returns, and between them nothing but white space. -/
inductive Holds : List Text → List Text → Prop
  | done : Holds [] []
  | blank {lines pieces : List Text} (piece : Text) (hblank : ∀ c ∈ piece, isBlank c = true)
      (hfeed : '\n' ∉ piece) : Holds lines pieces → Holds lines (piece :: pieces)
  | line {lines pieces : List Text} (line : Text) (returns : Nat) :
      Holds lines pieces → Holds (line :: lines) ((line ++ List.replicate returns '\r') :: pieces)

/-- A document whose levels can be told from its spaces. -/
@[mk_iff]
structure Measured (width : Nat) (items : List Item) : Prop where
  width_pos : 0 < width
  content : ∀ item ∈ items, IsContent item.content
  surplus_lt : ∀ item ∈ items, item.surplus < width
  /-- The lines before the first indented one are not indented at all. -/
  flush : ∀ item ∈ items.takeWhile (·.level = 0), item.surplus = 0
  /-- The first indented line shows the width. -/
  first : ∀ item ∈ items.find? (0 < ·.level), item.level = 1 ∧ item.surplus = 0

instance (width : Nat) (items : List Item) : Decidable (Measured width items) :=
  decidable_of_iff _ (measured_iff width items).symm

section Selection

theorem isSignificant_append {content : Text} (front : Text) (h : IsContent content) :
    IsSignificant (front ++ content) := by
  have hlast := List.getLast?_eq_some_getLast h.ne_nil
  constructor
  · exact ⟨content.getLast h.ne_nil, List.mem_append_right _ (List.getLast_mem h.ne_nil),
      h.isBlank_of_mem_getLast? hlast⟩
  · rw [List.getLast?_append_of_ne_nil _ h.ne_nil]
    intro hreturn
    exact absurd (h.isBlank_of_mem_getLast? hreturn) (by decide)

theorem lineFeed_notMem_replicate_append {content : Text} {c : Char} (n : Nat) (hc : c ≠ '\n')
    (h : IsContent content) : '\n' ∉ List.replicate n c ++ content := by
  rw [List.mem_append, not_or]
  exact ⟨fun hmem => hc (List.eq_of_mem_replicate hmem).symm, h.no_lineFeed⟩

variable {lines pieces : List Text}

theorem Holds.lineFeed_notMem (h : Holds lines pieces) (hlines : ∀ line ∈ lines, '\n' ∉ line) :
    ∀ piece ∈ pieces, '\n' ∉ piece := by
  induction h with
  | done => simp
  | blank piece hblank hfeed _ ih => exact List.forall_mem_cons.mpr ⟨hfeed, ih hlines⟩
  | line line returns _ ih =>
      rw [List.forall_mem_cons] at hlines ⊢
      refine ⟨?_, ih hlines.2⟩
      rw [List.mem_append, not_or]
      exact ⟨hlines.1, fun hmem => absurd (List.eq_of_mem_replicate hmem) (by decide)⟩

theorem Holds.selectLines_eq (h : Holds lines pieces)
    (hlines : ∀ line ∈ lines, IsSignificant line) : selectLines pieces = lines := by
  induction h with
  | done => rfl
  | blank piece hblank _ _ ih => rw [selectLines_cons_of_blank _ hblank, ih hlines]
  | line line returns _ ih =>
      rw [List.forall_mem_cons] at hlines
      rw [selectLines_cons_line returns _ hlines.1, ih hlines.2]

/-- Of a text that holds lines of content, these lines are selected. -/
theorem Holds.significantLines_eq {items : List Item} {c : Char} {indentOf : Item → Nat}
    (hc : c ≠ '\n') (hitems : ∀ item ∈ items, IsContent item.content)
    (h : Holds (items.map fun item => List.replicate (indentOf item) c ++ item.content) pieces) :
    significantLines (joinPieces pieces) =
      items.map fun item => List.replicate (indentOf item) c ++ item.content := by
  rw [significantLines_joinPieces, h.selectLines_eq]
  · rw [List.forall_mem_map]
    exact fun item hitem => isSignificant_append _ (hitems item hitem)
  · apply h.lineFeed_notMem
    rw [List.forall_mem_map]
    exact fun item hitem => lineFeed_notMem_replicate_append _ hc (hitems item hitem)

end Selection

section Indentation

variable {width : Nat} {item : Item}

theorem isIndented_content {content : Text} (h : IsContent content) :
    isIndented content = false := by
  have hspace := h.head?_ne (show isBlank ' ' = true from rfl)
  have htab := h.head?_ne (show isBlank '\t' = true from rfl)
  simp [isIndented, hspace, htab]

theorem head?_tabbed_ne (h : IsContent item.content) : item.tabbed.head? ≠ some ' ' := by
  rw [Item.tabbed]
  cases item.level with
  | zero => exact h.head?_ne rfl
  | succ level => simp [List.replicate_succ]

/-- The spaces left over do not make up another level. -/
theorem retab_spaced (hwidth : 0 < width) (h : IsContent item.content)
    (hsurplus : item.surplus < width) : retab width (item.spaced width) = item.tabbed := by
  have hhead : item.content.head? ≠ some ' ' := h.head?_ne rfl
  have hlevel : (item.level * width + item.surplus) / width = item.level := by
    rw [Nat.mul_comm, Nat.mul_add_div hwidth, Nat.div_eq_of_lt hsurplus, Nat.add_zero]
  rw [retab_eq, Item.spaced, countLeading_replicate_append _ hhead,
    dropWhile_replicate_append _ hhead, hlevel]
  rfl

theorem spaced_eq_content (hlevel : item.level = 0) (hsurplus : item.surplus = 0) :
    item.spaced width = item.content := by
  simp [Item.spaced, hlevel, hsurplus]

theorem tabbed_eq_content (hlevel : item.level = 0) : item.tabbed = item.content := by
  simp [Item.tabbed, hlevel]

theorem canonicalLines_map_tabbed {items : List Item}
    (h : ∀ item ∈ items, IsContent item.content) :
    canonicalLines (items.map Item.tabbed) = items.map Item.tabbed := by
  apply canonicalLines_of_tabs
  apply Indentation.ofLines_eq_tabs_of_forall
  rw [List.forall_mem_map]
  exact fun item hitem => head?_tabbed_ne (h item hitem)

namespace Measured

variable {items : List Item} (h : Measured width items)

include h

theorem map_spaced_of_find?_eq_none (hnone : items.find? (0 < ·.level) = none) :
    items.map (Item.spaced width) = items.map Item.tabbed := by
  have hlevel : ∀ item ∈ items, item.level = 0 := by simpa using hnone
  have hflush : items.takeWhile (·.level = 0) = items :=
    List.takeWhile_eq_self_iff.mpr (by simpa using hlevel)
  apply List.map_congr_left
  intro item hitem
  rw [spaced_eq_content (hlevel item hitem) (h.flush item (hflush.symm ▸ hitem)),
    tabbed_eq_content (hlevel item hitem)]

/-- The first indented line starts with one unit of spaces, and the lines
before it are not indented at all. -/
theorem exists_first {first : Item} (hfirst : items.find? (0 < ·.level) = some first) :
    ∃ before after, (∀ line ∈ before, isIndented line = false) ∧
      items.map (Item.spaced width) =
        before ++ (List.replicate width ' ' ++ first.content) :: after := by
  obtain ⟨hdeep, before, after, hitems, hbefore⟩ := List.find?_eq_some_iff_append.mp hfirst
  obtain ⟨hone, hzero⟩ := h.first first hfirst
  have hlevel : ∀ item ∈ before, item.level = 0 := by simpa using hbefore
  have hflush : items.takeWhile (·.level = 0) = before := by
    have hstop : first.level ≠ 0 := by omega
    rw [hitems, List.takeWhile_append_of_pos (by simpa using hlevel),
      List.takeWhile_cons_of_neg (by simpa using hstop), List.append_nil]
  refine ⟨before.map (Item.spaced width), after.map (Item.spaced width), ?_, ?_⟩
  · rw [List.forall_mem_map]
    intro item hitem
    rw [spaced_eq_content (hlevel item hitem) (h.flush item (hflush ▸ hitem))]
    exact isIndented_content (h.content item (hitems ▸ List.mem_append_left _ hitem))
  · rw [hitems, List.map_append, List.map_cons]
    simp [Item.spaced, hone, hzero]

theorem style_and_unitWidth {first : Item} (hfirst : items.find? (0 < ·.level) = some first) :
    Indentation.ofLines (items.map (Item.spaced width)) = .spaces ∧
      unitWidth (items.map (Item.spaced width)) = width := by
  obtain ⟨before, after, hbefore, hlines⟩ := h.exists_first hfirst
  have hcontent := h.content first (List.mem_of_find?_eq_some hfirst)
  have hspace : (List.replicate width ' ' ++ first.content).head? = some ' ' := by
    obtain ⟨n, rfl⟩ := Nat.exists_eq_succ_of_ne_zero h.width_pos.ne'
    rfl
  rw [hlines]
  refine ⟨Indentation.ofLines_append_cons after hbefore hspace, ?_⟩
  rw [unitWidth_append_cons after hbefore hspace,
    countLeading_replicate_append _ (hcontent.head?_ne rfl)]

/-- The spaces of the first indented line are the unit for all lines. Without
such a line there is nothing to rewrite. -/
theorem canonicalLines_map_spaced :
    canonicalLines (items.map (Item.spaced width)) = items.map Item.tabbed := by
  cases hfirst : items.find? (0 < ·.level) with
  | none => rw [h.map_spaced_of_find?_eq_none hfirst, canonicalLines_map_tabbed h.content]
  | some first =>
      obtain ⟨hstyle, hwidth⟩ := h.style_and_unitWidth hfirst
      rw [canonicalLines_of_spaces hstyle, hwidth, List.map_map]
      apply List.map_congr_left
      intro item hitem
      exact retab_spaced h.width_pos (h.content item hitem) (h.surplus_lt item hitem)

end Measured

end Indentation

section Text

variable {width : Nat} {items : List Item} {pieces : List Text}

theorem canonicalize_of_holds_tabbed (h : ∀ item ∈ items, IsContent item.content)
    (hpieces : Holds (items.map Item.tabbed) pieces) :
    canonicalize (joinPieces pieces) = joinPieces (items.map Item.tabbed) := by
  have hlines : significantLines (joinPieces pieces) = items.map Item.tabbed :=
    Holds.significantLines_eq (by decide) h hpieces
  rw [canonicalize, hlines, canonicalLines_map_tabbed h]

theorem canonicalize_of_holds_spaced (h : Measured width items)
    (hpieces : Holds (items.map (Item.spaced width)) pieces) :
    canonicalize (joinPieces pieces) = joinPieces (items.map Item.tabbed) := by
  have hlines : significantLines (joinPieces pieces) = items.map (Item.spaced width) :=
    Holds.significantLines_eq (by decide) h.content hpieces
  rw [canonicalize, hlines, h.canonicalLines_map_spaced]

/-- A document laid out with spaces has the canonical text of the same
document laid out with tabs, and renders to the same under all options. -/
theorem render_spaced_eq_render_tabbed (h : Measured width items) {spaced tabbed : List Text}
    (hspaced : Holds (items.map (Item.spaced width)) spaced)
    (htabbed : Holds (items.map Item.tabbed) tabbed) :
    canonicalize (joinPieces spaced) = canonicalize (joinPieces tabbed) ∧
      ∀ options, render options (joinPieces spaced) = render options (joinPieces tabbed) := by
  have hcanonical : canonicalize (joinPieces spaced) = canonicalize (joinPieces tabbed) := by
    rw [canonicalize_of_holds_spaced h hspaced, canonicalize_of_holds_tabbed h.content htabbed]
  refine ⟨hcanonical, fun options => ?_⟩
  rw [render, render, hcanonical]

/-- Three spaces a level: an indented piece of white space comes first, the
second level is skipped, and later lines stand one or two spaces too far. -/
def skippedLevel : List Item :=
  [⟨0, "ul: li x".toList, 0⟩, ⟨1, "li".toList, 0⟩, ⟨3, "b (y".toList, 2⟩, ⟨0, "p".toList, 1⟩]

def skippedLevelSpaced : Text :=
  "  \t\r\nul: li x\r\r\n   li\n\n           b (y\n p\r".toList

def skippedLevelTabbed : Text := "ul: li x\n\tli\n\t\t\tb (y\r\np\n ".toList

theorem render_spaced_eq_render_tabbed_skippedLevel :
    Measured 3 skippedLevel ∧ canonicalize skippedLevelSpaced = canonicalize skippedLevelTabbed ∧
      ∀ options, render options skippedLevelSpaced = render options skippedLevelTabbed := by
  have hmeasured : Measured 3 skippedLevel := by decide +kernel
  have hindented : ∀ c ∈ "  \t\r".toList, isBlank c = true := List.all_eq_true.mp rfl
  have hspace : ∀ c ∈ [' '], isBlank c = true := List.all_eq_true.mp rfl
  have hspaced : Holds (skippedLevel.map (Item.spaced 3)) _ :=
    .blank _ hindented (by decide) <| .line _ 2 <| .line _ 0 <|
      .blank [] (by simp) (by simp) <| .line _ 0 <| .line _ 1 .done
  have htabbed : Holds (skippedLevel.map Item.tabbed) _ :=
    .line _ 0 <| .line _ 0 <| .line _ 1 <| .line _ 0 <| .blank _ hspace (by decide) .done
  exact ⟨hmeasured, render_spaced_eq_render_tabbed hmeasured hspaced htabbed⟩

end Text

end IndentMarkup.Layout
