import IndentMarkup.Compile
import IndentMarkup.Proofs.Text.Slice

/-!
The stages of a compilation with their slices. Each stage is written once more
with every offset that it computes and every slice that it takes there, and a
slice that is refused stops it. Main statement: the offsets are boundaries of
the texts that are cut at them, whatever characters these hold, so no stage
stops and all give what they give without the check.
-/

namespace IndentMarkup

open Text

namespace Sliced

abbrev Result (α : Type) := Except BadCut α

section Canonical

def retab (width : Nat) (line : Text) : Result Text := do
  let spaces := countLeading ' ' line
  let rest ← sliceFrom spaces line
  return List.replicate (spaces / width) '\t' ++ rest

def canonicalLines (lines : List Text) : Result (List Text) :=
  match Indentation.ofLines lines with
  | .tabs => return lines
  | .spaces =>
    let width := unitWidth lines
    if width = 0 then return lines else lines.mapM (retab width)

def canonicalize (raw : Text) : Result Text := do
  let lines ← canonicalLines (significantLines raw)
  return joinPieces lines

end Canonical

section Outline

def lineOfText? (text : Text) : Result (Option Line) := do
  let level := countLeading '\t' text
  let rest ← sliceFrom level text
  let content := trim rest
  return if content.isEmpty then none else some { level, content }

def outline (canonical : Text) : Result (List Line) := do
  let lines ← canonical.lines.mapM lineOfText?
  return lines.reduceOption

def blockStart? (content : Text) : Result (Option Nat) :=
  match firstOutside? (· == ':') content with
  | none => return none
  | some colon => do
    let rest ← sliceFrom (colon + 1) content
    return if (trim rest).isEmpty then none else some (colon + 1)

def separate (line : Line) : Result (List Line) := do
  match ← blockStart? line.content with
  | none => return [line]
  | some start =>
    let rest ← sliceFrom start line.content
    let front ← truncate start line.content
    return [{ line with content := front }, { level := nextLevel line.level, content := trim rest }]

def separateBlocks (lines : List Line) : Result (List Line) := do
  let parts ← lines.mapM separate
  return parts.flatten

end Outline

section Selector

def nameOf? (head : Text) : Result (Option Text) :=
  match firstOutside? Selector.isMark head with
  | some 0 => return some Selector.defaultName
  | some nameEnd => do
    let name ← sliceTo nameEnd head
    return some name
  | none => return if namesElement head then some head else none

/-- The text from an offset up to the next character that ends it, which is
sought in what stands behind the offset. -/
def partFrom (ends : Char → Bool) (start : Nat) (head : Text) : Result Text := do
  let rest ← sliceFrom start head
  sliceTo (stopOffset ends rest) rest

def idOf? (head : Text) : Result (Option Text) :=
  match firstOutside? (· == '#') head with
  | none => return none
  | some mark => do
    let id ← partFrom Selector.endsId (mark + 1) head
    return if id.isEmpty then none else some id

def classesOf (head : Text) : Result (List Text) := do
  let dots := (outsideGroups head).filter (·.2 == '.')
  let parts ← dots.mapM fun dot => partFrom Selector.endsClass (dot.1 + 1) head
  return parts.filter (!·.isEmpty)

def groupOf (head : Text) : Result AttributeGroup :=
  match firstOutside? (· == '(') head with
  | none => return .absent
  | some mark => do
    let rest ← sliceFrom (mark + 1) head
    match offset? (· == ')') rest with
    | none => return .unclosed
    | some length =>
      let inner ← slice (mark + 1) (mark + 1 + length) head
      return .closed inner

def ofContent? (content : Text) : Result (Option Selector) := do
  let head ← sliceTo (Selector.headEnd content) content
  match ← nameOf? head with
  | none => return none
  | some name =>
    let id? ← idOf? head
    let classes ← classesOf head
    let group ← groupOf head
    let rest ← sliceFrom (Selector.headEnd content) content
    return some { name, id?, classes, group, body := trim rest }

end Selector

section Document

def readAfter (found : List Diagnostic) (line : Line) : Result (Line × List Diagnostic) := do
  match ← ofContent? line.content with
  | none => return ({ line with tag := .text, attrs := .empty, body := [] }, found)
  | some selector =>
    return ({ line with
      tag := .element selector.name, attrs := selector.attributes, body := selector.body },
      found ++ selector.findings line.content)

def readLinesAfter (previous : Option Nat) (found : List Diagnostic) :
    List Line → Result Document
  | [] => return ⟨[], found⟩
  | line :: rest => do
    let jump := (jumpAfter? previous line).toList.map .depthJump
    let (read, found) ← readAfter (found ++ jump) line
    let document ← readLinesAfter (some line.level) found rest
    return { document with lines := read :: document.lines }

def parse (canonical : Text) : Result Document := do
  let lines ← outline canonical
  let parts ← separateBlocks lines
  readLinesAfter none [] parts

def render (options : Options) (raw : Text) : Result (Except CompileError Compiled) := do
  let canonical ← canonicalize raw
  let document ← parse canonical
  return match refusal? options document with
    | some error => .error error
    | none => .ok ⟨Html.write options.indent document.lines, document.diagnostics⟩

end Document

@[simp] theorem ok_bind {α β : Type} (value : α) (next : α → Result β) :
    ((.ok value : Result α) >>= next) = next value := rfl

@[simp] theorem pure_eq_ok {α : Type} (value : α) : (pure value : Result α) = .ok value := rfl

theorem mapM_eq_ok {α β : Type} {f : α → Result β} {g : α → β} {items : List α}
    (h : ∀ item ∈ items, f item = .ok (g item)) : items.mapM f = .ok (items.map g) := by
  induction items with
  | nil => rfl
  | cons item items ih =>
      have hrest := ih fun other hother => h other (List.mem_cons_of_mem _ hother)
      rw [List.mapM_cons, h item List.mem_cons_self, ok_bind, hrest, ok_bind, pure_eq_ok,
        List.map_cons]

section Canonical

theorem retab_eq_ok (width : Nat) (line : Text) :
    retab width line = .ok (IndentMarkup.retab width line) := by
  rw [retab, (isBoundary_countLeading (c := ' ') rfl line).sliceFrom_eq]
  rfl

theorem canonicalLines_eq_ok (lines : List Text) :
    canonicalLines lines = .ok (IndentMarkup.canonicalLines lines) := by
  rw [canonicalLines, IndentMarkup.canonicalLines]
  cases Indentation.ofLines lines with
  | tabs => rfl
  | spaces =>
      dsimp only
      split
      case isTrue => rfl
      case isFalse => exact mapM_eq_ok fun line _ => retab_eq_ok _ line

theorem canonicalize_eq_ok (raw : Text) :
    canonicalize raw = .ok (IndentMarkup.canonicalize raw) := by
  rw [canonicalize, canonicalLines_eq_ok]
  rfl

end Canonical

section Outline

theorem lineOfText?_eq_ok (text : Text) : lineOfText? text = .ok (Line.ofText? text) := by
  rw [lineOfText?, (isBoundary_countLeading (c := '\t') rfl text).sliceFrom_eq]
  rfl

theorem outline_eq_ok (canonical : Text) :
    outline canonical = .ok (IndentMarkup.outline canonical) := by
  have hreduce : (canonical.lines.map Line.ofText?).reduceOption =
      IndentMarkup.outline canonical := List.filterMap_map
  rw [outline, mapM_eq_ok fun text _ => lineOfText?_eq_ok text, ok_bind, pure_eq_ok, hreduce]

theorem blockStart?_eq_ok (content : Text) :
    blockStart? content = .ok (Line.inlineBlockStart? content) := by
  rw [blockStart?, Line.inlineBlockStart?]
  cases hcolon : firstOutside? (· == ':') content with
  | none => rfl
  | some colon =>
      have hstart : IsBoundary (colon + 1) content := isBoundary_of_firstOutside?_beq hcolon
      simp only [hstart.sliceFrom_eq, ok_bind, pure_eq_ok, Option.map_some, Option.filter]
      by_cases hrest : trim (dropBytes (colon + 1) content) = [] <;> simp [hrest]

theorem isBoundary_of_inlineBlockStart? {content : Text} {start : Nat}
    (h : Line.inlineBlockStart? content = some start) : IsBoundary start content := by
  rw [Line.inlineBlockStart?, Option.filter_eq_some_iff] at h
  obtain ⟨colon, hcolon, rfl⟩ := Option.map_eq_some_iff.mp h.1
  exact isBoundary_of_firstOutside?_beq hcolon

theorem separate_eq_ok (line : Line) : separate line = .ok line.separate := by
  rw [separate, blockStart?_eq_ok, ok_bind, Line.separate, Line.inlineBlock?]
  cases hstart : Line.inlineBlockStart? line.content with
  | none => rfl
  | some start =>
      have hcut := isBoundary_of_inlineBlockStart? hstart
      simp only [hcut.sliceFrom_eq, hcut.truncate_eq, ok_bind, pure_eq_ok, Option.map_some]

theorem separateBlocks_eq_ok (lines : List Line) :
    separateBlocks lines = .ok (IndentMarkup.separateBlocks lines) := by
  rw [separateBlocks, mapM_eq_ok fun line _ => separate_eq_ok line]
  rfl

end Outline

section Selector

theorem isBoundary_headEnd (content : Text) : IsBoundary (Selector.headEnd content) content := by
  rw [Selector.headEnd]
  cases hblank : firstOutside? isBlank content with
  | none => exact isBoundary_byteLength content
  | some n => exact isBoundary_of_firstOutside? hblank

theorem nameOf?_eq_ok (head : Text) : nameOf? head = .ok (Selector.nameOf? head) := by
  rw [nameOf?, Selector.nameOf?]
  cases hmark : firstOutside? Selector.isMark head with
  | none => rfl
  | some nameEnd =>
      cases nameEnd with
      | zero => rfl
      | succ n =>
          simp only [(isBoundary_of_firstOutside? hmark).sliceTo_eq, ok_bind, pure_eq_ok]

theorem isBoundary_stopOffset (ends : Char → Bool) (rest : Text) :
    IsBoundary (stopOffset ends rest) rest := by
  rw [stopOffset_eq]
  exact isBoundary_takeWhile _ rest

theorem partFrom_eq_ok (ends : Char → Bool) {start : Nat} {head : Text}
    (h : IsBoundary start head) :
    partFrom ends start head = .ok (Selector.partFrom ends start head) := by
  rw [partFrom, h.sliceFrom_eq, ok_bind, (isBoundary_stopOffset ends _).sliceTo_eq, stopOffset_eq,
    takeBytes_takeWhile, Selector.partFrom]

theorem idOf?_eq_ok (head : Text) : idOf? head = .ok (Selector.idOf? head) := by
  rw [idOf?, Selector.idOf?]
  cases hmark : firstOutside? (· == '#') head with
  | none => rfl
  | some mark =>
      have hstart : IsBoundary (mark + 1) head := isBoundary_of_firstOutside?_beq hmark
      simp only [partFrom_eq_ok _ hstart, ok_bind, pure_eq_ok, Option.map_some, Option.filter]
      by_cases hid : Selector.partFrom Selector.endsId (mark + 1) head = [] <;> simp [hid]

theorem classesOf_eq_ok (head : Text) : classesOf head = .ok (Selector.classesOf head) := by
  have hparts : ∀ dot ∈ (outsideGroups head).filter (·.2 == '.'),
      partFrom Selector.endsClass (dot.1 + 1) head =
        .ok (Selector.partFrom Selector.endsClass (dot.1 + 1) head) := by
    rintro ⟨n, c⟩ hdot
    obtain ⟨hmem, hc⟩ := List.mem_filter.mp hdot
    obtain rfl : c = '.' := eq_of_beq hc
    exact partFrom_eq_ok _ (isBoundary_of_mem_outsideGroups hmem)
  simp only [classesOf, mapM_eq_ok hparts, ok_bind, pure_eq_ok]
  rfl

theorem groupOf_eq_ok (head : Text) : groupOf head = .ok (Selector.groupOf head) := by
  rw [groupOf, Selector.groupOf]
  cases hmark : firstOutside? (· == '(') head with
  | none => rfl
  | some mark =>
      have hstart : IsBoundary (mark + 1) head := isBoundary_of_firstOutside?_beq hmark
      simp only [hstart.sliceFrom_eq, ok_bind, offset?_eq, List.any_beq']
      cases (dropBytes (mark + 1) head).contains ')' with
      | false => rfl
      | true =>
          have hinner := hstart.slice_eq (isBoundary_takeWhile (· != ')') _)
          rw [takeBytes_takeWhile] at hinner
          exact congrArg (· >>= fun inner => pure (AttributeGroup.closed inner)) hinner

theorem ofContent?_eq_ok (content : Text) :
    ofContent? content = .ok (Selector.ofContent? content) := by
  have hhead := isBoundary_headEnd content
  have hname : takeBytes (Selector.headEnd content) content = Selector.headOf content := rfl
  rw [ofContent?, hhead.sliceTo_eq, ok_bind, hname, nameOf?_eq_ok, ok_bind, Selector.ofContent?]
  cases Selector.nameOf? (Selector.headOf content) with
  | none => rfl
  | some name =>
      simp only [idOf?_eq_ok, classesOf_eq_ok, groupOf_eq_ok, hhead.sliceFrom_eq, ok_bind,
        pure_eq_ok, Option.map_some, Selector.bodyOf]

end Selector

section Document

theorem readAfter_eq_ok (found : List Diagnostic) (line : Line) :
    readAfter found line = .ok (line.readAfter found) := by
  rw [readAfter, ofContent?_eq_ok, ok_bind, Line.readAfter, Line.read, Line.findings]
  cases Selector.ofContent? line.content with
  | none => rw [List.append_nil]; rfl
  | some selector => rfl

theorem readLinesAfter_eq_ok (previous : Option Nat) (found : List Diagnostic)
    (lines : List Line) :
    readLinesAfter previous found lines =
      .ok ⟨lines.map Line.read, found ++ Document.diagnosticsAfter previous lines⟩ := by
  induction lines generalizing previous found with
  | nil => rw [Document.diagnosticsAfter, List.append_nil]; rfl
  | cons line lines ih =>
      rw [readLinesAfter, readAfter_eq_ok, ok_bind, Line.readAfter]
      simp only [ih, ok_bind, pure_eq_ok, Document.diagnosticsAfter, List.append_assoc,
        List.map_cons]

theorem parse_eq_ok (canonical : Text) : parse canonical = .ok (Document.parse canonical) := by
  rw [parse, outline_eq_ok, ok_bind, separateBlocks_eq_ok, ok_bind, readLinesAfter_eq_ok,
    List.nil_append]
  rfl

theorem render_eq_ok (options : Options) (raw : Text) :
    render options raw = .ok (IndentMarkup.render options raw) := by
  rw [render, canonicalize_eq_ok, ok_bind, parse_eq_ok, ok_bind, pure_eq_ok]
  rfl

end Document

/-- The places at which the stages cut a text. -/
inductive CutAt : Text → Nat → Prop
  /-- Behind the leading spaces of a line that is indented anew. -/
  | spaces (line : Text) : CutAt line (countLeading ' ' line)
  /-- Behind the leading tabs of a canonical line. -/
  | tabs (line : Text) : CutAt line (countLeading '\t' line)
  /-- Behind the colon that may start an inline block. -/
  | block {content : Text} {colon : Nat} (h : firstOutside? (· == ':') content = some colon) :
      CutAt content (colon + 1)
  | headEnd (content : Text) : CutAt content (Selector.headEnd content)
  | nameEnd {head : Text} {mark : Nat} (h : firstOutside? Selector.isMark head = some mark) :
      CutAt head mark
  | id {head : Text} {mark : Nat} (h : firstOutside? (· == '#') head = some mark) :
      CutAt head (mark + 1)
  | idEnd {head : Text} {mark : Nat} (h : firstOutside? (· == '#') head = some mark) :
      CutAt (dropBytes (mark + 1) head)
        (stopOffset Selector.endsId (dropBytes (mark + 1) head))
  | classWord {head : Text} {dot : Nat} (h : (dot, '.') ∈ outsideGroups head) :
      CutAt head (dot + 1)
  | classEnd {head : Text} {dot : Nat} (h : (dot, '.') ∈ outsideGroups head) :
      CutAt (dropBytes (dot + 1) head)
        (stopOffset Selector.endsClass (dropBytes (dot + 1) head))
  | group {head : Text} {mark : Nat} (h : firstOutside? (· == '(') head = some mark) :
      CutAt head (mark + 1)
  | groupEnd {head : Text} {mark length : Nat} (h : firstOutside? (· == '(') head = some mark)
      (hclose : offset? (· == ')') (dropBytes (mark + 1) head) = some length) :
      CutAt head (mark + 1 + length)

theorem CutAt.isBoundary {text : Text} {n : Nat} (h : CutAt text n) : IsBoundary n text := by
  cases h with
  | spaces => exact isBoundary_countLeading rfl _
  | tabs => exact isBoundary_countLeading rfl _
  | block h => exact isBoundary_of_firstOutside?_beq h
  | headEnd => exact isBoundary_headEnd _
  | nameEnd h => exact isBoundary_of_firstOutside? h
  | id h => exact isBoundary_of_firstOutside?_beq h
  | idEnd => exact isBoundary_stopOffset _ _
  | classWord h => exact isBoundary_of_mem_outsideGroups h
  | classEnd => exact isBoundary_stopOffset _ _
  | group h => exact isBoundary_of_firstOutside?_beq h
  | groupEnd h hclose =>
      have hstart : IsBoundary _ text := isBoundary_of_firstOutside?_beq h
      exact hstart.add (isBoundary_of_offset? hclose)

/-- Every place at which a text is cut is within the text and between two of
its characters. So no slice is refused, in any stage and for any text or lines
that it may be given. -/
theorem stages_cut_at_boundaries :
    (∀ text n, CutAt text n → n ≤ byteLength text ∧ IsBoundary n text) ∧
      (∀ raw, canonicalize raw = .ok (IndentMarkup.canonicalize raw)) ∧
      (∀ canonical, outline canonical = .ok (IndentMarkup.outline canonical)) ∧
      (∀ lines, separateBlocks lines = .ok (IndentMarkup.separateBlocks lines)) ∧
      (∀ found line, readAfter found line = .ok (line.readAfter found)) ∧
      (∀ canonical, parse canonical = .ok (Document.parse canonical)) ∧
      ∀ options raw, render options raw = .ok (IndentMarkup.render options raw) := by
  refine ⟨fun text n hcut => ?_, canonicalize_eq_ok, outline_eq_ok, separateBlocks_eq_ok,
    readAfter_eq_ok, parse_eq_ok, render_eq_ok⟩
  exact ⟨hcut.isBoundary.le_byteLength, hcut.isBoundary⟩

/-- Letters of two bytes on both sides of every mark, and a block behind a
white space of two bytes. -/
def accentedMenu : Text := "é#ü.ö(ä:ß) x:\u00a0ñ".toList

theorem stages_cut_at_boundaries_accentedMenu :
    (18 ≤ byteLength accentedMenu ∧ IsBoundary 18 accentedMenu) ∧
      IsBoundary 14 (Selector.headOf accentedMenu) ∧
      sliceFrom 19 accentedMenu = .error ⟨accentedMenu, 19⟩ ∧
      render { strict := true } accentedMenu =
        .ok (.ok ⟨"<é id=\"ü\" class=\"ö\" ä=\"ß\">x:\n\tñ\n</é>\n".toList, []⟩) := by
  have hblock : CutAt accentedMenu 18 := .block (by decide +kernel)
  have hgroup : CutAt (Selector.headOf accentedMenu) (8 + 1 + 5) :=
    .groupEnd (by decide +kernel) (by decide +kernel)
  obtain ⟨hcuts, -, -, -, -, -, hrender⟩ := stages_cut_at_boundaries
  refine ⟨hcuts _ _ hblock, (hcuts _ _ hgroup).2, by decide +kernel, ?_⟩
  exact (hrender _ _).trans (congrArg Except.ok (by decide +kernel))

end Sliced

end IndentMarkup
