import IndentMarkup.Proofs.Attributes
import IndentMarkup.Proofs.Selector.Characters
import IndentMarkup.Proofs.Template.Basic

/-!
The attributes of an element and the warnings about them. Each word of the
group is a pair or is malformed; the pairs come behind the attributes that `#`
and `.` stand for and replace their values, and there is one warning for each
malformed word. Main statement: nothing else is stored or reported, unless the
group is never closed.
-/

namespace IndentMarkup

open Text
open Template (FreeOf)

namespace Selector

section Words

/-- No name stands before a first colon. -/
def Malformed (word : Text) : Prop := ':' ∉ word ∨ word.head? = some ':'

instance : DecidablePred Malformed := fun _ => inferInstanceAs (Decidable (_ ∨ _))

/-- What stands before the first colon. -/
def nameIn (word : Text) : Text := word.takeWhile (· != ':')

/-- What stands behind the first colon. -/
def valueIn (word : Text) : Text := (word.dropWhile (· != ':')).tail

theorem pair?_eq (word : Text) :
    pair? word = if Malformed word then none else some (nameIn word, valueIn word) := by
  cases word with
  | nil => rfl
  | cons c rest =>
      by_cases hc : c = ':'
      · simp [pair?, Malformed, hc]
      · have hhead : (c :: rest).head? ≠ some ':' := by simpa using hc
        by_cases hcolon : ':' ∈ rest
        · have hne : rest.dropWhile (· != ':') ≠ [] := by
            rw [ne_eq, List.dropWhile_eq_nil_iff]
            exact fun hall => absurd (hall ':' hcolon) (by decide)
          obtain ⟨mark, value, hrest⟩ := List.exists_cons_of_ne_nil hne
          simp [pair?, Malformed, nameIn, valueIn, hc, hcolon, hrest]
        · have hnil : rest.dropWhile (· != ':') = [] := by
            rw [List.dropWhile_eq_nil_iff]
            exact fun d hd => bne_iff_ne.mpr (ne_of_mem_of_not_mem hd hcolon)
          simp [pair?, Malformed, hc, Ne.symm hc, hcolon, hnil]

theorem filterMap_pair? (words : List Text) :
    words.filterMap pair? =
      (words.filter (¬ Malformed ·)).map fun word => (nameIn word, valueIn word) := by
  induction words with
  | nil => rfl
  | cons word words ih =>
      rw [List.filterMap_cons, pair?_eq]
      by_cases h : Malformed word <;> simp [h, ih]

theorem filter_isNone_pair? (words : List Text) :
    words.filter (fun word => (pair? word).isNone) = words.filter Malformed := by
  congr 1
  funext word
  rw [pair?_eq]
  by_cases h : Malformed word <;> simp [h]

end Words

section Group

/-- The first group of the head holds this text. -/
def HoldsGroup (content inner : Text) : Prop :=
  ∃ before after, content = before ++ '(' :: (inner ++ ')' :: after) ∧
    FreeOf ['('] before ∧ ')' ∉ inner

/-- The first group of the head has no end in the whole content. -/
def LeavesOpen (content : Text) : Prop :=
  ∃ before after, content = before ++ '(' :: after ∧ FreeOf ['('] before ∧ ')' ∉ after

section First

variable {before : Text} (after : Text) (h : FreeOf ['('] before)

include h

theorem scan_before_open : '(' ∉ before ∧
    (∀ c ∈ outsideChars false before, isBlank c = false) ∧ groupAfter false before = false := by
  have hopen : '(' ∉ before := fun hmem => (h _ hmem).2 (List.mem_singleton_self _)
  refine ⟨hopen, ?_, groupAfter_of_notMem_open hopen⟩
  rw [outsideChars_of_notMem_open hopen]
  exact fun c hc => (h c hc).1

/-- White space in a group does not end the head. -/
theorem headOf_append_open :
    headOf (before ++ '(' :: after) = before ++ '(' :: beforeMark isBlank true after := by
  obtain ⟨-, hblank, hgroup⟩ := scan_before_open h
  rw [headOf_eq, beforeMark_append hblank, hgroup]
  rfl

theorem groupOf_headOf_append_open :
    groupOf (headOf (before ++ '(' :: after)) = groupBehind (beforeMark isBlank true after) := by
  obtain ⟨hopen, -, hgroup⟩ := scan_before_open h
  have hfirst : ∀ c ∈ outsideChars false before, (c == '(') = false := by
    rw [outsideChars_of_notMem_open hopen]
    exact fun c hc => beq_eq_false_iff_ne.mpr (ne_of_mem_of_not_mem hc hopen)
  rw [headOf_append_open after h, groupOf_eq, behindMark?_append_cons hfirst hgroup rfl]
  rfl

end First

theorem groupOf_of_holdsGroup {content inner : Text} (h : HoldsGroup content inner) :
    groupOf (headOf content) = .closed inner := by
  obtain ⟨before, after, rfl, hbefore, hinner⟩ := h
  have hblank : ∀ c ∈ outsideChars true inner, isBlank c = false := by
    simp [outsideChars_of_notMem_close hinner]
  have hend : beforeMark isBlank true (')' :: after) = ')' :: beforeMark isBlank false after := rfl
  have htake : (inner ++ ')' :: beforeMark isBlank false after).takeWhile (· != ')') = inner :=
    takeWhile_bne_append hinner (by simp)
  rw [groupOf_headOf_append_open _ hbefore, beforeMark_append hblank,
    groupAfter_of_notMem_close hinner, hend, groupBehind, htake]
  simp

theorem groupOf_of_leavesOpen {content : Text} (h : LeavesOpen content) :
    groupOf (headOf content) = .unclosed := by
  obtain ⟨before, after, rfl, hbefore, hafter⟩ := h
  have hblank : ∀ c ∈ outsideChars true after, isBlank c = false := by
    simp [outsideChars_of_notMem_close hafter]
  rw [groupOf_headOf_append_open _ hbefore, beforeMark_eq_self hblank, groupBehind]
  simp [hafter]

/-- The whole rest of the content stands in the open group. -/
theorem bodyOf_of_leavesOpen {content : Text} (h : LeavesOpen content) : bodyOf content = [] := by
  obtain ⟨before, after, rfl, hbefore, hafter⟩ := h
  obtain ⟨-, hblank, hgroup⟩ := scan_before_open hbefore
  have hopen : behindMark? isBlank false ('(' :: after) = behindMark? isBlank true after := rfl
  rw [bodyOf_eq, behindMark?_append hblank, hgroup, hopen,
    behindMark?_eq_none (by simp [outsideChars_of_notMem_close hafter]), Option.getD_none, trim_nil]

theorem group_cases (content : Text) :
    groupOf (headOf content) = .absent ∨ (∃ inner, HoldsGroup content inner) ∨
      LeavesOpen content := by
  by_cases hmem : '(' ∈ headOf content
  · right
    obtain ⟨before, inHead, hhead, hopen⟩ := List.eq_append_cons_of_mem hmem
    have hseen : ∀ c ∈ outsideChars false (headOf content), isBlank c = false :=
      fun c => isBlank_of_mem_outsideChars_headOf
    rw [hhead, outsideChars_append, outsideChars_of_notMem_open hopen] at hseen
    have hbefore : FreeOf ['('] before := by
      intro c hc
      refine ⟨hseen c (List.mem_append_left _ hc), ?_⟩
      rw [List.mem_singleton]
      exact ne_of_mem_of_not_mem hc hopen
    obtain ⟨after, hcontent⟩ : ∃ after, content = before ++ '(' :: after :=
      ⟨inHead ++ dropBytes (headEnd content) content, by
        rw [← List.cons_append, ← List.append_assoc, ← hhead, headOf, takeBytes_append_dropBytes]⟩
    by_cases hclose : ')' ∈ after
    · obtain ⟨inner, rest, rfl, hinner⟩ := List.eq_append_cons_of_mem hclose
      exact .inl ⟨inner, before, rest, hcontent, hbefore, hinner⟩
    · exact .inr ⟨before, after, hcontent, hbefore, hclose⟩
  · left
    apply groupOf_eq_absent
    rwa [outsideChars_of_notMem_open hmem]

theorem groupOf_eq_unclosed_iff (content : Text) :
    groupOf (headOf content) = .unclosed ↔ LeavesOpen content := by
  refine ⟨fun hgroup => ?_, groupOf_of_leavesOpen⟩
  obtain habsent | ⟨inner, hholds⟩ | hopen := group_cases content
  · rw [habsent] at hgroup
    cases hgroup
  · rw [groupOf_of_holdsGroup hholds] at hgroup
    cases hgroup
  · exact hopen

theorem groupOf_eq_closed_iff (content inner : Text) :
    groupOf (headOf content) = .closed inner ↔ HoldsGroup content inner := by
  refine ⟨fun hgroup => ?_, groupOf_of_holdsGroup⟩
  obtain habsent | ⟨other, hholds⟩ | hopen := group_cases content
  · rw [habsent] at hgroup
    cases hgroup
  · rw [groupOf_of_holdsGroup hholds] at hgroup
    rwa [← AttributeGroup.closed.inj hgroup]
  · rw [groupOf_of_leavesOpen hopen] at hgroup
    cases hgroup

theorem not_holdsGroup_of_leavesOpen {content : Text} (h : LeavesOpen content) (inner : Text) :
    ¬ HoldsGroup content inner := by
  intro hholds
  have hgroup := groupOf_of_holdsGroup hholds
  rw [groupOf_of_leavesOpen h] at hgroup
  cases hgroup

end Group

section Assembly

/-- The words of the group that are pairs of a name and a value. -/
def pairWords (selector : Selector) : List Text := selector.groupWords.filter (¬ Malformed ·)

/-- The keys of the attributes that `#` and `.` stand for. -/
def shorthandKeys (selector : Selector) : List Text :=
  selector.id?.toList.map (fun _ => "id".toList) ++
    if selector.classes = [] then [] else ["class".toList]

def shorthandValue? (selector : Selector) (key : Text) : Option Text :=
  if key = "id".toList then selector.id?
  else if key = "class".toList ∧ selector.classes ≠ [] then
    some ([' '].intercalate selector.classes)
  else none

variable (selector : Selector)

theorem toList_shorthand :
    selector.shorthand.toList =
      selector.id?.toList.map (⟨"id".toList, ·⟩) ++
        if selector.classes = [] then []
        else [⟨"class".toList, [' '].intercalate selector.classes⟩] := by
  cases hid : selector.id? <;> cases hclasses : selector.classes <;>
    simp [shorthand, hid, hclasses, Attributes.empty, Attributes.insert, Attributes.insertInto]

theorem keys_shorthand : selector.shorthand.keys = selector.shorthandKeys := by
  rw [Attributes.keys, toList_shorthand, shorthandKeys, List.map_append, List.map_map]
  split <;> rfl

theorem get?_shorthand (key : Text) :
    selector.shorthand.get? key = selector.shorthandValue? key := by
  have hne : "class".toList ≠ "id".toList := by decide
  rw [Attributes.get?, toList_shorthand, shorthandValue?]
  -- Only that the two keys differ matters, not how they are spelled.
  generalize "id".toList = idKey at hne ⊢
  generalize "class".toList = classKey at hne ⊢
  by_cases hid : key = idKey
  · subst hid
    cases selector.id? with
    | none => split <;> simp [hne]
    | some id => simp
  · have hskip : (selector.id?.toList.map fun value => (⟨idKey, value⟩ : Attribute)).find?
        (·.key = key) = none := by
      cases selector.id? <;> simp [Ne.symm hid]
    rw [List.find?_append, hskip, Option.none_or, if_neg hid]
    by_cases hkey : key = classKey
    · split <;> simp_all
    · split <;> simp [hkey, Ne.symm hkey]

theorem attributes_eq :
    selector.attributes =
      (selector.pairWords.map fun word => (nameIn word, valueIn word)).foldl
        (fun attrs pair => attrs.insert pair.1 pair.2) selector.shorthand := by
  rw [attributes, filterMap_pair?]
  rfl

theorem get?_attributes (key : Text) :
    selector.attributes.get? key =
      ((selector.pairWords.reverse.find? (nameIn · = key)).map valueIn).or
        (selector.shorthandValue? key) := by
  rw [attributes_eq, Attributes.get?_foldl_insert, get?_shorthand, ← List.map_reverse,
    List.find?_map, Option.map_map]
  rfl

theorem keys_attributes :
    selector.attributes.keys =
      selector.shorthandKeys ++
        ((selector.pairWords.map nameIn).filter (· ∉ selector.shorthandKeys)).eraseDups := by
  rw [attributes_eq, Attributes.keys_foldl_insert, keys_shorthand, List.map_map]
  rfl

end Assembly

section Line

variable {content : Text} {selector : Selector} (h : ofContent? content = some selector)

include h

theorem group_of_ofContent? : selector.group = groupOf (headOf content) := by
  rw [ofContent?, Option.map_eq_some_iff] at h
  obtain ⟨name, -, rfl⟩ := h
  rfl

theorem body_of_ofContent? : selector.body = bodyOf content := by
  rw [ofContent?, Option.map_eq_some_iff] at h
  obtain ⟨name, -, rfl⟩ := h
  rfl

theorem groupWords_of_holdsGroup {inner : Text} (hholds : HoldsGroup content inner) :
    selector.groupWords = inner.words := by
  rw [groupWords, group_of_ofContent? h, groupOf_of_holdsGroup hholds]

theorem groupWords_eq_nil (hnone : ∀ inner, ¬ HoldsGroup content inner) :
    selector.groupWords = [] := by
  rw [groupWords, group_of_ofContent? h]
  split
  case h_1 inner hgroup =>
    exact absurd ((groupOf_eq_closed_iff content inner).mp hgroup) (hnone inner)
  case h_2 => rfl

theorem findings_of_closed (hclosed : ¬ LeavesOpen content) :
    findings content selector =
      (selector.groupWords.filter Malformed).map (.unresolvedAttribute · content) := by
  have hgroup := group_of_ofContent? h
  rw [findings, groupWords]
  cases hcase : selector.group with
  | absent => rfl
  | unclosed =>
      rw [hcase] at hgroup
      exact absurd ((groupOf_eq_unclosed_iff content).mp hgroup.symm) hclosed
  | closed inner => simp only [filter_isNone_pair?]

theorem findings_of_leavesOpen (hopen : LeavesOpen content) :
    findings content selector = [.unclosedGroup content] := by
  rw [findings, group_of_ofContent? h, groupOf_of_leavesOpen hopen]

end Line

theorem report_unresolvedAttributes (words : List Text) (content : Text) :
    (words.map (Diagnostic.unresolvedAttribute · content)).map
        (fun finding => (finding.severity, finding.code, finding.message)) =
      words.map fun word => (Severity.warning, "W_ATTR_UNRESOLVED".toList,
        "attribute `".toList ++ word ++ "` has no `name:value` form in `".toList ++ content ++
          "`".toList) := by
  rw [List.map_map]
  rfl

/-- The words of an element's group are all accounted for. A key has the value
of the last pair that names it, and else what `#` or `.` says; shorthand keys
come first, and named ones in the order of their first pairs. Each malformed
word is reported, in order, by a warning that names it, and nothing else. A
group that is left open stores nothing, swallows the body and is the only thing
reported. -/
theorem readAfter_accounts_for_words {line : Line} {selector : Selector}
    (h : ofContent? line.content = some selector) (found : List Diagnostic) :
    (∀ inner, HoldsGroup line.content inner → selector.groupWords = inner.words) ∧
      ((∀ inner, ¬ HoldsGroup line.content inner) → selector.groupWords = []) ∧
      (∀ key, (line.readAfter found).1.attrs.get? key =
        ((selector.pairWords.reverse.find? (nameIn · = key)).map valueIn).or
          (selector.shorthandValue? key)) ∧
      (line.readAfter found).1.attrs.keys =
        selector.shorthandKeys ++
          ((selector.pairWords.map nameIn).filter (· ∉ selector.shorthandKeys)).eraseDups ∧
      (¬ LeavesOpen line.content →
        ∃ reported, (line.readAfter found).2 = found ++ reported ∧
          reported =
            (selector.groupWords.filter Malformed).map (.unresolvedAttribute · line.content) ∧
          reported.map (fun finding => (finding.severity, finding.code, finding.message)) =
            (selector.groupWords.filter Malformed).map fun word =>
              (.warning, "W_ATTR_UNRESOLVED".toList,
                "attribute `".toList ++ word ++ "` has no `name:value` form in `".toList ++
                  line.content ++ "`".toList)) ∧
      (LeavesOpen line.content →
        ∃ reported, (line.readAfter found).2 = found ++ [reported] ∧
          reported = .unclosedGroup line.content ∧
          (reported.severity, reported.code, reported.message) =
            (.warning, "W_ATTR_UNCLOSED".toList,
              "attribute list is never closed in `".toList ++ line.content ++ "`".toList) ∧
          (line.readAfter found).1.attrs.keys = selector.shorthandKeys ∧
          (line.readAfter found).1.body = []) := by
  have hattrs : (line.readAfter found).1.attrs = selector.attributes := by
    simp only [Line.readAfter, Line.read, h]
  have hbody : (line.readAfter found).1.body = selector.body := by
    simp only [Line.readAfter, Line.read, h]
  have hfound : (line.readAfter found).2 = found ++ findings line.content selector := by
    simp only [Line.readAfter, Line.findings, h]
  refine ⟨fun _ => groupWords_of_holdsGroup h, groupWords_eq_nil h, fun key => ?_, ?_, ?_, ?_⟩
  · rw [hattrs, get?_attributes]
  · rw [hattrs, keys_attributes]
  · intro hclosed
    refine ⟨_, ?_, rfl, report_unresolvedAttributes _ line.content⟩
    rw [hfound, findings_of_closed h hclosed]
  · intro hopen
    have hwords := groupWords_eq_nil h (not_holdsGroup_of_leavesOpen hopen)
    refine ⟨_, ?_, rfl, rfl, ?_, ?_⟩
    · rw [hfound, findings_of_leavesOpen h hopen]
    · rw [hattrs, keys_attributes, pairWords, hwords]
      simp
    · rw [hbody, body_of_ofContent? h, bodyOf_of_leavesOpen hopen]

/-- A link whose group replaces its id, names one key twice, and has a word
without a name and one without a value. -/
def contestedLink : Line :=
  { level := 0, content := "a#top.wide(id:home k:1 bare k:2:3 :v) x".toList }

/-- A field whose group has no end. -/
def openField : Line := { level := 1, content := "input.wide(type:text name:q x".toList }

theorem readAfter_accounts_for_words_contestedLink :
    ((contestedLink.readAfter []).1.attrs.get? "k".toList = some "2:3".toList ∧
        (contestedLink.readAfter []).1.attrs.keys = ["id".toList, "class".toList, "k".toList] ∧
        (contestedLink.readAfter []).2.map (fun finding => (finding.code, finding.message)) =
          [("W_ATTR_UNRESOLVED".toList, "attribute `bare` has no `name:value` form in `".toList ++
              contestedLink.content ++ "`".toList),
            ("W_ATTR_UNRESOLVED".toList, "attribute `:v` has no `name:value` form in `".toList ++
              contestedLink.content ++ "`".toList)]) ∧
      (openField.readAfter []).2.map (fun finding => (finding.code, finding.message)) =
        [("W_ATTR_UNCLOSED".toList,
          "attribute list is never closed in `input.wide(type:text name:q x`".toList)] ∧
      (openField.readAfter []).1.attrs.keys = ["class".toList] ∧
      (openField.readAfter []).1.body = [] := by
  have hopen : LeavesOpen openField.content :=
    ⟨"input.wide".toList, "type:text name:q x".toList, rfl, by decide, by decide⟩
  have hholds : HoldsGroup contestedLink.content "id:home k:1 bare k:2:3 :v".toList :=
    ⟨"a#top.wide".toList, " x".toList, rfl, by decide, by decide⟩
  have hclosed : ¬ LeavesOpen contestedLink.content := fun hopen =>
    not_holdsGroup_of_leavesOpen hopen _ hholds
  have hlink : ofContent? contestedLink.content = some {
      name := "a".toList
      id? := some "top".toList
      classes := ["wide".toList]
      group := .closed "id:home k:1 bare k:2:3 :v".toList
      body := "x".toList } := by decide +kernel
  have hfield : ofContent? openField.content = some {
      name := "input".toList
      id? := none
      classes := ["wide".toList]
      group := .unclosed
      body := [] } := by decide +kernel
  obtain ⟨-, -, hget, hkeys, hreported, -⟩ := readAfter_accounts_for_words hlink []
  obtain ⟨-, -, -, -, -, hleft⟩ := readAfter_accounts_for_words hfield []
  obtain ⟨_, hfound, hwords, -⟩ := hreported hclosed
  obtain ⟨_, hfield, hunclosed, -, hshorthand, hbody⟩ := hleft hopen
  refine ⟨⟨(hget _).trans (by decide +kernel), hkeys.trans (by decide +kernel), ?_⟩, ?_,
    hshorthand.trans (by decide +kernel), hbody⟩
  · rw [hfound, hwords]
    decide +kernel
  · rw [hfield, hunclosed]
    decide +kernel

end Selector

end IndentMarkup
