import IndentMarkup.Proofs.Selector.Characters

/-!
Selectors in one pass. A scan reads a content once from left to right and
knows which part the next character belongs to; a mark changes the part, and
any other character joins it. Main statement: this gives the same selector as
the separate scans for the head, the name, the id, the classes and the group.
-/

namespace IndentMarkup

open Text

namespace Selector

/-- What the next character of a head belongs to. -/
inductive Part
  | name
  | id
  | word
  | skipped
  | group
  deriving DecidableEq, Repr

structure Scan where
  part : Part := .name
  name : Text := []
  /-- There is none before the first `#` outside groups. -/
  id? : Option Text := none
  /-- The last class comes first. -/
  classes : List Text := []
  /-- What has been read of the first group. -/
  inner? : Option Text := none
  /-- The first group has ended. -/
  closed : Bool := false
  deriving DecidableEq, Repr

namespace Scan

/-- Adds a character to the part that is being read. Later groups are not kept. -/
def join (scan : Scan) (c : Char) : Scan :=
  match scan.part with
  | .name => { scan with name := scan.name ++ [c] }
  | .id => { scan with id? := scan.id?.map (· ++ [c]) }
  | .word => { scan with classes := scan.classes.modifyHead (· ++ [c]) }
  | .skipped => scan
  | .group => if scan.closed then scan else { scan with inner? := scan.inner?.map (· ++ [c]) }

/-- In a group only its end counts. Outside, a further `#` belongs to the id or
ends what is being read. -/
def step (scan : Scan) (c : Char) : Scan :=
  if scan.part = .group then
    if c = ')' then { scan with part := .skipped, closed := true } else scan.join c
  else if c = '(' then { scan with part := .group, inner? := scan.inner?.or (some []) }
  else if c = ':' then { scan with part := .skipped }
  else if c = '.' then { scan with part := .word, classes := [] :: scan.classes }
  else if c = '#' ∧ scan.id? = none then { scan with part := .id, id? := some [] }
  else if c = '#' ∧ scan.part ≠ .id then { scan with part := .skipped }
  else scan.join c

/-- White space outside groups ends the head, and the rest is returned unread. -/
def run (scan : Scan) : Text → Scan × Text
  | [] => (scan, [])
  | c :: rest =>
    if scan.part ≠ .group ∧ isBlank c = true then (scan, rest) else (scan.step c).run rest

/-- Every mark ends the name, and nothing takes it up again. So a scan that is
still at the name has met no mark. -/
def tag (scan : Scan) : Tag :=
  if scan.part = .name then if namesElement scan.name then .element scan.name else .text
  else if scan.name = [] then .element defaultName
  else .element scan.name

def selectorId? (scan : Scan) : Option Text := scan.id?.filter (!·.isEmpty)

def selectorClasses (scan : Scan) : List Text := scan.classes.reverse.filter (!·.isEmpty)

def selectorGroup (scan : Scan) : AttributeGroup :=
  match scan.inner? with
  | none => .absent
  | some inner => if scan.closed then .closed inner else .unclosed

/-- The selector that one pass over a content gives. -/
def selector? (content : Text) : Option Selector :=
  let (scan, rest) := run {} content
  scan.tag.name?.map fun name =>
    { name, id? := scan.selectorId?, classes := scan.selectorClasses,
      group := scan.selectorGroup, body := trim rest }

/-- Everything that a step can do. -/
inductive Steps (scan : Scan) : Char → Scan → Prop
  | closing (hpart : scan.part = .group) :
      Steps scan ')' { scan with part := .skipped, closed := true }
  | inside {c : Char} (hpart : scan.part = .group) (hc : c ≠ ')') : Steps scan c (scan.join c)
  | opening (hpart : scan.part ≠ .group) :
      Steps scan '(' { scan with part := .group, inner? := scan.inner?.or (some []) }
  | colon (hpart : scan.part ≠ .group) : Steps scan ':' { scan with part := .skipped }
  | dot (hpart : scan.part ≠ .group) :
      Steps scan '.' { scan with part := .word, classes := [] :: scan.classes }
  | firstHash (hpart : scan.part ≠ .group) (hid : scan.id? = none) :
      Steps scan '#' { scan with part := .id, id? := some [] }
  | hashInId (hpart : scan.part = .id) (hid : scan.id? ≠ none) : Steps scan '#' (scan.join '#')
  | laterHash (hpart : scan.part ≠ .group) (hother : scan.part ≠ .id) (hid : scan.id? ≠ none) :
      Steps scan '#' { scan with part := .skipped }
  | unmarked {c : Char} (hpart : scan.part ≠ .group) (hc : isMark c = false) :
      Steps scan c (scan.join c)

theorem steps_step (scan : Scan) (c : Char) : scan.Steps c (scan.step c) := by
  rw [step]
  split_ifs with hpart hclose hopen hcolon hdot hfirst hlater
  · subst hclose
    exact .closing hpart
  · exact .inside hpart hclose
  · subst hopen
    exact .opening hpart
  · subst hcolon
    exact .colon hpart
  · subst hdot
    exact .dot hpart
  · obtain ⟨rfl, hid⟩ := hfirst
    exact .firstHash hpart hid
  · obtain ⟨rfl, hother⟩ := hlater
    exact .laterHash hpart hother fun hid => hfirst ⟨rfl, hid⟩
  · by_cases hhash : c = '#'
    · subst hhash
      exact .hashInId (by simpa using hlater) fun hid => hfirst ⟨rfl, hid⟩
    · exact .unmarked hpart (by simp [isMark, *])

section Join

variable (scan : Scan) (c : Char)

@[simp] theorem part_join : (scan.join c).part = scan.part := by
  cases hpart : scan.part <;> simp [join, hpart]
  split <;> simp [hpart]

@[simp] theorem name_join :
    (scan.join c).name = if scan.part = .name then scan.name ++ [c] else scan.name := by
  cases hpart : scan.part <;> simp [join, hpart]
  split <;> rfl

@[simp] theorem id?_join :
    (scan.join c).id? = if scan.part = .id then scan.id?.map (· ++ [c]) else scan.id? := by
  cases hpart : scan.part <;> simp [join, hpart]
  split <;> rfl

@[simp] theorem classes_join :
    (scan.join c).classes =
      if scan.part = .word then scan.classes.modifyHead (· ++ [c]) else scan.classes := by
  cases hpart : scan.part <;> simp [join, hpart]
  split <;> rfl

@[simp] theorem closed_join : (scan.join c).closed = scan.closed := by
  cases hpart : scan.part <;> simp [join, hpart]
  split <;> rfl

@[simp] theorem inner?_join :
    (scan.join c).inner? =
      if scan.part = .group ∧ scan.closed = false then scan.inner?.map (· ++ [c])
      else scan.inner? := by
  cases hpart : scan.part <;> simp [join, hpart]
  cases hclosed : scan.closed <;> simp

end Join

abbrev inGroup (scan : Scan) : Bool := decide (scan.part = .group)

variable {scan next : Scan} {c : Char}

theorem Steps.inGroup_eq (h : scan.Steps c next) : next.inGroup = groupAfter scan.inGroup [c] := by
  cases h <;> simp_all [inGroup, groupAfter, isMark]

theorem Steps.part_eq_name_iff (h : scan.Steps c next) :
    next.part = .name ↔ scan.part = .name ∧ isMark c = false := by
  cases h <;> simp_all [isMark]

theorem Steps.name_eq (h : scan.Steps c next) :
    next.name = if scan.part = .name ∧ isMark c = false then scan.name ++ [c] else scan.name := by
  cases h <;> simp_all [isMark]

theorem Steps.part_eq_id_iff (h : scan.Steps c next) :
    next.part = .id ↔
      scan.part = .id ∧ endsId c = false ∨
        scan.part ≠ .group ∧ c = '#' ∧ scan.id? = none := by
  cases h <;> simp_all [isMark, endsId]

theorem Steps.id?_eq (h : scan.Steps c next) :
    next.id? =
      if scan.part ≠ .group ∧ c = '#' ∧ scan.id? = none then some []
      else if scan.part = .id ∧ endsId c = false then scan.id?.map (· ++ [c])
      else scan.id? := by
  cases h <;> simp_all [isMark, endsId]

theorem Steps.part_eq_word_iff (h : scan.Steps c next) :
    next.part = .word ↔
      scan.part = .word ∧ endsClass c = false ∨ scan.part ≠ .group ∧ c = '.' := by
  cases h <;> simp_all [isMark, endsId, endsClass]

theorem Steps.classes_eq (h : scan.Steps c next) :
    next.classes =
      if scan.part ≠ .group ∧ c = '.' then [] :: scan.classes
      else if scan.part = .word ∧ endsClass c = false then scan.classes.modifyHead (· ++ [c])
      else scan.classes := by
  cases h <;> simp_all [isMark, endsId, endsClass]

theorem Steps.closed_and_inner?_eq (h : scan.Steps c next) {inner : Text}
    (hinner : scan.inner? = some inner) (hclosed : scan.closed = true) :
    next.inner? = some inner ∧ next.closed = true := by
  cases h <;> simp [hinner, hclosed]

theorem Steps.before_group (h : scan.Steps c next) (hpart : scan.part ≠ .group)
    (hinner : scan.inner? = none) (hclosed : scan.closed = false) (hc : c ≠ '(') :
    next.part ≠ .group ∧ next.inner? = none ∧ next.closed = false := by
  cases h <;> simp_all

section Run

theorem part_foldl_eq_name_iff (scan : Scan) (t : Text) :
    (t.foldl step scan).part = .name ↔ scan.part = .name ∧ ∀ c ∈ t, isMark c = false := by
  induction t generalizing scan with
  | nil => simp
  | cons c t ih =>
      rw [List.foldl_cons, ih, (scan.steps_step c).part_eq_name_iff, List.forall_mem_cons,
        and_assoc]

theorem name_foldl (scan : Scan) (t : Text) :
    (t.foldl step scan).name =
      if scan.part = .name then scan.name ++ t.takeWhile (!isMark ·) else scan.name := by
  induction t generalizing scan with
  | nil => simp
  | cons c t ih =>
      have hstep := scan.steps_step c
      rw [List.foldl_cons, ih, hstep.name_eq]
      simp only [hstep.part_eq_name_iff]
      by_cases hpart : scan.part = .name
      · cases hc : isMark c <;> simp [hpart, hc]
      · simp [hpart]

theorem id?_foldl_of_some (scan : Scan) (t : Text) {id : Text} (h : scan.id? = some id) :
    (t.foldl step scan).id? =
      some (if scan.part = .id then id ++ t.takeWhile (!endsId ·) else id) := by
  induction t generalizing scan id with
  | nil => simp [h]
  | cons c t ih =>
      have hstep := scan.steps_step c
      have hpart := hstep.part_eq_id_iff
      have hid := hstep.id?_eq
      simp only [h, reduceCtorEq, and_false, or_false, if_false] at hpart hid
      rw [List.foldl_cons]
      by_cases hjoin : scan.part = .id ∧ endsId c = false
      · rw [if_pos hjoin] at hid
        rw [ih _ hid, if_pos (hpart.mpr hjoin), if_pos hjoin.1]
        simp [hjoin.2]
      · rw [if_neg hjoin] at hid
        rw [ih _ hid, if_neg (mt hpart.mp hjoin)]
        split
        case isTrue hin =>
          have hc : endsId c = true := by simpa [hin] using hjoin
          simp [hc]
        case isFalse => rfl

theorem id?_foldl_of_none (scan : Scan) (t : Text) (h : scan.id? = none) :
    (t.foldl step scan).id? =
      (behindMark? (· == '#') scan.inGroup t).map fun rest => rest.takeWhile (!endsId ·) := by
  induction t generalizing scan with
  | nil => simp [h, behindMark?]
  | cons c t ih =>
      have hstep := scan.steps_step c
      have hid := hstep.id?_eq
      simp only [h, Option.map_none, and_true, ite_self] at hid
      rw [List.foldl_cons, behindMark?]
      by_cases hhash : scan.part ≠ .group ∧ c = '#'
      · have hmark : scan.inGroup = false ∧ (c == '#') = true := by simpa [inGroup] using hhash
        rw [if_pos hhash] at hid
        have hpart : (scan.step c).part = .id :=
          hstep.part_eq_id_iff.mpr (.inr ⟨hhash.1, hhash.2, h⟩)
        rw [id?_foldl_of_some _ t hid, if_pos hpart, if_pos hmark]
        simp
      · have hmark : ¬ (scan.inGroup = false ∧ (c == '#') = true) := by
          simpa [inGroup] using hhash
        rw [if_neg hhash] at hid
        rw [ih _ hid, if_neg hmark, hstep.inGroup_eq]

theorem classes_foldl (scan : Scan) (t : Text) :
    (t.foldl step scan).classes =
      (classesFrom scan.inGroup t).reverse ++
        if scan.part = .word then scan.classes.modifyHead (· ++ t.takeWhile (!endsClass ·))
        else scan.classes := by
  induction t generalizing scan with
  | nil => cases hold : scan.classes <;> simp [classesFrom, hold]
  | cons c t ih =>
      have hstep := scan.steps_step c
      have hpart := hstep.part_eq_word_iff
      have hclasses := hstep.classes_eq
      rw [List.foldl_cons, ih, hstep.inGroup_eq, classesFrom]
      by_cases hdot : scan.part ≠ .group ∧ c = '.'
      · -- A new class comes first, and the scan of the rest adds to it.
        have hmark : scan.inGroup = false ∧ c = '.' := by simpa [inGroup] using hdot
        have hends : endsClass c = true := by rw [hdot.2]; rfl
        rw [if_pos hdot] at hclasses
        rw [if_pos (hpart.mpr (.inr hdot)), if_pos hmark, hclasses]
        cases hold : scan.classes <;> simp [hends]
      · have hmark : ¬ (scan.inGroup = false ∧ c = '.') := by simpa [inGroup] using hdot
        rw [if_neg hdot] at hclasses
        simp only [hdot, or_false] at hpart
        rw [if_neg hmark]
        congr 1
        by_cases hword : scan.part = .word ∧ endsClass c = false
        · rw [if_pos hword] at hclasses
          rw [if_pos (hpart.mpr hword), if_pos hword.1, hclasses, List.modifyHead_modifyHead]
          simp [hword.2, Function.comp_def]
        · rw [if_neg hword] at hclasses
          rw [if_neg (mt hpart.mp hword), hclasses]
          split
          case isTrue hin =>
            have hends : endsClass c = true := by simpa [hin] using hword
            cases hold : scan.classes <;> simp [hends]
          case isFalse => rfl

theorem selectorGroup_foldl_of_closed (scan : Scan) (t : Text) {inner : Text}
    (hinner : scan.inner? = some inner) (hclosed : scan.closed = true) :
    (t.foldl step scan).selectorGroup = .closed inner := by
  induction t generalizing scan with
  | nil => simp [selectorGroup, hinner, hclosed]
  | cons c t ih =>
      obtain ⟨hinner, hclosed⟩ := (scan.steps_step c).closed_and_inner?_eq hinner hclosed
      exact ih _ hinner hclosed

theorem selectorGroup_foldl_of_inside (scan : Scan) (t : Text) {inner : Text}
    (hpart : scan.part = .group) (hinner : scan.inner? = some inner)
    (hclosed : scan.closed = false) :
    (t.foldl step scan).selectorGroup =
      if t.contains ')' then .closed (inner ++ t.takeWhile (· != ')')) else .unclosed := by
  induction t generalizing scan inner with
  | nil => simp [selectorGroup, hinner, hclosed]
  | cons c t ih =>
      rw [List.foldl_cons]
      by_cases hc : c = ')'
      · subst hc
        have hstep : scan.step ')' = { scan with part := .skipped, closed := true } := by
          simp [step, hpart]
        have hinner : (scan.step ')').inner? = some inner := by rw [hstep, ← hinner]
        rw [selectorGroup_foldl_of_closed _ t hinner (by rw [hstep])]
        simp
      · have hstep : scan.step c = { scan with inner? := some (inner ++ [c]) } := by
          simp [step, join, hpart, hc, hinner, hclosed]
        have hpart : (scan.step c).part = .group := by rw [hstep, ← hpart]
        have hclosed : (scan.step c).closed = false := by rw [hstep, ← hclosed]
        rw [ih _ hpart (by rw [hstep]) hclosed]
        simp [hc, Ne.symm hc]

theorem selectorGroup_foldl_of_before (scan : Scan) (t : Text) (hpart : scan.part ≠ .group)
    (hinner : scan.inner? = none) (hclosed : scan.closed = false) :
    (t.foldl step scan).selectorGroup =
      ((behindMark? (· == '(') false t).map groupBehind).getD .absent := by
  induction t generalizing scan with
  | nil => simp [selectorGroup, hinner, behindMark?]
  | cons c t ih =>
      rw [List.foldl_cons, behindMark?]
      by_cases hc : c = '('
      · subst hc
        have hstep : scan.step '(' = { scan with part := .group, inner? := some [] } := by
          simp [step, hpart, hinner]
        have hclosed : (scan.step '(').closed = false := by rw [hstep, ← hclosed]
        rw [selectorGroup_foldl_of_inside _ t (by rw [hstep]) (by rw [hstep]) hclosed]
        simp [groupBehind]
      · obtain ⟨hpart, hinner, hclosed⟩ :=
          (scan.steps_step c).before_group hpart hinner hclosed hc
        have houtside : groupAfter false [c] = false := beq_eq_false_iff_ne.mpr hc
        rw [ih _ hpart hinner hclosed, if_neg (by simp [hc]), houtside]

end Run

theorem run_eq (scan : Scan) (t : Text) :
    scan.run t =
      ((beforeMark isBlank scan.inGroup t).foldl step scan,
        (behindMark? isBlank scan.inGroup t).getD []) := by
  induction t generalizing scan with
  | nil => rfl
  | cons c t ih =>
      rw [run, beforeMark, behindMark?, ih, (scan.steps_step c).inGroup_eq]
      by_cases hend : scan.part ≠ .group ∧ isBlank c = true
      · simp [inGroup, hend]
      · have hgoes : ¬ (scan.inGroup = false ∧ isBlank c = true) := by simpa [inGroup] using hend
        rw [if_neg hend, if_neg hgoes, if_neg hgoes, List.foldl_cons]

section Agreement

variable (content : Text)

/-- What a scan of the whole content has read at the end of the head. -/
theorem run_content :
    run {} content =
      ((headOf content).foldl step {}, (behindMark? isBlank false content).getD []) := by
  rw [headOf_eq]
  exact run_eq {} content

theorem name?_tag_run : (run {} content).1.tag.name? = nameOf? (headOf content) := by
  have hpart : ((headOf content).foldl step {}).part = .name ↔
      ∀ c ∈ headOf content, isMark c = false := by
    simp [part_foldl_eq_name_iff]
  have hname := name_foldl {} (headOf content)
  rw [if_pos rfl, List.nil_append] at hname
  rw [run_content, nameOf?_eq, tag, hname]
  cases hmark : (headOf content).any isMark with
  | false =>
      have hfree : ∀ c ∈ headOf content, isMark c = false := by simpa using hmark
      have hall : (headOf content).takeWhile (!isMark ·) = headOf content := by
        rw [List.takeWhile_eq_self_iff]
        simpa using hfree
      rw [if_pos (hpart.mpr hfree), hall, if_neg Bool.false_ne_true]
      split <;> rfl
  | true =>
      have hmarked : ¬ ∀ c ∈ headOf content, isMark c = false := by simpa using hmark
      rw [if_neg (mt hpart.mp hmarked), if_pos rfl]
      split <;> rfl

theorem selectorId?_run : (run {} content).1.selectorId? = idOf? (headOf content) := by
  rw [run_content, idOf?_eq, selectorId?, id?_foldl_of_none _ _ rfl]
  rfl

theorem selectorClasses_run :
    (run {} content).1.selectorClasses = classesOf (headOf content) := by
  rw [run_content, classesOf_eq, selectorClasses, classes_foldl]
  simp [inGroup]

theorem selectorGroup_run : (run {} content).1.selectorGroup = groupOf (headOf content) := by
  rw [run_content, groupOf_eq, selectorGroup_foldl_of_before _ _ (by simp) rfl rfl]

theorem trim_run : trim (run {} content).2 = bodyOf content := by
  rw [run_content, bodyOf_eq]

theorem selector?_eq_ofContent? : selector? content = ofContent? content := by
  rw [selector?, ofContent?]
  simp only [name?_tag_run, selectorId?_run, selectorClasses_run, selectorGroup_run, trim_run]

theorem tag_run (line : Line) : (run {} line.content).1.tag = line.read.tag := by
  have hname := name?_tag_run line.content
  rw [Line.read, ofContent?]
  cases htag : (run {} line.content).1.tag <;> rw [htag] at hname <;> simp [← hname, Tag.name?]

/-- A stray parenthesis and a second `#` belong to the id, and what follows a
group belongs to nothing. -/
example : selector? "a#x)#y.b(k:v w)z.c:d e".toList =
    some {
      name := "a".toList
      id? := some "x)#y".toList
      classes := ["b".toList, "c".toList]
      group := .closed "k:v w".toList
      body := "e".toList } := by
  decide

end Agreement

end Scan

end Selector

end IndentMarkup
