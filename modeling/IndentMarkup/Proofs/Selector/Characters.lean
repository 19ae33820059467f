import IndentMarkup.Proofs.Selector

/-!
The parts of a selector, character by character. Each part is found by a scan
of its own that counts offsets and starts anew at the beginning of the head.
Here the same parts are given by recursions that know only whether a group is
open, so that two scans can be compared at every character.
-/

namespace IndentMarkup

open Text

namespace Text

/-- The text before the first character outside groups that satisfies `p`. -/
def beforeMark (p : Char → Bool) (inGroup : Bool) : Text → Text
  | [] => []
  | c :: rest =>
    if inGroup = false ∧ p c = true then []
    else c :: beforeMark p (groupAfter inGroup [c]) rest

/-- The text behind that character, if there is one. -/
def behindMark? (p : Char → Bool) (inGroup : Bool) : Text → Option Text
  | [] => none
  | c :: rest =>
    if inGroup = false ∧ p c = true then some rest
    else behindMark? p (groupAfter inGroup [c]) rest

section Mark

variable {p : Char → Bool}

/-- A text that is found whole, or cut at its first mark. The mark cannot be a
closing parenthesis, which a scan also sees when it ends a group. -/
theorem mark_cases (hp : p ')' = false) (t : Text) :
    (firstOutside? p t = none ∧ ∀ c ∈ outsideChars false t, p c = false) ∨
      ∃ before c after, t = before ++ c :: after ∧
        firstOutside? p t = some (byteLength before) ∧ p c = true ∧
        (∀ d ∈ outsideChars false before, p d = false) ∧ groupAfter false before = false := by
  cases hfirst : firstOutside? p t with
  | none => exact .inl ⟨rfl, (firstOutside?_eq_none_iff t).mp hfirst⟩
  | some n =>
      obtain ⟨before, c, after, ht, hn, hc, hbefore, hgroup⟩ :=
        exists_of_firstOutside?_eq_some hfirst
      refine .inr ⟨before, c, after, ht, by rw [hn], hc, hbefore, ?_⟩
      rw [Bool.eq_false_iff]
      intro hin
      rw [hgroup hin, hp] at hc
      cases hc

theorem forall_mem_outsideChars_cons {inGroup : Bool} {c : Char} {s : Text}
    (h : ∀ d ∈ outsideChars inGroup (c :: s), p d = false) :
    ¬ (inGroup = false ∧ p c = true) ∧
      ∀ d ∈ outsideChars (groupAfter inGroup [c]) s, p d = false := by
  rw [← List.singleton_append, outsideChars_append, List.forall_mem_append] at h
  refine ⟨?_, h.2⟩
  rintro ⟨rfl, hc⟩
  rw [h.1 c List.mem_cons_self] at hc
  cases hc

variable {inGroup : Bool} {s : Text} (hs : ∀ c ∈ outsideChars inGroup s, p c = false)

include hs

theorem beforeMark_append (t : Text) :
    beforeMark p inGroup (s ++ t) = s ++ beforeMark p (groupAfter inGroup s) t := by
  induction s generalizing inGroup with
  | nil => rfl
  | cons c s ih =>
      obtain ⟨hc, hrest⟩ := forall_mem_outsideChars_cons hs
      rw [List.cons_append, beforeMark, if_neg hc, ih hrest, groupAfter_cons inGroup c s,
        List.cons_append]

theorem behindMark?_append (t : Text) :
    behindMark? p inGroup (s ++ t) = behindMark? p (groupAfter inGroup s) t := by
  induction s generalizing inGroup with
  | nil => rfl
  | cons c s ih =>
      obtain ⟨hc, hrest⟩ := forall_mem_outsideChars_cons hs
      rw [List.cons_append, behindMark?, if_neg hc, ih hrest, groupAfter_cons inGroup c s]

theorem beforeMark_eq_self : beforeMark p inGroup s = s := by
  have happend := beforeMark_append hs []
  rwa [List.append_nil, beforeMark, List.append_nil] at happend

theorem behindMark?_eq_none : behindMark? p inGroup s = none := by
  have happend := behindMark?_append hs []
  rwa [List.append_nil, behindMark?] at happend

variable {c : Char} (hgroup : groupAfter inGroup s = false) (hc : p c = true)

include hgroup hc

theorem beforeMark_append_cons (t : Text) : beforeMark p inGroup (s ++ c :: t) = s := by
  rw [beforeMark_append hs, hgroup, beforeMark, if_pos ⟨rfl, hc⟩, List.append_nil]

theorem behindMark?_append_cons (t : Text) : behindMark? p inGroup (s ++ c :: t) = some t := by
  rw [behindMark?_append hs, hgroup, behindMark?, if_pos ⟨rfl, hc⟩]

end Mark

end Text

namespace Selector

theorem headOf_eq (content : Text) : headOf content = beforeMark isBlank false content := by
  obtain ⟨-, hblank⟩ | ⟨before, c, after, rfl, -, hc, hbefore, hgroup⟩ :=
    mark_cases (p := isBlank) rfl content
  · rw [headOf_self hblank, beforeMark_eq_self hblank]
  · rw [headOf_append_cons hbefore after hgroup hc, beforeMark_append_cons hbefore hgroup hc]

theorem bodyOf_eq (content : Text) :
    bodyOf content = trim ((behindMark? isBlank false content).getD []) := by
  obtain ⟨-, hblank⟩ | ⟨before, c, after, rfl, -, hc, hbefore, hgroup⟩ :=
    mark_cases (p := isBlank) rfl content
  · rw [bodyOf_self hblank, behindMark?_eq_none hblank, Option.getD_none, trim_nil]
  · rw [bodyOf_append_cons hbefore after hgroup hc, behindMark?_append_cons hbefore hgroup hc,
      Option.getD_some]

/-- Marks in a group come behind its opening parenthesis, so the first mark of
all is outside groups. -/
theorem nameOf?_eq (head : Text) :
    nameOf? head =
      if head.any isMark then
        if head.takeWhile (!isMark ·) = [] then some defaultName
        else some (head.takeWhile (!isMark ·))
      else if namesElement head then some head else none := by
  obtain ⟨hfirst, hmark⟩ | ⟨before, c, after, rfl, -, hc, hbefore, -⟩ :=
    mark_cases (p := isMark) rfl head
  · have hopen : '(' ∉ head :=
      notMem_open_of_notMem_outsideChars fun hmem => absurd (hmark _ hmem) (by decide)
    rw [outsideChars_of_notMem_open hopen] at hmark
    have hnone : head.any isMark = false := by simpa using hmark
    rw [hnone, if_neg Bool.false_ne_true, nameOf?_bare hmark]
  · have hopen : '(' ∉ before :=
      notMem_open_of_notMem_outsideChars fun hmem => absurd (hbefore _ hmem) (by decide)
    rw [outsideChars_of_notMem_open hopen] at hbefore
    have htake : (before ++ c :: after).takeWhile (!isMark ·) = before :=
      takeWhile_append_of_stop (by simpa using hbefore) (by simpa using hc)
    have hsome : (before ++ c :: after).any isMark = true := by simp [hc]
    rw [if_pos hsome, htake]
    split
    case isTrue hempty =>
      have hfirst : firstOutside? isMark (c :: after) = some 0 :=
        firstOutside?_append_cons after (s := []) (by simp) (by simp) hc
      rw [hempty, List.nil_append, nameOf?, hfirst]
      rfl
    case isFalse hne => exact nameOf?_append_cons after hne hbefore hc

theorem idOf?_eq (head : Text) :
    idOf? head =
      ((behindMark? (· == '#') false head).map fun rest => rest.takeWhile (!endsId ·)).filter
        (!·.isEmpty) := by
  obtain ⟨hfirst, hmark⟩ | ⟨before, c, after, rfl, hfirst, hc, hbefore, hgroup⟩ :=
    mark_cases (p := (· == '#')) rfl head
  · rw [idOf?, hfirst, behindMark?_eq_none hmark]
    rfl
  · obtain rfl : c = '#' := eq_of_beq hc
    rw [idOf?, hfirst, behindMark?_append_cons hbefore hgroup hc, Option.map_some, Option.map_some,
      partFrom, dropBytes_succ_append_cons after rfl]

/-- What a group holds when this text follows its opening parenthesis. -/
def groupBehind (rest : Text) : AttributeGroup :=
  if rest.contains ')' then .closed (rest.takeWhile (· != ')')) else .unclosed

theorem groupOf_eq (head : Text) :
    groupOf head = ((behindMark? (· == '(') false head).map groupBehind).getD .absent := by
  obtain ⟨hfirst, hmark⟩ | ⟨before, c, after, rfl, hfirst, hc, hbefore, hgroup⟩ :=
    mark_cases (p := (· == '(')) rfl head
  · rw [groupOf, hfirst, behindMark?_eq_none hmark]
    rfl
  · obtain rfl : c = '(' := eq_of_beq hc
    rw [groupOf, hfirst, behindMark?_append_cons hbefore hgroup hc, Option.map_some,
      Option.getD_some, groupBehind]
    have hdrop : dropBytes (byteLength before + 1) (before ++ '(' :: after) = after :=
      dropBytes_succ_append_cons after rfl
    simp only [hdrop]

/-- Each dot outside groups starts a class that runs to the next character that ends one. -/
def classesFrom (inGroup : Bool) : Text → List Text
  | [] => []
  | c :: rest =>
    if inGroup = false ∧ c = '.' then
      rest.takeWhile (!endsClass ·) :: classesFrom (groupAfter inGroup [c]) rest
    else classesFrom (groupAfter inGroup [c]) rest

theorem filter_outsideFrom_singleton (offset : Nat) (inGroup : Bool) (c : Char) :
    (outsideFrom offset inGroup [c]).filter (·.2 == '.') =
      if inGroup = false ∧ c = '.' then [(offset, c)] else [] := by
  cases inGroup with
  | false => by_cases hc : c = '.' <;> simp [outsideFrom, hc]
  | true => by_cases hc : c = ')' <;> simp [outsideFrom, hc]

/-- Offsets count from the start of the head, so the text before the part that
is still to be scanned grows by one character at each step. -/
theorem map_partFrom_outsideFrom (before : Text) (inGroup : Bool) (t : Text) :
    ((outsideFrom (byteLength before) inGroup t).filter (·.2 == '.')).map
        (fun dot => partFrom endsClass (dot.1 + 1) (before ++ t)) =
      classesFrom inGroup t := by
  induction t generalizing before inGroup with
  | nil => rfl
  | cons c t ih =>
      have hrest := ih (before ++ [c]) (groupAfter inGroup [c])
      rw [List.append_assoc, List.singleton_append, byteLength_append] at hrest
      have hsplit := outsideFrom_append (byteLength before) inGroup [c] t
      rw [List.singleton_append] at hsplit
      rw [hsplit, List.filter_append, List.map_append, filter_outsideFrom_singleton, hrest,
        classesFrom]
      split
      case isTrue hdot =>
        obtain ⟨-, rfl⟩ := hdot
        have hpart : partFrom endsClass (byteLength before + 1) (before ++ '.' :: t) =
            t.takeWhile (!endsClass ·) := by
          rw [partFrom, dropBytes_succ_append_cons t rfl]
        rw [List.map_singleton, hpart, List.singleton_append]
      case isFalse => rfl

theorem classesOf_eq (head : Text) :
    classesOf head = (classesFrom false head).filter (!·.isEmpty) := by
  rw [classesOf, outsideGroups, ← map_partFrom_outsideFrom []]
  rfl

end Selector

end IndentMarkup
