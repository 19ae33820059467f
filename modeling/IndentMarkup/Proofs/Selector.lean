import IndentMarkup.Selector
import IndentMarkup.Proofs.Text.Group
import IndentMarkup.Proofs.Text.Cut
import IndentMarkup.Proofs.Text.Space

/-!
The parts of a selector in terms of texts instead of offsets: what is read
from a text that is put together from a known beginning, a character at which
a scan stops, and any rest.
-/

namespace IndentMarkup

open Text

namespace Selector

section Head

variable {head : Text} (hblank : ∀ c ∈ outsideChars false head, isBlank c = false)

include hblank

theorem headEnd_self : headEnd head = byteLength head := by
  rw [headEnd, (firstOutside?_eq_none_iff head).mpr hblank, Option.getD_none]

theorem headOf_self : headOf head = head := by
  rw [headOf, headEnd_self hblank, takeBytes_byteLength]

theorem bodyOf_self : bodyOf head = [] := by
  rw [bodyOf, headEnd_self hblank, dropBytes_byteLength, trim_nil]

variable {c : Char} (body : Text) (hgroup : groupAfter false head = false)
  (hc : isBlank c = true)

include hgroup hc

theorem headEnd_append_cons : headEnd (head ++ c :: body) = byteLength head := by
  rw [headEnd, firstOutside?_append_cons body hblank (by simp [hgroup]) hc, Option.getD_some]

theorem headOf_append_cons : headOf (head ++ c :: body) = head := by
  rw [headOf, headEnd_append_cons hblank body hgroup hc, takeBytes_byteLength_append]

theorem bodyOf_append_cons : bodyOf (head ++ c :: body) = trim body := by
  rw [bodyOf, headEnd_append_cons hblank body hgroup hc, dropBytes_byteLength_append]
  have hfront : ∀ d ∈ [c], isBlank d = true := by simpa using hc
  exact trim_blank_append body hfront

end Head

theorem nameOf?_append_cons {name : Text} {mark : Char} (rest : Text) (hne : name ≠ [])
    (hname : ∀ c ∈ name, isMark c = false) (hmark : isMark mark = true) :
    nameOf? (name ++ mark :: rest) = some name := by
  have hopen : '(' ∉ name := fun h => absurd (hname _ h) (by decide)
  have hfirst : firstOutside? isMark (name ++ mark :: rest) = some (byteLength name) :=
    firstOutside?_append_cons rest (by rwa [outsideChars_of_notMem_open hopen])
      (by simp [groupAfter_of_notMem_open hopen]) hmark
  obtain ⟨n, hn⟩ := Nat.exists_eq_add_one_of_ne_zero (byteLength_pos hne).ne'
  rw [nameOf?, hfirst, hn]
  change some (takeBytes (n + 1) _) = some name
  rw [← hn, takeBytes_byteLength_append]

theorem nameOf?_bare {name : Text} (hname : ∀ c ∈ name, isMark c = false) :
    nameOf? name = if namesElement name then some name else none := by
  have hopen : '(' ∉ name := fun h => absurd (hname _ h) (by decide)
  have hfirst : firstOutside? isMark name = none := by
    rwa [firstOutside?_eq_none_iff, outsideChars_of_notMem_open hopen]
  rw [nameOf?, hfirst]

theorem partFrom_append_cons {ends : Char → Bool} {before part rest : Text} {mark : Char}
    (hmark : mark.utf8Size = 1) (hpart : ∀ c ∈ part, ends c = false)
    (hrest : ∀ c ∈ rest.head?, ends c = true) :
    partFrom ends (byteLength before + 1) (before ++ mark :: (part ++ rest)) = part := by
  rw [partFrom, dropBytes_succ_append_cons _ hmark]
  exact takeWhile_append_of_stop (by simpa using hpart) (by simpa using hrest)

theorem idOf?_append_cons {before id rest : Text}
    (hbefore : '#' ∉ outsideChars false before) (hgroup : groupAfter false before = false)
    (hne : id ≠ []) (hid : ∀ c ∈ id, endsId c = false)
    (hrest : ∀ c ∈ rest.head?, endsId c = true) :
    idOf? (before ++ '#' :: (id ++ rest)) = some id := by
  have hpart : partFrom endsId (byteLength before + 1) (before ++ '#' :: (id ++ rest)) = id :=
    partFrom_append_cons rfl hid hrest
  rw [idOf?, firstOutside?_beq_append_cons _ hbefore hgroup, Option.map_some, hpart]
  simp [hne]

theorem idOf?_eq_none {head : Text} (h : '#' ∉ outsideChars false head) : idOf? head = none := by
  rw [idOf?, (firstOutside?_beq_eq_none_iff '#' head).mpr h]
  rfl

/-- Each dot starts a class that runs to the next dot, and the last one to
the rest of the head. -/
theorem map_partFrom_outsideFrom_classes {classes : List Text} {rest : Text} (before : Text)
    (hclasses : ∀ word ∈ classes, ∀ c ∈ word, endsClass c = false)
    (hrest : '.' ∉ outsideChars false rest) (hstop : ∀ c ∈ rest.head?, endsClass c = true) :
    ((outsideFrom (byteLength before) false (classes.flatMap ('.' :: ·) ++ rest)).filter
        (·.2 == '.')).map
        (fun dot =>
          partFrom endsClass (dot.1 + 1) (before ++ (classes.flatMap ('.' :: ·) ++ rest))) =
      classes := by
  induction classes generalizing before with
  | nil => simp [filter_outsideFrom_eq_nil _ _ hrest]
  | cons word classes ih =>
      have hword := hclasses word (by simp)
      have hopen : '(' ∉ word := fun h => absurd (hword _ h) (by decide)
      have hdot : '.' ∉ outsideChars false word := by
        rw [outsideChars_of_notMem_open hopen]
        exact fun h => absurd (hword _ h) (by decide)
      have hnext : ∀ c ∈ (classes.flatMap ('.' :: ·) ++ rest).head?, endsClass c = true := by
        cases classes with
        | nil => simpa using hstop
        | cons other classes => simp [endsClass, endsId]
      have hpart : partFrom endsClass (byteLength before + 1)
          (before ++ '.' :: (word ++ (classes.flatMap ('.' :: ·) ++ rest))) = word :=
        partFrom_append_cons rfl hword hnext
      -- Offsets count from the start of the head, so the part before the dots
      -- grows by one class at each step.
      have ih := ih (before ++ '.' :: word) fun other h => hclasses other (by simp [h])
      have hlength : byteLength (before ++ '.' :: word) =
          byteLength before + '.'.utf8Size + byteLength word := by
        simp [Nat.add_assoc]
      rw [hlength] at ih
      rw [List.flatMap_cons, List.cons_append, List.cons_append, List.append_assoc,
        outsideFrom_cons_of_seen _ _ (by simp), List.filter_cons_of_pos rfl, List.map_cons, hpart]
      congr 1
      change ((outsideFrom _ false _).filter _).map _ = _
      rw [outsideFrom_append, List.filter_append, filter_outsideFrom_eq_nil _ _ hdot,
        List.nil_append, groupAfter_of_notMem_open hopen]
      simpa using ih

theorem classesOf_append {before rest : Text} {classes : List Text}
    (hbefore : '.' ∉ outsideChars false before) (hgroup : groupAfter false before = false)
    (hne : ∀ word ∈ classes, word ≠ [])
    (hclasses : ∀ word ∈ classes, ∀ c ∈ word, endsClass c = false)
    (hrest : '.' ∉ outsideChars false rest) (hstop : ∀ c ∈ rest.head?, endsClass c = true) :
    classesOf (before ++ (classes.flatMap ('.' :: ·) ++ rest)) = classes := by
  have hmap := map_partFrom_outsideFrom_classes before hclasses hrest hstop
  rw [classesOf, outsideGroups, outsideFrom_append, List.filter_append,
    filter_outsideFrom_eq_nil _ _ hbefore, List.nil_append, hgroup, Nat.zero_add, hmap]
  simpa using hne

theorem groupOf_append_cons {before inner : Text} (rest : Text) (hbefore : '(' ∉ before)
    (hinner : ')' ∉ inner) :
    groupOf (before ++ '(' :: (inner ++ ')' :: rest)) = .closed inner := by
  have hfirst : firstOutside? (· == '(') (before ++ '(' :: (inner ++ ')' :: rest)) =
      some (byteLength before) :=
    firstOutside?_beq_append_cons _ (by rwa [outsideChars_of_notMem_open hbefore])
      (groupAfter_of_notMem_open hbefore)
  have hdrop : dropBytes (byteLength before + 1) (before ++ '(' :: (inner ++ ')' :: rest)) =
      inner ++ ')' :: rest :=
    dropBytes_succ_append_cons _ rfl
  have htake : (inner ++ ')' :: rest).takeWhile (· != ')') = inner :=
    takeWhile_bne_append hinner (by simp)
  simp [groupOf, hfirst, hdrop, htake]

theorem groupOf_eq_absent {head : Text} (h : '(' ∉ outsideChars false head) :
    groupOf head = .absent := by
  rw [groupOf, (firstOutside?_beq_eq_none_iff '(' head).mpr h]

section Parts

/-- No blank of a head is seen by a scan. -/
theorem isBlank_of_mem_outsideChars_headOf {content : Text} {c : Char}
    (h : c ∈ outsideChars false (headOf content)) : isBlank c = false := by
  rw [headOf, headEnd] at h
  cases hfirst : firstOutside? isBlank content with
  | none =>
      rw [hfirst, Option.getD_none, takeBytes_byteLength] at h
      exact (firstOutside?_eq_none_iff content).mp hfirst c h
  | some n =>
      obtain ⟨before, d, after, rfl, rfl, -, hbefore, -⟩ := exists_of_firstOutside?_eq_some hfirst
      rw [hfirst, Option.getD_some, takeBytes_byteLength_append] at h
      exact hbefore c h

/-- A beginning of which a scan sees no mark is seen whole. -/
theorem free_of_outsideChars {part : Text} (rest : Text)
    (hblank : ∀ c ∈ outsideChars false (part ++ rest), isBlank c = false)
    (hmark : ∀ c ∈ outsideChars false part, isMark c = false) :
    ∀ c ∈ part, isBlank c = false ∧ isMark c = false := by
  have hopen : '(' ∉ part :=
    notMem_open_of_notMem_outsideChars fun hmem => absurd (hmark _ hmem) (by decide)
  rw [outsideChars_append, outsideChars_of_notMem_open hopen] at hblank
  rw [outsideChars_of_notMem_open hopen] at hmark
  exact fun c hc => ⟨hblank c (List.mem_append_left _ hc), hmark c hc⟩

theorem nameOf?_spec {head name : Text}
    (hblank : ∀ c ∈ outsideChars false head, isBlank c = false) (h : nameOf? head = some name) :
    name ≠ [] ∧ ∀ c ∈ name, isBlank c = false ∧ isMark c = false := by
  rw [nameOf?] at h
  split at h
  case h_1 =>
    obtain rfl := Option.some.inj h
    have hdefault : defaultName.all (fun c => !isBlank c && !isMark c) = true := by decide
    refine ⟨by decide, fun c hc => ?_⟩
    simpa using List.all_eq_true.mp hdefault c hc
  case h_2 n hn hfirst =>
    obtain ⟨before, c, after, rfl, rfl, -, hbefore, -⟩ := exists_of_firstOutside?_eq_some hfirst
    rw [takeBytes_byteLength_append] at h
    obtain rfl := Option.some.inj h
    refine ⟨?_, free_of_outsideChars _ hblank hbefore⟩
    rintro rfl
    exact hn rfl
  case h_3 hfirst =>
    rw [firstOutside?_eq_none_iff] at hfirst
    split at h
    case isTrue helement =>
      obtain rfl := Option.some.inj h
      have hfree := free_of_outsideChars [] (by rwa [List.append_nil]) hfirst
      refine ⟨?_, hfree⟩
      rintro rfl
      exact absurd helement (by decide)
    case isFalse => cases h

/-- The name of a selector can neither be empty nor hold white space or a mark. -/
theorem name_spec {content : Text} {selector : Selector} (h : ofContent? content = some selector) :
    selector.name ≠ [] ∧ ∀ c ∈ selector.name, isBlank c = false ∧ isMark c = false := by
  rw [ofContent?, Option.map_eq_some_iff] at h
  obtain ⟨name, hname, rfl⟩ := h
  exact nameOf?_spec (fun c hc => isBlank_of_mem_outsideChars_headOf hc) hname

end Parts

end Selector

end IndentMarkup
