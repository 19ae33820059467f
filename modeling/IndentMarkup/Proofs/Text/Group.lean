import IndentMarkup.Text.Group

/-!
Scanning outside groups, in terms of the text before a position. What the
scan sees of a text is fixed by the text and by whether it starts inside a
group; a scan of `s ++ t` is a scan of `s` and then one of `t` that starts in
the state in which `s` ends.
-/

namespace IndentMarkup.Text

/-- Whether a group is open after a text that starts inside a group or not. -/
def groupAfter (inGroup : Bool) : Text → Bool
  | [] => inGroup
  | c :: rest =>
    if inGroup then
      if c = ')' then groupAfter false rest else groupAfter true rest
    else groupAfter (c == '(') rest

/-- The characters outside groups, without their offsets. -/
def outsideChars (inGroup : Bool) : Text → Text
  | [] => []
  | c :: rest =>
    if inGroup then
      if c = ')' then c :: outsideChars false rest else outsideChars true rest
    else c :: outsideChars (c == '(') rest

@[simp] theorem groupAfter_nil (inGroup : Bool) : groupAfter inGroup [] = inGroup := rfl

@[simp] theorem groupAfter_append (inGroup : Bool) (s t : Text) :
    groupAfter inGroup (s ++ t) = groupAfter (groupAfter inGroup s) t := by
  induction s generalizing inGroup with
  | nil => rfl
  | cons c s ih =>
      cases inGroup with
      | false => simp [groupAfter, ih]
      | true => by_cases hc : c = ')' <;> simp [groupAfter, hc, ih]

@[simp] theorem outsideChars_nil (inGroup : Bool) : outsideChars inGroup [] = [] := rfl

@[simp] theorem outsideChars_append (inGroup : Bool) (s t : Text) :
    outsideChars inGroup (s ++ t) =
      outsideChars inGroup s ++ outsideChars (groupAfter inGroup s) t := by
  induction s generalizing inGroup with
  | nil => rfl
  | cons c s ih =>
      cases inGroup with
      | false => simp [outsideChars, groupAfter, ih]
      | true => by_cases hc : c = ')' <;> simp [outsideChars, groupAfter, hc, ih]

theorem map_snd_outsideFrom (offset : Nat) (inGroup : Bool) (t : Text) :
    (outsideFrom offset inGroup t).map Prod.snd = outsideChars inGroup t := by
  induction t generalizing offset inGroup with
  | nil => rfl
  | cons c t ih =>
      cases inGroup with
      | false => simp [outsideFrom, outsideChars, ih]
      | true => by_cases hc : c = ')' <;> simp [outsideFrom, outsideChars, hc, ih]

theorem outsideFrom_append (offset : Nat) (inGroup : Bool) (s t : Text) :
    outsideFrom offset inGroup (s ++ t) =
      outsideFrom offset inGroup s ++
        outsideFrom (offset + byteLength s) (groupAfter inGroup s) t := by
  induction s generalizing offset inGroup with
  | nil => rfl
  | cons c s ih =>
      cases inGroup with
      | false => simp [outsideFrom, groupAfter, ih, Nat.add_assoc]
      | true => by_cases hc : c = ')' <;> simp [outsideFrom, groupAfter, hc, ih, Nat.add_assoc]

/-- A closing parenthesis is seen even when it ends a group. -/
theorem outsideFrom_cons_of_seen {inGroup : Bool} {c : Char} (offset : Nat) (t : Text)
    (h : inGroup = true → c = ')') :
    outsideFrom offset inGroup (c :: t) =
      (offset, c) :: outsideFrom (offset + c.utf8Size) (groupAfter inGroup [c]) t := by
  cases inGroup with
  | false => rfl
  | true => simp [outsideFrom, groupAfter, h rfl]

theorem outsideChars_cons_of_seen {inGroup : Bool} {c : Char} (t : Text)
    (h : inGroup = true → c = ')') :
    outsideChars inGroup (c :: t) = c :: outsideChars (groupAfter inGroup [c]) t := by
  cases inGroup with
  | false => rfl
  | true => simp [outsideChars, groupAfter, h rfl]

theorem groupAfter_cons (inGroup : Bool) (c : Char) (t : Text) :
    groupAfter inGroup (c :: t) = groupAfter (groupAfter inGroup [c]) t :=
  groupAfter_append inGroup [c] t

section Paren

theorem groupAfter_of_notMem_open {t : Text} (h : '(' ∉ t) : groupAfter false t = false := by
  induction t with
  | nil => rfl
  | cons c t ih =>
      rw [List.mem_cons, not_or] at h
      simpa [groupAfter, beq_eq_false_iff_ne.mpr (Ne.symm h.1)] using ih h.2

theorem outsideChars_of_notMem_open {t : Text} (h : '(' ∉ t) : outsideChars false t = t := by
  induction t with
  | nil => rfl
  | cons c t ih =>
      rw [List.mem_cons, not_or] at h
      simpa [outsideChars, beq_eq_false_iff_ne.mpr (Ne.symm h.1)] using ih h.2

/-- The first opening parenthesis is seen, so a text in which none is seen has none. -/
theorem notMem_open_of_notMem_outsideChars {t : Text} (h : '(' ∉ outsideChars false t) :
    '(' ∉ t := by
  induction t with
  | nil => exact h
  | cons c t ih =>
      rw [outsideChars_cons_of_seen t (by simp), List.mem_cons, not_or] at h
      have hstep : groupAfter false [c] = false := beq_eq_false_iff_ne.mpr (Ne.symm h.1)
      rw [hstep] at h
      rw [List.mem_cons, not_or]
      exact ⟨h.1, ih h.2⟩

theorem groupAfter_of_notMem_close {t : Text} (h : ')' ∉ t) : groupAfter true t = true := by
  induction t with
  | nil => rfl
  | cons c t ih =>
      rw [List.mem_cons, not_or] at h
      simpa [groupAfter, Ne.symm h.1] using ih h.2

theorem outsideChars_of_notMem_close {t : Text} (h : ')' ∉ t) : outsideChars true t = [] := by
  induction t with
  | nil => rfl
  | cons c t ih =>
      rw [List.mem_cons, not_or] at h
      simpa [outsideChars, Ne.symm h.1] using ih h.2

theorem groupAfter_group {inner : Text} (h : ')' ∉ inner) :
    groupAfter false ('(' :: inner ++ [')']) = false := by
  rw [groupAfter_append]
  simp [groupAfter, groupAfter_of_notMem_close h]

theorem outsideChars_group {inner : Text} (h : ')' ∉ inner) :
    outsideChars false ('(' :: inner ++ [')']) = ['(', ')'] := by
  rw [outsideChars_append]
  simp [groupAfter, outsideChars, groupAfter_of_notMem_close h, outsideChars_of_notMem_close h]

end Paren

section Search

variable {p : Char → Bool}

theorem firstOutside?_eq_none_iff (t : Text) :
    firstOutside? p t = none ↔ ∀ c ∈ outsideChars false t, p c = false := by
  rw [← map_snd_outsideFrom 0 false t, List.forall_mem_map]
  simp [firstOutside?, outsideGroups]

/-- A character that is seen and satisfies `p` is the first one when `p` fails
for all that is seen before it. -/
theorem firstOutside?_append_cons {s : Text} {c : Char} (t : Text)
    (hs : ∀ d ∈ outsideChars false s, p d = false) (hseen : groupAfter false s = true → c = ')')
    (hc : p c = true) : firstOutside? p (s ++ c :: t) = some (byteLength s) := by
  have hnone : (outsideFrom 0 false s).find? (fun entry => p entry.2) = none := by
    rw [← map_snd_outsideFrom 0 false s, List.forall_mem_map] at hs
    simpa using hs
  rw [firstOutside?, outsideGroups, outsideFrom_append, outsideFrom_cons_of_seen _ _ hseen,
    List.find?_append, hnone]
  simp [hc]

theorem filter_outsideFrom_eq_nil {c : Char} {t : Text} (offset : Nat) (inGroup : Bool)
    (h : c ∉ outsideChars inGroup t) :
    (outsideFrom offset inGroup t).filter (fun entry => entry.2 == c) = [] := by
  rw [List.filter_eq_nil_iff]
  intro entry hentry heq
  apply h
  rw [← map_snd_outsideFrom offset inGroup t, ← eq_of_beq heq]
  exact List.mem_map_of_mem hentry

theorem firstOutside?_beq_eq_none_iff (c : Char) (t : Text) :
    firstOutside? (· == c) t = none ↔ c ∉ outsideChars false t := by
  rw [firstOutside?_eq_none_iff]
  constructor
  · intro h hc
    simpa using h c hc
  · intro h d hd
    exact beq_eq_false_iff_ne.mpr fun heq => h (heq ▸ hd)

theorem firstOutside?_beq_append_cons {c : Char} {s : Text} (t : Text)
    (hs : c ∉ outsideChars false s) (hgroup : groupAfter false s = false) :
    firstOutside? (· == c) (s ++ c :: t) = some (byteLength s) := by
  have hnone := (firstOutside?_eq_none_iff s).mp ((firstOutside?_beq_eq_none_iff c s).mpr hs)
  exact firstOutside?_append_cons t hnone (by simp [hgroup]) (beq_self_eq_true c)

theorem exists_of_find?_outsideFrom {offset n : Nat} {inGroup : Bool} {c : Char} {t : Text}
    (h : (outsideFrom offset inGroup t).find? (fun entry => p entry.2) = some (n, c)) :
    ∃ before after, t = before ++ c :: after ∧ offset + byteLength before = n ∧ p c = true ∧
      (∀ d ∈ outsideChars inGroup before, p d = false) ∧
      (groupAfter inGroup before = true → c = ')') := by
  induction t generalizing offset inGroup with
  | nil => simp [outsideFrom] at h
  | cons d t ih =>
      -- Inside a group a character is passed over unless it ends the group.
      by_cases hseen : inGroup = true → d = ')'
      · rw [outsideFrom_cons_of_seen offset t hseen, List.find?_cons] at h
        cases hd : p d with
        | true =>
            simp only [hd, Option.some.injEq, Prod.mk.injEq] at h
            obtain ⟨rfl, rfl⟩ := h
            exact ⟨[], t, rfl, rfl, hd, by simp, hseen⟩
        | false =>
            simp only [hd] at h
            obtain ⟨before, after, rfl, hlength, hc, hbefore, hgroup⟩ := ih h
            refine ⟨d :: before, after, rfl, by simp [← hlength, Nat.add_assoc], hc, ?_, ?_⟩
            · rw [outsideChars_cons_of_seen before hseen]
              simpa [hd] using hbefore
            · rwa [groupAfter_cons]
      · obtain ⟨rfl, hd⟩ : inGroup = true ∧ d ≠ ')' := by simpa using hseen
        simp only [outsideFrom, if_true, hd, if_false] at h
        obtain ⟨before, after, rfl, hlength, hc, hbefore, hgroup⟩ := ih h
        exact ⟨d :: before, after, rfl, by simp [← hlength, Nat.add_assoc], hc,
          by simpa [outsideChars, hd] using hbefore, by simpa [groupAfter, hd] using hgroup⟩

/-- Conversely, a text is cut before the first character found. -/
theorem exists_of_firstOutside?_eq_some {t : Text} {n : Nat} (h : firstOutside? p t = some n) :
    ∃ before c after, t = before ++ c :: after ∧ byteLength before = n ∧ p c = true ∧
      (∀ d ∈ outsideChars false before, p d = false) ∧
      (groupAfter false before = true → c = ')') := by
  rw [firstOutside?, Option.map_eq_some_iff] at h
  obtain ⟨⟨offset, c⟩, hfind, rfl⟩ := h
  obtain ⟨before, after, ht, hlength, hc, hbefore, hgroup⟩ := exists_of_find?_outsideFrom hfind
  exact ⟨before, c, after, ht, by simpa using hlength, hc, hbefore, hgroup⟩

/-- A closing parenthesis apart, what is found stands outside every group. -/
theorem exists_of_firstOutside?_beq_eq_some {c : Char} {t : Text} {n : Nat} (hc : c ≠ ')')
    (h : firstOutside? (· == c) t = some n) :
    ∃ before after, t = before ++ c :: after ∧ byteLength before = n ∧
      c ∉ outsideChars false before ∧ groupAfter false before = false := by
  obtain ⟨before, d, after, ht, hn, hd, hbefore, hgroup⟩ := exists_of_firstOutside?_eq_some h
  obtain rfl : d = c := eq_of_beq hd
  refine ⟨before, after, ht, hn, fun hmem => ?_, ?_⟩
  · simpa using hbefore d hmem
  · rw [Bool.eq_false_iff]
    exact fun hin => hc (hgroup hin)

end Search

section Restart

/-- A scan counts from the offset at which it starts. -/
theorem outsideFrom_add (start offset : Nat) (inGroup : Bool) (t : Text) :
    outsideFrom (start + offset) inGroup t =
      (outsideFrom offset inGroup t).map (Prod.map (start + ·) id) := by
  induction t generalizing offset inGroup with
  | nil => rfl
  | cons c t ih =>
      have hrest := ih (offset + c.utf8Size)
      rw [← Nat.add_assoc] at hrest
      by_cases hseen : inGroup = true → c = ')'
      · rw [outsideFrom_cons_of_seen _ t hseen, outsideFrom_cons_of_seen _ t hseen, hrest]
        rfl
      · obtain ⟨rfl, hc⟩ : inGroup = true ∧ c ≠ ')' := by simpa using hseen
        simp [outsideFrom, hc, hrest]

/-- What a scan sees stands at the offset that comes with it. -/
theorem exists_of_mem_outsideFrom {offset n : Nat} {inGroup : Bool} {c : Char} {t : Text}
    (h : (n, c) ∈ outsideFrom offset inGroup t) :
    ∃ before after, t = before ++ c :: after ∧ offset + byteLength before = n := by
  induction t generalizing offset inGroup with
  | nil => cases h
  | cons d t ih =>
      have hskip {inside : Bool} (hrest : (n, c) ∈ outsideFrom (offset + d.utf8Size) inside t) :
          ∃ before after, d :: t = before ++ c :: after ∧ offset + byteLength before = n := by
        obtain ⟨before, after, rfl, hlength⟩ := ih hrest
        exact ⟨d :: before, after, rfl, by rw [byteLength_cons, ← Nat.add_assoc, hlength]⟩
      by_cases hseen : inGroup = true → d = ')'
      · rw [outsideFrom_cons_of_seen offset t hseen, List.mem_cons, Prod.mk.injEq] at h
        rcases h with ⟨rfl, rfl⟩ | hrest
        · exact ⟨[], t, rfl, rfl⟩
        · exact hskip hrest
      · obtain ⟨rfl, hd⟩ : inGroup = true ∧ d ≠ ')' := by simpa using hseen
        simp only [outsideFrom, if_true, hd, if_false] at h
        exact hskip h

theorem bounds_of_mem_outsideFrom {offset : Nat} {inGroup : Bool} {t : Text} {entry : Nat × Char}
    (h : entry ∈ outsideFrom offset inGroup t) :
    offset ≤ entry.1 ∧ entry.1 < offset + byteLength t := by
  obtain ⟨before, after, rfl, hlength⟩ := exists_of_mem_outsideFrom h
  have hpos := entry.2.utf8Size_pos
  rw [byteLength_append, byteLength_cons]
  omega

/-- What is seen of a beginning does not depend on what follows, whether or not it ends in a
group. -/
theorem filter_outsideFrom_append (offset : Nat) (inGroup : Bool) (s t : Text) :
    (outsideFrom offset inGroup (s ++ t)).filter (·.1 < offset + byteLength s) =
      outsideFrom offset inGroup s := by
  have hs : (outsideFrom offset inGroup s).filter (·.1 < offset + byteLength s) =
      outsideFrom offset inGroup s := by
    rw [List.filter_eq_self]
    exact fun entry hentry => decide_eq_true (bounds_of_mem_outsideFrom hentry).2
  have ht : (outsideFrom (offset + byteLength s) (groupAfter inGroup s) t).filter
      (·.1 < offset + byteLength s) = [] := by
    rw [List.filter_eq_nil_iff]
    intro entry hentry hlt
    exact Nat.not_lt.mpr (bounds_of_mem_outsideFrom hentry).1 (of_decide_eq_true hlt)
  rw [outsideFrom_append, List.filter_append, hs, ht, List.append_nil]

theorem outsideGroups_eq_filter (s t : Text) :
    outsideGroups s = (outsideGroups (s ++ t)).filter (·.1 < byteLength s) := by
  have hfilter := filter_outsideFrom_append 0 false s t
  rw [Nat.zero_add] at hfilter
  exact hfilter.symm

/-- Behind a text that leaves no group open, a scan goes on like a new one. -/
theorem outsideGroups_append {s : Text} (t : Text) (h : groupAfter false s = false) :
    outsideGroups (s ++ t) =
      outsideGroups s ++ (outsideGroups t).map (Prod.map (byteLength s + ·) id) := by
  rw [outsideGroups, outsideFrom_append, h, Nat.zero_add, ← Nat.add_zero (byteLength s),
    outsideFrom_add]
  rfl

/-- What is seen of a part that starts outside groups is what is seen of it alone. -/
theorem map_outsideGroups_part {before : Text} (part after : Text)
    (h : groupAfter false before = false) :
    (outsideGroups part).map (Prod.map (byteLength before + ·) id) =
      (outsideGroups (before ++ (part ++ after))).filter fun entry =>
        byteLength before ≤ entry.1 ∧ entry.1 < byteLength before + byteLength part := by
  have hbefore : (outsideGroups before).filter (fun entry =>
      byteLength before ≤ entry.1 ∧ entry.1 < byteLength before + byteLength part) = [] := by
    rw [List.filter_eq_nil_iff]
    intro entry hentry
    have hbounds := bounds_of_mem_outsideFrom hentry
    simp only [decide_eq_true_eq]
    omega
  have hrest : (outsideFrom (byteLength before) false (part ++ after)).filter (fun entry =>
      byteLength before ≤ entry.1 ∧ entry.1 < byteLength before + byteLength part) =
      outsideFrom (byteLength before) false part := by
    rw [← filter_outsideFrom_append (byteLength before) false part after]
    refine List.filter_congr fun entry hentry => ?_
    simp [(bounds_of_mem_outsideFrom hentry).1]
  rw [outsideGroups_append _ h, List.filter_append, hbefore, List.nil_append]
  simp only [outsideGroups, ← outsideFrom_add, Nat.add_zero, hrest]

/-- A search in a beginning finds what a search in the whole finds, if that is in the beginning. -/
theorem firstOutside?_eq_filter (p : Char → Bool) (s t : Text) :
    firstOutside? p s = (firstOutside? p (s ++ t)).filter (· < byteLength s) := by
  rw [firstOutside?, firstOutside?, outsideGroups, outsideGroups, outsideFrom_append,
    List.find?_append, Nat.zero_add]
  cases hs : (outsideFrom 0 false s).find? fun entry => p entry.2 with
  | some entry =>
      have hlt := (bounds_of_mem_outsideFrom (List.mem_of_find?_eq_some hs)).2
      rw [Nat.zero_add] at hlt
      simp [Option.filter, hlt]
  | none =>
      rw [Option.none_or, Option.map_none, eq_comm, Option.filter_eq_none_iff]
      intro n hn
      obtain ⟨entry, hentry, rfl⟩ := Option.map_eq_some_iff.mp hn
      simpa using (bounds_of_mem_outsideFrom (List.mem_of_find?_eq_some hentry)).1

end Restart

end IndentMarkup.Text
