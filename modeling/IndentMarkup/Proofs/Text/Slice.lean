import IndentMarkup.Proofs.Charset.Utf8
import IndentMarkup.Proofs.Text.Cut
import IndentMarkup.Proofs.Text.Group

/-!
Slices of a text by byte offsets. A slice is refused unless both of its ends
stand between characters, and whether they do shows in the bytes: behind such
an offset no byte goes on with a character. The offsets that scans give are of
this kind, and so are those behind what a scan has found.
-/

namespace IndentMarkup

namespace Utf8

instance : DecidablePred IsTail := fun byte =>
  inferInstanceAs (Decidable (0x80 ≤ byte.toNat ∧ byte.toNat ≤ 0xBF))

/-- The bytes can be cut here: not behind their end, nor before a byte that
goes on with a character. -/
def IsCut (n : Nat) (bytes : Bytes) : Prop :=
  n ≤ bytes.length ∧ ∀ byte ∈ bytes[n]?, ¬ IsTail byte

instance (n : Nat) (bytes : Bytes) : Decidable (IsCut n bytes) :=
  inferInstanceAs (Decidable (n ≤ bytes.length ∧ ∀ byte ∈ bytes[n]?, ¬ IsTail byte))

theorem Spells.exists_cons {bytes : Bytes} {value : Nat} (h : Spells bytes value) :
    ∃ first tail, bytes = first :: tail ∧ ¬ IsTail first ∧ ∀ byte ∈ tail, IsTail byte := by
  cases h with
  | @two a b _ ha hb _ =>
      refine ⟨a, [b], rfl, fun htail => ?_, by simpa using hb⟩
      have := htail.2
      omega
  | @three a b c _ ha hb hc _ =>
      refine ⟨a, [b, c], rfl, fun htail => ?_, by simpa using ⟨hb.isTail, hc⟩⟩
      have := htail.2
      omega
  | @four a b c d _ ha hb hc hd _ =>
      refine ⟨a, [b, c, d], rfl, fun htail => ?_, by simpa using ⟨hb.isTail, hc, hd⟩⟩
      have := htail.2
      omega

/-- A character starts with its first byte and with no other. -/
theorem exists_encodeChar_eq_cons (c : Char) :
    ∃ first tail, String.utf8EncodeChar c = first :: tail ∧ ¬ IsTail first ∧
      (∀ byte ∈ tail, IsTail byte) ∧ c.utf8Size = tail.length + 1 := by
  have hsize := String.length_utf8EncodeChar c
  by_cases hascii : c.toNat < 0x80
  · rw [encodeChar_of_lt hascii] at hsize ⊢
    refine ⟨_, [], rfl, fun htail => ?_, by simp, hsize.symm⟩
    have hbyte := toNat_ofNat_of_lt (n := c.toNat) (by omega)
    have := htail.1
    omega
  · obtain ⟨first, tail, hbytes, hfirst, htail⟩ :=
      (spells_encodeChar (Nat.not_lt.mp hascii)).exists_cons
    rw [hbytes] at hsize
    exact ⟨first, tail, hbytes, hfirst, htail, hsize.symm⟩

/-- The bytes of a text can be cut where a character starts or the text ends,
and nowhere else. -/
theorem isCut_encode_iff (n : Nat) (t : Text) : IsCut n (encode t) ↔ Text.IsBoundary n t := by
  rw [Text.isBoundary_iff_byteLength_takeBytes]
  induction t generalizing n with
  | nil => simp [IsCut, Text.takeBytes, eq_comm]
  | cons c t ih =>
      obtain ⟨first, tail, hbytes, hfirst, htail, hsize⟩ := exists_encodeChar_eq_cons c
      have hcons : encode (c :: t) = first :: (tail ++ encode t) := by
        rw [← List.cons_append, ← hbytes]
        rfl
      rw [hcons, Text.takeBytes, IsCut]
      by_cases hn : c.utf8Size ≤ n
      · -- Behind the first character the offset is one of the rest.
        obtain ⟨m, rfl⟩ := Nat.exists_eq_add_of_le hn
        have hget : (first :: (tail ++ encode t))[c.utf8Size + m]? = (encode t)[m]? := by
          have hindex : c.utf8Size + m = (tail.length + m) + 1 := by omega
          rw [hindex, List.getElem?_cons_succ, List.getElem?_append_right (by omega),
            Nat.add_sub_cancel_left]
        have hlength : c.utf8Size + m ≤ (first :: (tail ++ encode t)).length ↔
            m ≤ (encode t).length := by
          rw [List.length_cons, List.length_append]
          omega
        rw [hget, hlength, if_pos hn, Text.byteLength_cons, Nat.add_sub_cancel_left,
          Nat.add_left_cancel_iff]
        exact ih m
      · rw [if_neg hn, Text.byteLength_nil]
        cases n with
        | zero => simpa using hfirst
        | succ k =>
            have hk : k < tail.length := by omega
            have hget : (first :: (tail ++ encode t))[k + 1]? = some tail[k] := by
              rw [List.getElem?_cons_succ, List.getElem?_append_left hk,
                List.getElem?_eq_getElem hk]
            rw [hget]
            have hinside : IsTail tail[k] := htail _ (List.getElem_mem hk)
            simp [hinside]

end Utf8

namespace Text

section Boundary

theorem IsBoundary.le_byteLength {n : Nat} {t : Text} (h : IsBoundary n t) : n ≤ byteLength t := by
  obtain ⟨before, after, rfl, rfl⟩ := h
  rw [byteLength_append]
  exact Nat.le_add_right _ _

theorem isBoundary_append (s t : Text) : IsBoundary (byteLength s) (s ++ t) := ⟨s, t, rfl, rfl⟩

theorem isBoundary_behind (before : Text) (c : Char) (after : Text) :
    IsBoundary (byteLength before + c.utf8Size) (before ++ c :: after) := by
  have hbehind := isBoundary_append (before ++ [c]) after
  rwa [byteLength_append, byteLength_cons, byteLength_nil, Nat.add_zero, List.append_assoc,
    List.singleton_append] at hbehind

theorem isBoundary_byteLength (t : Text) : IsBoundary (byteLength t) t :=
  ⟨t, [], (List.append_nil t).symm, rfl⟩

/-- A boundary of what stands behind a boundary is one of the whole. -/
theorem IsBoundary.add {m n : Nat} {t : Text} (h : IsBoundary n t)
    (hm : IsBoundary m (dropBytes n t)) : IsBoundary (n + m) t := by
  obtain ⟨before, rest, rfl, rfl⟩ := h
  rw [dropBytes_byteLength_append] at hm
  obtain ⟨inner, after, rfl, rfl⟩ := hm
  exact ⟨before ++ inner, after, (List.append_assoc before inner after).symm,
    byteLength_append before inner⟩

theorem isBoundary_takeWhile (p : Char → Bool) (t : Text) :
    IsBoundary (byteLength (t.takeWhile p)) t :=
  ⟨t.takeWhile p, t.dropWhile p, List.takeWhile_append_dropWhile.symm, rfl⟩

theorem takeBytes_takeWhile (p : Char → Bool) (t : Text) :
    takeBytes (byteLength (t.takeWhile p)) t = t.takeWhile p := by
  have htake := takeBytes_byteLength_append (t.takeWhile p) (t.dropWhile p)
  rwa [List.takeWhile_append_dropWhile] at htake

theorem byteLength_takeWhile_beq {c : Char} (h : c.utf8Size = 1) (t : Text) :
    byteLength (t.takeWhile (· == c)) = countLeading c t := by
  induction t with
  | nil => rfl
  | cons d t ih =>
      rw [countLeading_cons]
      by_cases hd : d = c
      · simp [hd, h, ih, Nat.add_comm]
      · simp [hd]

/-- The number of one-byte characters in front is the offset behind them. -/
theorem isBoundary_countLeading {c : Char} (h : c.utf8Size = 1) (t : Text) :
    IsBoundary (countLeading c t) t := by
  rw [← byteLength_takeWhile_beq h]
  exact isBoundary_takeWhile _ t

/-- A text can be cut behind each character that a scan sees. -/
theorem isBoundary_of_mem_outsideGroups {n : Nat} {c : Char} {t : Text}
    (h : (n, c) ∈ outsideGroups t) : IsBoundary (n + c.utf8Size) t := by
  obtain ⟨before, after, rfl, hlength⟩ := exists_of_mem_outsideFrom h
  rw [← hlength, Nat.zero_add]
  exact isBoundary_behind before c after

theorem isBoundary_of_firstOutside? {p : Char → Bool} {n : Nat} {t : Text}
    (h : firstOutside? p t = some n) : IsBoundary n t := by
  obtain ⟨before, c, after, rfl, rfl, -⟩ := exists_of_firstOutside?_eq_some h
  exact isBoundary_append before (c :: after)

theorem isBoundary_of_firstOutside?_beq {c : Char} {n : Nat} {t : Text}
    (h : firstOutside? (· == c) t = some n) : IsBoundary (n + c.utf8Size) t := by
  obtain ⟨before, d, after, rfl, rfl, hd, -⟩ := exists_of_firstOutside?_eq_some h
  obtain rfl : d = c := eq_of_beq hd
  exact isBoundary_behind before d after

end Boundary

section Search

/-- The offset of the first character that satisfies `p`. -/
def offset? (p : Char → Bool) : Text → Option Nat
  | [] => none
  | c :: rest => if p c then some 0 else (offset? p rest).map (c.utf8Size + ·)

theorem offset?_eq (p : Char → Bool) (t : Text) :
    offset? p t = if t.any p then some (byteLength (t.takeWhile (!p ·))) else none := by
  induction t with
  | nil => rfl
  | cons c t ih =>
      rw [offset?, ih]
      cases hc : p c with
      | true => simp [hc]
      | false => cases hany : t.any p <;> simp [hc, hany]

theorem isBoundary_of_offset? {p : Char → Bool} {n : Nat} {t : Text} (h : offset? p t = some n) :
    IsBoundary n t := by
  rw [offset?_eq, Option.ite_none_right_eq_some, Option.some.injEq] at h
  rw [← h.2]
  exact isBoundary_takeWhile _ t

/-- Where a part of a text ends: before the first character that ends it, or with the text. -/
def stopOffset (p : Char → Bool) (t : Text) : Nat := (offset? p t).getD (byteLength t)

theorem stopOffset_eq (p : Char → Bool) (t : Text) :
    stopOffset p t = byteLength (t.takeWhile (!p ·)) := by
  rw [stopOffset, offset?_eq]
  split
  case isTrue => rfl
  case isFalse hnone =>
    have hall : t.takeWhile (!p ·) = t := by simpa [List.takeWhile_eq_self_iff] using hnone
    rw [hall, Option.getD_none]

end Search

section Slice

/-- The offset at which a text was to be cut and cannot be. -/
structure BadCut where
  text : Text
  offset : Nat
  deriving DecidableEq, Repr

def sliceFrom (n : Nat) (t : Text) : Except BadCut Text :=
  if Utf8.IsCut n (Utf8.encode t) then .ok (dropBytes n t) else .error ⟨t, n⟩

def sliceTo (n : Nat) (t : Text) : Except BadCut Text :=
  if Utf8.IsCut n (Utf8.encode t) then .ok (takeBytes n t) else .error ⟨t, n⟩

/-- What stands between two offsets. The first must not be behind the second. -/
def slice (first last : Nat) (t : Text) : Except BadCut Text :=
  if first ≤ last ∧ Utf8.IsCut first (Utf8.encode t) ∧ Utf8.IsCut last (Utf8.encode t) then
    .ok (dropBytes first (takeBytes last t))
  else .error ⟨t, first⟩

/-- A text that is no longer than `n` bytes stays whole. -/
def truncate (n : Nat) (t : Text) : Except BadCut Text :=
  if n ≤ byteLength t then sliceTo n t else .ok t

variable {n : Nat} {t : Text} (h : IsBoundary n t)

include h

theorem IsBoundary.sliceFrom_eq : sliceFrom n t = .ok (dropBytes n t) :=
  if_pos ((Utf8.isCut_encode_iff n t).mpr h)

theorem IsBoundary.sliceTo_eq : sliceTo n t = .ok (takeBytes n t) :=
  if_pos ((Utf8.isCut_encode_iff n t).mpr h)

theorem IsBoundary.truncate_eq : truncate n t = .ok (takeBytes n t) := by
  rw [truncate, if_pos h.le_byteLength, h.sliceTo_eq]

theorem IsBoundary.slice_eq {m : Nat} (hm : IsBoundary m (dropBytes n t)) :
    slice n (n + m) t = .ok (takeBytes m (dropBytes n t)) := by
  have hfirst := (Utf8.isCut_encode_iff n t).mpr h
  have hlast := (Utf8.isCut_encode_iff (n + m) t).mpr (h.add hm)
  obtain ⟨before, rest, rfl, rfl⟩ := h
  rw [dropBytes_byteLength_append] at hm
  obtain ⟨inner, after, rfl, rfl⟩ := hm
  rw [slice, if_pos ⟨Nat.le_add_right _ _, hfirst, hlast⟩, dropBytes_byteLength_append,
    takeBytes_byteLength_append, ← byteLength_append, ← List.append_assoc,
    takeBytes_byteLength_append, dropBytes_byteLength_append]

end Slice

end Text

end IndentMarkup
