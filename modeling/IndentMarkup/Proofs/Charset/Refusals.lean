import IndentMarkup.Proofs.Charset.Inverse
import Mathlib.Order.Bounds.Defs

/-!
Bytes that are not UTF-8. They are whole characters up to some place, and no whole character starts
there. How they are refused depends only on which bytes some character can start with: the bounds
on the next byte are exact, since every begun character can be completed.
-/

namespace IndentMarkup.Utf8

/-- Whether the encoding of some character starts with these bytes. -/
def StartsCharacter (bytes : Bytes) : Prop := ∃ c, bytes <+: String.utf8EncodeChar c

/-- How many bytes of `rest` a refusal names: one if the first byte starts no character, else
those of the longest beginning that starts one. -/
def RefusedLength (rest : Bytes) (length : Nat) : Prop :=
  (¬ StartsCharacter (rest.take 1) → length = 1) ∧
    (StartsCharacter (rest.take 1) →
      IsGreatest {n | n ≤ rest.length ∧ StartsCharacter (rest.take n)} length)

def Malformed.index : Malformed → Nat
  | invalid index _ => index
  | incomplete index => index

theorem StartsCharacter.of_isPrefix {front bytes : Bytes} (h : StartsCharacter bytes)
    (hfront : front <+: bytes) : StartsCharacter front := by
  obtain ⟨c, hc⟩ := h
  exact ⟨c, hfront.trans hc⟩

namespace Pending

/-- Whether more bytes behind these can complete a begun character. -/
def Begins (begun : Pending) (bytes : Bytes) : Prop :=
  ∃ more value, begun.Completes (bytes ++ more) value

variable {begun : Pending} {byte : UInt8} {bytes : Bytes} {missing : Nat}

theorem admits_after (begun : Pending) (missing : Nat) (byte : UInt8) :
    (begun.after missing byte).Admits 0x80 :=
  ⟨Nat.le_refl 0x80, (by decide : 0x80 ≤ 0xBF)⟩

theorem Completes.admits {tail : Bytes} {value : Nat} (h : begun.Completes (byte :: tail) value) :
    begun.Admits byte := by
  cases h with
  | last _ hadmits => exact hadmits
  | next _ hadmits => exact hadmits

theorem completes_cons_iff {tail : Bytes} {value : Nat} (hmissing : begun.missing = missing + 1)
    (h : begun.Admits byte) :
    begun.Completes (byte :: tail) value ↔ (begun.after missing byte).Completes tail value := by
  constructor
  · intro h
    cases h with
    | last hlast => exact absurd hlast (by omega)
    | next hnext _ htail =>
        obtain rfl := Nat.succ.inj (hmissing.symm.trans hnext)
        exact htail
  · exact .next hmissing h

/-- A begun character can always be completed. -/
theorem begins_nil (h : begun.Admits byte) : begun.Begins [] := by
  rw [Begins]
  induction hmissing : begun.missing generalizing begun byte with
  | zero => exact ⟨[byte], _, .last hmissing h rfl⟩
  | succ missing ih =>
      obtain ⟨more, value, hmore⟩ := ih (begun.admits_after missing byte) rfl
      exact ⟨byte :: more, value, .next hmissing h hmore⟩

theorem begins_cons_iff (hmissing : begun.missing = missing + 1) (h : begun.Admits byte) :
    begun.Begins (byte :: bytes) ↔ (begun.after missing byte).Begins bytes :=
  exists₂_congr fun _ _ => completes_cons_iff hmissing h

theorem not_begins_cons (h : ¬ begun.Admits byte) : ¬ begun.Begins (byte :: bytes) := by
  rintro ⟨more, value, hmore⟩
  exact h hmore.admits

end Pending

section Begun

variable {begun : Pending} {bytes : Bytes}

/-- Bytes that do not complete a begun character either end within it, or hold a first byte with
which it cannot go on. -/
theorem decodeFrom_of_not_completes {admitted : UInt8} (hopen : begun.Admits admitted)
    (hnone : ∀ tail value, begun.Completes tail value → ¬ tail <+: bytes) (offset : Nat) :
    begun.Begins bytes ∧
        decodeFrom offset (some begun) bytes = .error (.incomplete begun.index) ∨
      ∃ front byte rest, bytes = front ++ byte :: rest ∧ begun.Begins front ∧
        ¬ begun.Begins (front ++ [byte]) ∧
        decodeFrom offset (some begun) bytes =
          .error (.invalid begun.index (begun.seen + front.length)) := by
  -- The begun character is general, since each byte that it admits is one more that it has seen.
  induction bytes generalizing begun admitted offset with
  | nil => exact .inl ⟨Pending.begins_nil hopen, rfl⟩
  | cons byte bytes ih =>
      by_cases hadmits : begun.Admits byte
      case neg =>
        exact .inr ⟨[], byte, bytes, rfl, Pending.begins_nil hopen,
          Pending.not_begins_cons hadmits, decodeFrom_of_not_admits offset bytes hadmits⟩
      rw [decodeFrom_of_admits offset bytes hadmits]
      cases hmissing : begun.missing with
      | zero =>
          exact absurd (List.prefix_append [byte] bytes) (hnone _ _ (.last hmissing hadmits rfl))
      | succ missing =>
          have hbegins (bytes : Bytes) : begun.Begins (byte :: bytes) ↔
              (begun.after missing byte).Begins bytes := Pending.begins_cons_iff hmissing hadmits
          have hnone' (tail : Bytes) (value : Nat)
              (htail : (begun.after missing byte).Completes tail value) : ¬ tail <+: bytes :=
            fun hprefix => hnone _ _ (.next hmissing hadmits htail)
              ((List.prefix_cons_inj byte).mpr hprefix)
          obtain ⟨hbytes, hdecode⟩ | ⟨front, last, rest, rfl, hfront, hlast, hdecode⟩ :=
            ih (begun.admits_after missing byte) hnone' (offset + 1)
          · exact .inl ⟨(hbegins _).mpr hbytes, hdecode⟩
          · have hseen : begun.seen + 1 + front.length = begun.seen + (front.length + 1) := by omega
            refine .inr ⟨byte :: front, last, rest, rfl, (hbegins _).mpr hfront, ?_, ?_⟩
            · exact fun h => hlast ((hbegins _).mp h)
            · rw [List.length_cons, ← hseen]
              exact hdecode

end Begun

section First

variable {first : UInt8} {bytes : Bytes}

theorem exists_admits_of_lead? {index : Nat} {begun : Pending}
    (h : lead? index first = some begun) : ∃ byte, begun.Admits byte := by
  have hsecond : secondLow first ≤ secondHigh first ∧ secondLow first < 0x100 := by
    simp only [secondLow, secondHigh]
    split_ifs <;> omega
  have hbyte := toNat_ofNat_of_lt hsecond.2
  refine ⟨UInt8.ofNat (secondLow first), ?_⟩
  rw [lead?_eq] at h
  split_ifs at h <;> obtain rfl := Option.some.inj h <;>
    exact ⟨Nat.le_of_eq hbyte.symm, Nat.le_trans (Nat.le_of_eq hbyte) hsecond.1⟩

/-- A byte outside ASCII that starts a character announces how it goes on. -/
theorem exists_lead?_of_isPrefix {c : Char} (hfirst : 0x80 ≤ first.toNat)
    (h : first :: bytes <+: String.utf8EncodeChar c) (index : Nat) :
    ∃ begun, lead? index first = some begun ∧ begun.Begins bytes := by
  obtain ⟨more, hmore⟩ := h
  have hchar : 0x80 ≤ c.toNat := by
    refine Nat.le_of_not_lt fun hascii => ?_
    rw [encodeChar_of_lt hascii] at hmore
    obtain ⟨rfl, -⟩ := List.cons.inj hmore
    rw [toNat_ofNat_of_lt (by omega)] at hfirst
    omega
  obtain ⟨_, begun, tail, hbytes, -, hlead, htail⟩ :=
    exists_lead?_of_spells (spells_encodeChar hchar) index
  obtain ⟨rfl, rfl⟩ := List.cons.inj (hmore.trans hbytes)
  exact ⟨begun, hlead, more, _, htail⟩

theorem startsCharacter_cons_iff {index : Nat} {begun : Pending} (hfirst : 0x80 ≤ first.toNat)
    (hlead : lead? index first = some begun) :
    StartsCharacter (first :: bytes) ↔ begun.Begins bytes := by
  constructor
  · rintro ⟨c, hc⟩
    obtain ⟨_, hlead', hbegins⟩ := exists_lead?_of_isPrefix hfirst hc index
    obtain rfl := Option.some.inj (hlead.symm.trans hlead')
    exact hbegins
  · rintro ⟨more, value, hmore⟩
    exact ⟨Char.ofNat value, more, (spells_of_lead? hlead hmore).encodeChar_eq.symm⟩

theorem seen_index_of_lead? {index : Nat} {begun : Pending} (h : lead? index first = some begun) :
    begun.seen = 1 ∧ begun.index = index := by
  rw [lead?_eq] at h
  split_ifs at h <;> obtain rfl := Option.some.inj h <;> exact ⟨rfl, rfl⟩

end First

section Refused

/-- How bytes are refused that start with no whole character. -/
inductive Refused (index : Nat) : Bytes → Malformed → Prop
  | incomplete {rest : Bytes} (hrest : StartsCharacter rest) :
      Refused index rest (.incomplete index)
  | stray {byte : UInt8} {rest : Bytes} (hbyte : ¬ StartsCharacter [byte]) :
      Refused index (byte :: rest) (.invalid index 1)
  | broken {front rest : Bytes} {byte : UInt8} (hne : front ≠ []) (hfront : StartsCharacter front)
      (hbyte : ¬ StartsCharacter (front ++ [byte])) :
      Refused index (front ++ byte :: rest) (.invalid index front.length)

variable {index : Nat} {first : UInt8} {bytes rest : Bytes}

theorem exists_refused_of_lead? {begun : Pending} (hfirst : 0x80 ≤ first.toNat)
    (hlead : lead? index first = some begun)
    (hnone : ∀ c, ¬ String.utf8EncodeChar c <+: first :: bytes) :
    ∃ cause, decodeFrom index none (first :: bytes) = .error cause ∧
      Refused index (first :: bytes) cause := by
  obtain ⟨hseen, rfl⟩ := seen_index_of_lead? hlead
  obtain ⟨admitted, hopen⟩ := exists_admits_of_lead? hlead
  have hstarts (bytes : Bytes) : StartsCharacter (first :: bytes) ↔ begun.Begins bytes :=
    startsCharacter_cons_iff hfirst hlead
  have hnone' (tail : Bytes) (value : Nat) (htail : begun.Completes tail value) :
      ¬ tail <+: bytes := by
    intro hprefix
    refine hnone (Char.ofNat value) ?_
    rw [(spells_of_lead? hlead htail).encodeChar_eq]
    exact (List.prefix_cons_inj first).mpr hprefix
  rw [decodeFrom_lead _ _ hfirst hlead]
  obtain ⟨hbytes, hdecode⟩ | ⟨front, byte, rest, rfl, hfront, hbyte, hdecode⟩ :=
    decodeFrom_of_not_completes hopen hnone' (begun.index + 1)
  · exact ⟨_, hdecode, .incomplete ((hstarts _).mpr hbytes)⟩
  · have hlength : begun.seen + front.length = (first :: front).length := by
      rw [hseen, List.length_cons, Nat.add_comm]
    refine ⟨_, hdecode, ?_⟩
    rw [hlength]
    exact .broken (List.cons_ne_nil _ _) ((hstarts _).mpr hfront) fun h => hbyte ((hstarts _).mp h)

theorem exists_refused (hne : rest ≠ []) (hnone : ∀ c, ¬ String.utf8EncodeChar c <+: rest)
    (index : Nat) :
    ∃ cause, decodeFrom index none rest = .error cause ∧ Refused index rest cause := by
  obtain ⟨first, bytes, rfl⟩ := List.exists_cons_of_ne_nil hne
  have hfirst : 0x80 ≤ first.toNat := by
    refine Nat.le_of_not_lt fun hascii => hnone (Char.ofNat first.toNat) ?_
    rw [encodeChar_ofNat_byte hascii]
    exact List.prefix_append [first] bytes
  cases hlead : lead? index first with
  | some begun => exact exists_refused_of_lead? hfirst hlead hnone
  | none =>
      refine ⟨.invalid index 1, ?_, .stray ?_⟩
      · rw [decodeFrom, if_neg (by omega), hlead]
      · rintro ⟨c, hc⟩
        obtain ⟨_, hlead', -⟩ := exists_lead?_of_isPrefix hfirst hc index
        cases hlead.symm.trans hlead'

theorem exists_encode_append (bytes : Bytes) :
    ∃ before rest, bytes = encode before ++ rest ∧ ∀ c, ¬ String.utf8EncodeChar c <+: rest := by
  by_cases hchar : ∃ c, String.utf8EncodeChar c <+: bytes
  · obtain ⟨c, rest, hrest⟩ := hchar
    have hshorter : rest.length < bytes.length := by
      have hpos := c.utf8Size_pos
      rw [← hrest, List.length_append, String.length_utf8EncodeChar]
      omega
    obtain ⟨before, rest', rfl, hnone⟩ := exists_encode_append rest
    refine ⟨c :: before, rest', ?_, hnone⟩
    rw [← hrest, ← List.append_assoc]
    rfl
  · exact ⟨[], bytes, rfl, not_exists.mp hchar⟩
termination_by bytes.length

/-- Bytes that do not decode are whole characters, and then bytes that start with none. -/
theorem exists_of_decode_eq_error {cause : Malformed} (h : decode bytes = .error cause) :
    ∃ before rest, bytes = encode before ++ rest ∧ rest ≠ [] ∧
      (∀ c, ¬ String.utf8EncodeChar c <+: rest) ∧ Refused (encode before).length rest cause := by
  obtain ⟨before, rest, rfl, hnone⟩ := exists_encode_append bytes
  rw [decode, decodeFrom_encode_append, Nat.zero_add] at h
  have hne : rest ≠ [] := by
    rintro rfl
    cases h
  obtain ⟨cause', hdecode, hrefused⟩ := exists_refused hne hnone (encode before).length
  rw [hdecode] at h
  obtain rfl := Except.error.inj h
  exact ⟨before, rest, rfl, hne, hnone, hrefused⟩

theorem exists_encode_eq_append_iff {before : Text} :
    (∃ text, encode text = encode before ++ rest) ↔ ∃ text, encode text = rest := by
  constructor
  · rintro ⟨text, htext⟩
    have hdecode := decode_eq_ok_iff.mpr htext
    rw [decode, decodeFrom_encode_append] at hdecode
    cases hrest : decodeFrom (0 + (encode before).length) none rest with
    | error cause =>
        rw [hrest] at hdecode
        cases hdecode
    | ok text => exact ⟨text, encode_of_decodeFrom hrest⟩
  · rintro ⟨text, rfl⟩
    exact ⟨before ++ text, encode_append before text⟩

theorem exists_isPrefix_of_encode_eq {text : Text} (h : encode text = rest) (hne : rest ≠ []) :
    ∃ c, String.utf8EncodeChar c <+: rest := by
  cases text with
  | nil => exact absurd h.symm hne
  | cons c text => exact ⟨c, encode text, h⟩

/-- Bytes that start with no whole character can be completed exactly if they start one. -/
theorem exists_encode_eq_append_more_iff (hne : rest ≠ [])
    (hnone : ∀ c, ¬ String.utf8EncodeChar c <+: rest) :
    (∃ more, more ≠ [] ∧ ∃ text, encode text = rest ++ more) ↔ StartsCharacter rest := by
  constructor
  · rintro ⟨more, -, text, htext⟩
    obtain ⟨c, hc⟩ := exists_isPrefix_of_encode_eq htext (List.append_ne_nil_of_left_ne_nil hne _)
    obtain hshort | hlong := List.prefix_or_prefix_of_prefix hc (List.prefix_append rest more)
    · exact absurd hshort (hnone c)
    · exact ⟨c, hlong⟩
  · rintro ⟨c, more, hmore⟩
    refine ⟨more, ?_, [c], ?_⟩
    · rintro rfl
      rw [List.append_nil] at hmore
      exact hnone c (hmore ▸ List.prefix_rfl)
    · rw [hmore, encode, List.flatMap_singleton]

theorem Refused.index_eq {cause : Malformed} (h : Refused index rest cause) :
    cause.index = index := by
  cases h with
  | incomplete => rfl
  | stray => rfl
  | broken => rfl

theorem Refused.incomplete_iff {cause : Malformed} (h : Refused index rest cause) :
    cause = .incomplete index ↔ StartsCharacter rest := by
  cases h with
  | incomplete hrest => exact iff_of_true rfl hrest
  | @stray byte rest hbyte =>
      exact iff_of_false nofun fun h => hbyte (h.of_isPrefix (List.prefix_append [byte] rest))
  | @broken front rest byte _ _ hbyte =>
      refine iff_of_false nofun fun h => hbyte (h.of_isPrefix ⟨rest, ?_⟩)
      rw [List.append_assoc, List.singleton_append]

theorem Refused.refusedLength {index' length : Nat}
    (h : Refused index rest (.invalid index' length)) : RefusedLength rest length := by
  cases h with
  | stray hbyte => exact ⟨fun _ => rfl, fun h => absurd h hbyte⟩
  | @broken front rest byte hne hfront hbyte =>
      have hlength : (front ++ byte :: rest).length = front.length + (rest.length + 1) := by
        rw [List.length_append, List.length_cons]
      have hfirst : (front ++ byte :: rest).take 1 <+: front := by
        obtain ⟨first, front, rfl⟩ := List.exists_cons_of_ne_nil hne
        exact List.prefix_append [first] front
      refine ⟨fun h => absurd (hfront.of_isPrefix hfirst) h, fun _ => ⟨⟨by omega, ?_⟩, ?_⟩⟩
      · rwa [List.take_left]
      · rintro n ⟨-, hn⟩
        refine Nat.le_of_not_lt fun hlt => hbyte (hn.of_isPrefix ?_)
        have htake : (front ++ byte :: rest).take (front.length + 1) = front ++ [byte] := by
          rw [List.take_length_add_append]
          rfl
        rw [← htake]
        exact List.take_prefix_take_left hlt

end Refused

end IndentMarkup.Utf8
