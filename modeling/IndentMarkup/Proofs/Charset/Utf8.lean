import IndentMarkup.Proofs.Charset
import Mathlib.Tactic.SplitIfs

/-!
The decoder of UTF-8 inverts the encoder, and nothing else decodes. Between the two stands the
table of the forms that a character outside ASCII has. The encoder writes the form of a character.
The decoder reads a form one byte at a time, and completes no other bytes.
-/

namespace IndentMarkup.Utf8

section Forms

/-- The least second byte. Anything below it would be an overlong form. -/
def secondLow (first : UInt8) : Nat :=
  if first.toNat = 0xE0 then 0xA0 else if first.toNat = 0xF0 then 0x90 else 0x80

/-- The greatest second byte. Anything above it would be a surrogate or out of range. -/
def secondHigh (first : UInt8) : Nat :=
  if first.toNat = 0xED then 0x9F else if first.toNat = 0xF4 then 0x8F else 0xBF

def IsSecond (first byte : UInt8) : Prop :=
  secondLow first ≤ byte.toNat ∧ byte.toNat ≤ secondHigh first

def IsTail (byte : UInt8) : Prop := 0x80 ≤ byte.toNat ∧ byte.toNat ≤ 0xBF

/-- The forms of a character outside ASCII, with the number of the character. -/
inductive Spells : Bytes → Nat → Prop
  | two {a b : UInt8} {value : Nat} (ha : 0xC2 ≤ a.toNat ∧ a.toNat ≤ 0xDF) (hb : IsTail b)
      (hvalue : value = (a.toNat - 0xC0) * 64 + b.toNat % 64) : Spells [a, b] value
  | three {a b c : UInt8} {value : Nat} (ha : 0xE0 ≤ a.toNat ∧ a.toNat ≤ 0xEF)
      (hb : IsSecond a b) (hc : IsTail c)
      (hvalue : value = ((a.toNat - 0xE0) * 64 + b.toNat % 64) * 64 + c.toNat % 64) :
      Spells [a, b, c] value
  | four {a b c d : UInt8} {value : Nat} (ha : 0xF0 ≤ a.toNat ∧ a.toNat ≤ 0xF4)
      (hb : IsSecond a b) (hc : IsTail c) (hd : IsTail d)
      (hvalue : value =
        (((a.toNat - 0xF0) * 64 + b.toNat % 64) * 64 + c.toNat % 64) * 64 + d.toNat % 64) :
      Spells [a, b, c, d] value

theorem isSecond_iff_isTail {first : UInt8} (h : first.toNat ≤ 0xDF) (byte : UInt8) :
    IsSecond first byte ↔ IsTail byte := by
  simp only [IsSecond, IsTail, secondLow, secondHigh]
  split_ifs <;> omega

theorem IsSecond.isTail {first byte : UInt8} (h : IsSecond first byte) : IsTail byte := by
  simp only [IsSecond, secondLow, secondHigh] at h
  rw [IsTail]
  split_ifs at h <;> omega

variable {bytes : Bytes} {value : Nat}

theorem Spells.isValidChar (h : Spells bytes value) : 0x80 ≤ value ∧ value.isValidChar := by
  rw [Nat.isValidChar]
  cases h with
  | two ha hb hvalue =>
      obtain ⟨hb, hb'⟩ := hb
      omega
  | three ha hb hc hvalue =>
      obtain ⟨hc, hc'⟩ := hc
      simp only [IsSecond, secondLow, secondHigh] at hb
      split_ifs at hb <;> omega
  | four ha hb hc hd hvalue =>
      obtain ⟨hc, hc'⟩ := hc
      obtain ⟨hd, hd'⟩ := hd
      simp only [IsSecond, secondLow, secondHigh] at hb
      split_ifs at hb <;> omega

theorem toNat_ofNat_of_lt {n : Nat} (h : n < 0x100) : (UInt8.ofNat n).toNat = n := by
  rw [UInt8.toNat_ofNat', Nat.mod_eq_of_lt h]

/-- The encoder writes a character outside ASCII in its form. -/
theorem spells_encodeChar {c : Char} (h : 0x80 ≤ c.toNat) :
    Spells (String.utf8EncodeChar c) c.toNat := by
  have hvalid : c.toNat < 0xD800 ∨ 0xDFFF < c.toNat ∧ c.toNat < 0x110000 := c.valid
  have hval : c.val.toNat = c.toNat := rfl
  simp only [String.utf8EncodeChar, hval]
  generalize c.toNat = value at h hvalid
  have htail (n : Nat) : (UInt8.ofNat (n % 64 + 0x80)).toNat = n % 64 + 0x80 :=
    toNat_ofNat_of_lt (by omega)
  rw [if_neg (by omega)]
  split_ifs with htwo hthree
  · have ha : (UInt8.ofNat (value / 64 % 32 + 0xC0)).toNat = value / 64 % 32 + 0xC0 :=
      toNat_ofNat_of_lt (by omega)
    have hb := htail value
    exact .two (by omega) ⟨by omega, by omega⟩ (by omega)
  · have ha : (UInt8.ofNat (value / 4096 % 16 + 0xE0)).toNat = value / 4096 % 16 + 0xE0 :=
      toNat_ofNat_of_lt (by omega)
    have hb := htail (value / 64)
    have hc := htail value
    refine .three (by omega) ?_ ⟨by omega, by omega⟩ (by omega)
    simp only [IsSecond, secondLow, secondHigh, ha, hb]
    split_ifs <;> omega
  · have ha : (UInt8.ofNat (value / 262144 % 8 + 0xF0)).toNat = value / 262144 % 8 + 0xF0 :=
      toNat_ofNat_of_lt (by omega)
    have hb := htail (value / 4096)
    have hc := htail (value / 64)
    have hd := htail value
    refine .four (by omega) ?_ ⟨by omega, by omega⟩ ⟨by omega, by omega⟩ (by omega)
    simp only [IsSecond, secondLow, secondHigh, ha, hb]
    split_ifs <;> omega

/-- A form is what the encoder writes for its number, so a character has one form only. -/
theorem Spells.encodeChar_eq (h : Spells bytes value) :
    String.utf8EncodeChar (Char.ofNat value) = bytes := by
  obtain ⟨hascii, hvalid⟩ := h.isValidChar
  have hval : (Char.ofNat value).val.toNat = value := by
    rw [Char.ofNat, dif_pos hvalid]
    rfl
  have hbyte {n : Nat} {byte : UInt8} (h : n = byte.toNat) : UInt8.ofNat n = byte := by
    rw [h, UInt8.ofNat_toNat]
  simp only [String.utf8EncodeChar, hval]
  cases h with
  | two ha hb hvalue =>
      obtain ⟨hb, hb'⟩ := hb
      rw [if_neg (by omega), if_pos (by omega)]
      simp only [List.cons.injEq, and_true]
      refine ⟨hbyte ?_, hbyte ?_⟩ <;> omega
  | three ha hb hc hvalue =>
      obtain ⟨hb', hb''⟩ := hb.isTail
      obtain ⟨hc, hc'⟩ := hc
      have hlong : 0x800 ≤ value := by
        simp only [IsSecond, secondLow, secondHigh] at hb
        split_ifs at hb <;> omega
      rw [if_neg (by omega), if_neg (by omega), if_pos (by omega)]
      simp only [List.cons.injEq, and_true]
      refine ⟨hbyte ?_, hbyte ?_, hbyte ?_⟩ <;> omega
  | four ha hb hc hd hvalue =>
      obtain ⟨hb', hb''⟩ := hb.isTail
      obtain ⟨hc, hc'⟩ := hc
      obtain ⟨hd, hd'⟩ := hd
      have hlong : 0x10000 ≤ value := by
        simp only [IsSecond, secondLow, secondHigh] at hb
        split_ifs at hb <;> omega
      rw [if_neg (by omega), if_neg (by omega), if_neg (by omega)]
      simp only [List.cons.injEq, and_true]
      refine ⟨hbyte ?_, hbyte ?_, hbyte ?_, hbyte ?_⟩ <;> omega

theorem encodeChar_of_lt {c : Char} (h : c.toNat < 0x80) :
    String.utf8EncodeChar c = [UInt8.ofNat c.toNat] := by
  have hval : c.val.toNat = c.toNat := rfl
  simp only [String.utf8EncodeChar, hval]
  rw [if_pos (by omega)]

theorem encodeChar_ofNat_byte {byte : UInt8} (h : byte.toNat < 0x80) :
    String.utf8EncodeChar (Char.ofNat byte.toNat) = [byte] := by
  have hnumber := Charset.toNat_ofNat_byte byte
  rw [encodeChar_of_lt (by omega), hnumber, UInt8.ofNat_toNat]

end Forms

namespace Pending

def valueWith (begun : Pending) (byte : UInt8) : Nat := begun.value * 64 + byte.toNat % 64

def after (begun : Pending) (missing : Nat) (byte : UInt8) : Pending :=
  { index := begun.index, seen := begun.seen + 1, missing, value := begun.valueWith byte }

/-- Whether a character can go on with this byte. -/
def Admits (begun : Pending) (byte : UInt8) : Prop :=
  begun.low ≤ byte.toNat ∧ byte.toNat ≤ begun.high

instance (begun : Pending) (byte : UInt8) : Decidable (begun.Admits byte) :=
  inferInstanceAs (Decidable (_ ∧ _))

/-- The bytes that complete a begun character, with the number of the character. -/
inductive Completes : Pending → Bytes → Nat → Prop
  | last {begun : Pending} {byte : UInt8} {value : Nat} (hmissing : begun.missing = 0)
      (hadmits : begun.Admits byte) (hvalue : value = begun.valueWith byte) :
      Completes begun [byte] value
  | next {begun : Pending} {byte : UInt8} {tail : Bytes} {missing value : Nat}
      (hmissing : begun.missing = missing + 1) (hadmits : begun.Admits byte)
      (htail : Completes (begun.after missing byte) tail value) :
      Completes begun (byte :: tail) value

end Pending

section Begun

variable {begun : Pending} {byte : UInt8}

theorem decodeFrom_of_admits (offset : Nat) (rest : Bytes) (h : begun.Admits byte) :
    decodeFrom offset (some begun) (byte :: rest) =
      match begun.missing with
      | 0 => (decodeFrom (offset + 1) none rest).map (Char.ofNat (begun.valueWith byte) :: ·)
      | missing + 1 => decodeFrom (offset + 1) (some (begun.after missing byte)) rest := by
  rw [decodeFrom]
  exact if_pos h

theorem decodeFrom_of_not_admits (offset : Nat) (rest : Bytes) (h : ¬ begun.Admits byte) :
    decodeFrom offset (some begun) (byte :: rest) = .error (.invalid begun.index begun.seen) := by
  rw [decodeFrom]
  exact if_neg h

theorem decodeFrom_append_of_completes {tail : Bytes} {value : Nat}
    (h : begun.Completes tail value) (offset : Nat) (rest : Bytes) :
    decodeFrom offset (some begun) (tail ++ rest) =
      (decodeFrom (offset + tail.length) none rest).map (Char.ofNat value :: ·) := by
  induction h generalizing offset with
  | last hmissing hadmits hvalue =>
      rw [List.singleton_append, decodeFrom_of_admits offset rest hadmits, hmissing, hvalue]
      rfl
  | @next _ _ tail _ _ hmissing hadmits _ ih =>
      have hlength : offset + 1 + tail.length = offset + (tail.length + 1) := by omega
      rw [List.cons_append, decodeFrom_of_admits offset _ hadmits, hmissing]
      simp only [ih, hlength, List.length_cons]

theorem exists_completes_of_decodeFrom {offset : Nat} {bytes : Bytes} {text : Text}
    (h : decodeFrom offset (some begun) bytes = .ok text) :
    ∃ tail rest value offset' following, bytes = tail ++ rest ∧ begun.Completes tail value ∧
      decodeFrom offset' none rest = .ok following ∧ text = Char.ofNat value :: following := by
  induction bytes generalizing begun offset with
  | nil => cases h
  | cons byte bytes ih =>
      by_cases hadmits : begun.Admits byte
      case neg =>
        rw [decodeFrom_of_not_admits offset bytes hadmits] at h
        cases h
      rw [decodeFrom_of_admits offset bytes hadmits] at h
      cases hmissing : begun.missing with
      | zero =>
          simp only [hmissing] at h
          cases hrest : decodeFrom (offset + 1) none bytes with
          | error cause => simp [hrest, Except.map] at h
          | ok following =>
              rw [hrest] at h
              exact ⟨[byte], bytes, _, _, following, rfl, .last hmissing hadmits rfl, hrest,
                (Except.ok.inj h).symm⟩
      | succ missing =>
          simp only [hmissing] at h
          obtain ⟨tail, rest, value, _, following, rfl, htail, hrest, htext⟩ := ih h
          exact ⟨byte :: tail, rest, value, _, following, rfl, .next hmissing hadmits htail,
            hrest, htext⟩

end Begun

section First

def announced (index missing base : Nat) (first : UInt8) : Pending :=
  { index, seen := 1, missing, value := first.toNat - base,
    low := secondLow first, high := secondHigh first }

theorem lead?_eq (index : Nat) (first : UInt8) :
    lead? index first =
      if 0xC2 ≤ first.toNat ∧ first.toNat ≤ 0xDF then some (announced index 0 0xC0 first)
      else if 0xE0 ≤ first.toNat ∧ first.toNat ≤ 0xEF then some (announced index 1 0xE0 first)
      else if 0xF0 ≤ first.toNat ∧ first.toNat ≤ 0xF4 then some (announced index 2 0xF0 first)
      else none := by
  unfold lead? announced secondLow secondHigh
  grind

theorem spells_of_lead? {index : Nat} {first : UInt8} {begun : Pending} {tail : Bytes}
    {value : Nat} (hlead : lead? index first = some begun) (htail : begun.Completes tail value) :
    Spells (first :: tail) value := by
  rw [lead?_eq] at hlead
  split_ifs at hlead with htwo hthree hfour <;> obtain rfl := Option.some.inj hlead
  -- As many bytes follow as the first one announces, and no more.
  · cases htail with
    | next hmissing => cases hmissing
    | last _ hb hvalue => exact .two htwo ((isSecond_iff_isTail htwo.2 _).mp hb) hvalue
  · cases htail with
    | last hmissing => cases hmissing
    | next hmissing hb htail =>
        cases hmissing
        cases htail with
        | next hmissing => cases hmissing
        | last _ hc hvalue => exact .three hthree hb hc hvalue
  · cases htail with
    | last hmissing => cases hmissing
    | next hmissing hb htail =>
        cases hmissing
        cases htail with
        | last hmissing => cases hmissing
        | next hmissing hc htail =>
            cases hmissing
            cases htail with
            | next hmissing => cases hmissing
            | last _ hd hvalue => exact .four hfour hb hc hd hvalue

theorem exists_lead?_of_spells {bytes : Bytes} {value : Nat} (h : Spells bytes value)
    (index : Nat) :
    ∃ first begun tail, bytes = first :: tail ∧ 0x80 ≤ first.toNat ∧
      lead? index first = some begun ∧ begun.Completes tail value := by
  cases h with
  | @two a b _ ha hb hvalue =>
      refine ⟨a, announced index 0 0xC0 a, [b], rfl, by omega, ?_, ?_⟩
      · rw [lead?_eq, if_pos ha]
      · exact .last rfl ((isSecond_iff_isTail ha.2 _).mpr hb) hvalue
  | @three a b c _ ha hb hc hvalue =>
      refine ⟨a, announced index 1 0xE0 a, [b, c], rfl, by omega, ?_, ?_⟩
      · rw [lead?_eq, if_neg (by omega), if_pos ha]
      · exact .next rfl hb (.last rfl hc hvalue)
  | @four a b c d _ ha hb hc hd hvalue =>
      refine ⟨a, announced index 2 0xF0 a, [b, c, d], rfl, by omega, ?_, ?_⟩
      · rw [lead?_eq, if_neg (by omega), if_neg (by omega), if_pos ha]
      · exact .next rfl hb (.next rfl hc (.last rfl hd hvalue))

theorem decodeFrom_ascii (offset : Nat) (rest : Bytes) {byte : UInt8} (h : byte.toNat < 0x80) :
    decodeFrom offset none (byte :: rest) =
      (decodeFrom (offset + 1) none rest).map (Char.ofNat byte.toNat :: ·) := by
  rw [decodeFrom, if_pos h]

theorem decodeFrom_lead (offset : Nat) (rest : Bytes) {byte : UInt8} {begun : Pending}
    (h : 0x80 ≤ byte.toNat) (hlead : lead? offset byte = some begun) :
    decodeFrom offset none (byte :: rest) = decodeFrom (offset + 1) (some begun) rest := by
  rw [decodeFrom, if_neg (by omega), hlead]

end First

section Whole

theorem decodeFrom_encodeChar_append (offset : Nat) (c : Char) (rest : Bytes) :
    decodeFrom offset none (String.utf8EncodeChar c ++ rest) =
      (decodeFrom (offset + (String.utf8EncodeChar c).length) none rest).map (c :: ·) := by
  by_cases hascii : c.toNat < 0x80
  · have hbyte : (UInt8.ofNat c.toNat).toNat = c.toNat := toNat_ofNat_of_lt (by omega)
    rw [encodeChar_of_lt hascii, List.singleton_append, decodeFrom_ascii _ _ (by omega), hbyte,
      Char.ofNat_toNat]
    rfl
  · obtain ⟨first, begun, tail, hbytes, hfirst, hlead, htail⟩ :=
      exists_lead?_of_spells (spells_encodeChar (Nat.le_of_not_lt hascii)) offset
    have hlength : offset + 1 + tail.length = offset + (tail.length + 1) := by omega
    rw [hbytes, List.cons_append, decodeFrom_lead _ _ hfirst hlead,
      decodeFrom_append_of_completes htail, Char.ofNat_toNat, hlength, List.length_cons]

theorem exists_encodeChar_of_decodeFrom {offset : Nat} {bytes : Bytes} {text : Text}
    (h : decodeFrom offset none bytes = .ok text) (hbytes : bytes ≠ []) :
    ∃ c rest offset' following, bytes = String.utf8EncodeChar c ++ rest ∧
      decodeFrom offset' none rest = .ok following ∧ text = c :: following := by
  obtain ⟨byte, bytes, rfl⟩ := List.exists_cons_of_ne_nil hbytes
  by_cases hascii : byte.toNat < 0x80
  · rw [decodeFrom_ascii _ _ hascii] at h
    cases hrest : decodeFrom (offset + 1) none bytes with
    | error cause => simp [hrest, Except.map] at h
    | ok following =>
        rw [hrest] at h
        refine ⟨Char.ofNat byte.toNat, bytes, _, following, ?_, hrest, (Except.ok.inj h).symm⟩
        rw [encodeChar_ofNat_byte hascii, List.singleton_append]
  · cases hlead : lead? offset byte with
    | none => simp [decodeFrom, hascii, hlead] at h
    | some begun =>
        rw [decodeFrom_lead _ _ (Nat.le_of_not_lt hascii) hlead] at h
        obtain ⟨tail, rest, value, _, following, rfl, htail, hrest, htext⟩ :=
          exists_completes_of_decodeFrom h
        refine ⟨Char.ofNat value, rest, _, following, ?_, hrest, htext⟩
        rw [(spells_of_lead? hlead htail).encodeChar_eq, List.cons_append]

theorem decodeFrom_encode_append (offset : Nat) (text : Text) (rest : Bytes) :
    decodeFrom offset none (encode text ++ rest) =
      (decodeFrom (offset + (encode text).length) none rest).map (text ++ ·) := by
  induction text generalizing offset with
  | nil =>
      rw [encode_nil, List.nil_append]
      exact (id_map _).symm
  | cons c text ih =>
      have hencode : encode (c :: text) = String.utf8EncodeChar c ++ encode text := rfl
      rw [hencode, List.append_assoc, decodeFrom_encodeChar_append, ih, List.length_append,
        Nat.add_assoc]
      cases decodeFrom (offset + ((String.utf8EncodeChar c).length + (encode text).length)) none
        rest <;> rfl

theorem decodeFrom_encode (offset : Nat) (text : Text) :
    decodeFrom offset none (encode text) = .ok text := by
  have happend := decodeFrom_encode_append offset text []
  rw [List.append_nil] at happend
  rw [happend, decodeFrom, Except.map, List.append_nil]

theorem encode_of_decodeFrom {offset : Nat} {bytes : Bytes} {text : Text}
    (h : decodeFrom offset none bytes = .ok text) : encode text = bytes := by
  induction text generalizing offset bytes with
  | nil =>
      by_cases hbytes : bytes = []
      · rw [hbytes, encode_nil]
      · obtain ⟨_, _, _, _, _, _, htext⟩ := exists_encodeChar_of_decodeFrom h hbytes
        cases htext
  | cons c text ih =>
      have hbytes : bytes ≠ [] := by
        rintro rfl
        cases h
      obtain ⟨_, rest, _, _, rfl, hrest, htext⟩ := exists_encodeChar_of_decodeFrom h hbytes
      obtain ⟨rfl, rfl⟩ := List.cons.inj htext
      rw [← ih hrest]
      rfl

theorem decode_eq_ok_iff {bytes : Bytes} {text : Text} :
    decode bytes = .ok text ↔ encode text = bytes := by
  constructor
  · exact encode_of_decodeFrom
  · rintro rfl
    exact decodeFrom_encode 0 text

end Whole

end IndentMarkup.Utf8
