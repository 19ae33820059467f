import IndentMarkup.Proofs.Charset.Refusals

/-!
What a failure to decode or to encode names. Main statement: it is the first place at fault. For
UTF-8 this is said without the decoder, by the beginnings that decode and by the bytes that some
character starts with.
-/

namespace IndentMarkup

def DecodeError.index : DecodeError → Nat
  | notAscii _ index => index
  | notUtf8 cause => cause.index

def EncodeError.char : EncodeError → Char
  | notAscii c => c
  | notLatin1 c => c

namespace Charset

def Decodes (charset : Charset) (bytes : Bytes) : Prop := ∃ text, charset.decode bytes = .ok text

def Encodes (charset : Charset) (text : Text) : Prop := ∃ bytes, charset.encode text = .ok bytes

section Decode

variable {bytes : Bytes}

theorem decodes_ascii_iff : ascii.Decodes bytes ↔ ∀ byte ∈ bytes, byte.toNat < 0x80 := by
  simp only [Decodes, decode_ascii_eq_ok_iff, exists_and_left, exists_eq', and_true]

theorem decodes_utf8_iff : utf8.Decodes bytes ↔ ∃ text, Utf8.encode text = bytes := by
  simp only [Decodes, decode_eq_ok_iff_encode_eq_ok, encode, Except.ok.injEq]

theorem isGreatest_decodes_take {charset : Charset} {before rest : Bytes}
    (hbefore : charset.Decodes before)
    (hnone : ∀ front, front <+: rest → front ≠ [] → ¬ charset.Decodes (before ++ front)) :
    IsGreatest {n | n ≤ (before ++ rest).length ∧ charset.Decodes ((before ++ rest).take n)}
      before.length := by
  rw [List.length_append]
  refine ⟨⟨by omega, by rwa [List.take_left]⟩, ?_⟩
  rintro n ⟨hle, hn⟩
  refine Nat.le_of_not_lt fun hlt => ?_
  obtain ⟨m, rfl⟩ := Nat.exists_eq_add_of_lt hlt
  rw [Nat.add_assoc, List.take_length_add_append] at hn
  refine hnone _ (List.take_prefix _ _) (fun hnil => ?_) hn
  have hlength := congrArg List.length hnil
  rw [List.length_take, List.length_nil] at hlength
  omega

theorem exists_of_decode_ascii_eq_error {error : DecodeError}
    (h : decode .ascii bytes = .error error) :
    ∃ before byte rest, bytes = before ++ byte :: rest ∧ (∀ b ∈ before, b.toNat < 0x80) ∧
      0x80 ≤ byte.toNat ∧ error = .notAscii byte before.length := by
  rw [decode] at h
  cases hfound : bytes.zipIdx.find? fun entry => 0x80 ≤ entry.1.toNat with
  | none =>
      simp only [hfound] at h
      cases h
  | some entry =>
      simp only [hfound] at h
      obtain ⟨hhigh, before, rest, hentries, hbefore⟩ := List.find?_eq_some_iff_append.mp hfound
      have hbytes : bytes = before.map Prod.fst ++ entry.1 :: rest.map Prod.fst := by
        rw [← List.map_cons, ← List.map_append, ← hentries, List.zipIdx_map_fst]
      have hindex : entry.2 = before.length := by
        have hget : bytes.zipIdx[before.length]? = some entry := by
          rw [hentries, List.getElem?_append_right (Nat.le_refl _), Nat.sub_self]
          rfl
        rw [List.getElem?_zipIdx] at hget
        obtain ⟨byte, -, rfl⟩ := Option.map_eq_some_iff.mp hget
        exact Nat.zero_add _
      refine ⟨before.map Prod.fst, entry.1, rest.map Prod.fst, hbytes, ?_, ?_, ?_⟩
      · rw [List.forall_mem_map]
        simpa using hbefore
      · simpa using hhigh
      · rw [List.length_map, ← hindex]
        exact (Except.error.inj h).symm

theorem decode_ascii_eq_error {error : DecodeError} (h : decode .ascii bytes = .error error) :
    IsGreatest {n | n ≤ bytes.length ∧ ascii.Decodes (bytes.take n)} error.index ∧
      ∃ byte, bytes[error.index]? = some byte ∧ error = .notAscii byte error.index := by
  obtain ⟨before, byte, rest, rfl, hbefore, hhigh, rfl⟩ := exists_of_decode_ascii_eq_error h
  refine ⟨isGreatest_decodes_take (decodes_ascii_iff.mpr hbefore) ?_, byte, ?_, rfl⟩
  · intro front hprefix hne hdecodes
    obtain ⟨first, front, rfl⟩ := List.exists_cons_of_ne_nil hne
    obtain ⟨rfl, -⟩ := List.cons_prefix_cons.mp hprefix
    have hlow := decodes_ascii_iff.mp hdecodes first (by simp)
    omega
  · rw [DecodeError.index, List.getElem?_append_right (Nat.le_refl _), Nat.sub_self]
    rfl

theorem decode_utf8_eq_error {error : DecodeError} (h : decode .utf8 bytes = .error error) :
    IsGreatest {n | n ≤ bytes.length ∧ utf8.Decodes (bytes.take n)} error.index ∧
      ((∃ more, more ≠ [] ∧ utf8.Decodes (bytes ++ more)) →
        error = .notUtf8 (.incomplete error.index)) ∧
      ((¬ ∃ more, more ≠ [] ∧ utf8.Decodes (bytes ++ more)) →
        ∃ length, Utf8.RefusedLength (bytes.drop error.index) length ∧
          error = .notUtf8 (.invalid error.index length)) := by
  obtain ⟨cause, hdecode, rfl⟩ := mapError_eq_error_iff.mp h
  obtain ⟨before, rest, rfl, hne, hnone, hrefused⟩ := Utf8.exists_of_decode_eq_error hdecode
  have hindex : DecodeError.index (.notUtf8 cause) = (Utf8.encode before).length :=
    hrefused.index_eq
  have hmore : cause = .incomplete (Utf8.encode before).length ↔
      ∃ more, more ≠ [] ∧ utf8.Decodes (Utf8.encode before ++ rest ++ more) := by
    rw [hrefused.incomplete_iff, ← Utf8.exists_encode_eq_append_more_iff hne hnone]
    simp only [decodes_utf8_iff, List.append_assoc, Utf8.exists_encode_eq_append_iff]
  rw [hindex, List.drop_left]
  refine ⟨isGreatest_decodes_take (decodes_utf8_iff.mpr ⟨before, rfl⟩) ?_, ?_, ?_⟩
  · intro front hprefix hfront hdecodes
    obtain ⟨text, htext⟩ := Utf8.exists_encode_eq_append_iff.mp (decodes_utf8_iff.mp hdecodes)
    obtain ⟨c, hc⟩ := Utf8.exists_isPrefix_of_encode_eq htext hfront
    exact hnone c (hc.trans hprefix)
  · exact fun hexists => congrArg DecodeError.notUtf8 (hmore.mpr hexists)
  · intro hexists
    cases cause with
    | incomplete index =>
        obtain rfl : index = (Utf8.encode before).length := hindex
        exact absurd (hmore.mp rfl) hexists
    | invalid index length =>
        obtain rfl : index = (Utf8.encode before).length := hindex
        exact ⟨length, hrefused.refusedLength, rfl⟩

end Decode

theorem exists_of_encode_eq_error {charset : Charset} {text : Text} {error : EncodeError}
    (h : charset.encode text = .error error) :
    ∃ before after, text = before ++ error.char :: after ∧ (∀ c ∈ before, charset.Has c) ∧
      ¬ charset.Has error.char := by
  cases charset with
  | utf8 => cases h
  | ascii | latin1 =>
      rw [encode] at h
      split at h
      case h_2 => cases h
      case h_1 c hfound =>
        obtain rfl := Except.error.inj h
        obtain ⟨hhigh, before, after, rfl, hbefore⟩ := List.find?_eq_some_iff_append.mp hfound
        exact ⟨before, after, rfl, by simpa [Has] using hbefore,
          by simpa [Has, EncodeError.char] using hhigh⟩

theorem message_of_encode_eq_error {charset : Charset} {text : Text} {error : EncodeError} :
    charset.encode text = .error error →
      match charset with
      | ascii => error.message =
          "character ".toList ++ Text.quoted error.char ++ " cannot be written as ASCII".toList
      | utf8 => False
      | latin1 => error.message =
          "character ".toList ++ Text.quoted error.char ++
            " cannot be written as Latin-1".toList := by
  intro h
  cases charset with
  | utf8 => cases h
  | ascii | latin1 =>
      rw [encode] at h
      split at h
      case h_1 =>
        obtain rfl := Except.error.inj h
        rfl
      case h_2 => cases h

theorem encodes_iff {charset : Charset} {text : Text} :
    charset.Encodes text ↔ ∀ c ∈ text, charset.Has c :=
  exists_encode_eq_ok_iff charset text

/-- The message of a failure tells the first place at fault. The bytes before the index are the
longest beginning that decodes, and for ASCII the byte at the index is told. A character is called
incomplete exactly if more bytes would make the whole decode, and else the bytes that are counted
are those that some character starts with. The character that is told is the first that cannot be
encoded. -/
theorem errors_name_first_fault (charset : Charset) :
    (∀ bytes error, charset.decode bytes = .error error →
      IsGreatest {n | n ≤ bytes.length ∧ charset.Decodes (bytes.take n)} error.index ∧
      match charset with
      | ascii => ∃ byte, bytes[error.index]? = some byte ∧
          error = .notAscii byte error.index ∧
          error.message = "byte 0x".toList ++ Text.hexDigits byte.toNat ++
            " at offset ".toList ++ Text.ofNat error.index ++ " is not ASCII".toList
      | utf8 =>
          ((∃ more, more ≠ [] ∧ utf8.Decodes (bytes ++ more)) →
            error = .notUtf8 (.incomplete error.index) ∧
            error.message =
              "incomplete utf-8 byte sequence from index ".toList ++ Text.ofNat error.index) ∧
          ((¬ ∃ more, more ≠ [] ∧ utf8.Decodes (bytes ++ more)) →
            ∃ length, Utf8.RefusedLength (bytes.drop error.index) length ∧
              error = .notUtf8 (.invalid error.index length) ∧
              error.message = "invalid utf-8 sequence of ".toList ++ Text.ofNat length ++
                " bytes from index ".toList ++ Text.ofNat error.index)
      | latin1 => False) ∧
    ∀ text error, charset.encode text = .error error →
      ∃ before after, text = before ++ error.char :: after ∧ charset.Encodes before ∧
        (∀ c ∈ before, charset.Encodes [c]) ∧ ¬ charset.Encodes [error.char] ∧
        match charset with
        | ascii => error.message =
            "character ".toList ++ Text.quoted error.char ++ " cannot be written as ASCII".toList
        | utf8 => False
        | latin1 => error.message =
            "character ".toList ++ Text.quoted error.char ++
              " cannot be written as Latin-1".toList := by
  constructor
  · intro bytes error h
    cases charset with
    | ascii =>
        obtain ⟨hgreatest, byte, hbyte, herror⟩ := decode_ascii_eq_error h
        exact ⟨hgreatest, byte, hbyte, herror, congrArg DecodeError.message herror⟩
    | utf8 =>
        obtain ⟨hgreatest, hincomplete, hinvalid⟩ := decode_utf8_eq_error h
        refine ⟨hgreatest, fun hmore => ?_, fun hmore => ?_⟩
        · have herror := hincomplete hmore
          exact ⟨herror, congrArg DecodeError.message herror⟩
        · obtain ⟨length, hlength, herror⟩ := hinvalid hmore
          exact ⟨length, hlength, herror, congrArg DecodeError.message herror⟩
    | latin1 => cases h
  · intro text error h
    obtain ⟨before, after, htext, hbefore, hchar⟩ := exists_of_encode_eq_error h
    simp only [encodes_iff, List.forall_mem_singleton]
    exact ⟨before, after, htext, hbefore, hbefore, hchar, message_of_encode_eq_error h⟩

/-- Bytes outside ASCII behind one inside. -/
def westernBytes : Bytes := [0x70, 0xE9, 0xE8]

/-- The form that a surrogate would have, behind a whole character. -/
def surrogateBytes : Bytes := [0xC3, 0xA9, 0xED, 0xA0, 0x80]

/-- Three of the four bytes of a character, behind a whole character. -/
def truncatedBytes : Bytes := [0xC3, 0xA9, 0xF0, 0x9F, 0x98]

theorem errors_name_first_fault_brokenBytes :
    (IsGreatest {n | n ≤ 3 ∧ ascii.Decodes (westernBytes.take n)} 1 ∧
        westernBytes[1]? = some 0xE9 ∧
        DecodeError.message (.notAscii 0xE9 1) = "byte 0xe9 at offset 1 is not ASCII".toList) ∧
      (IsGreatest {n | n ≤ 5 ∧ utf8.Decodes (surrogateBytes.take n)} 2 ∧
        Utf8.RefusedLength (surrogateBytes.drop 2) 1 ∧
        (¬ ∃ more, more ≠ [] ∧ utf8.Decodes (surrogateBytes ++ more)) ∧
        DecodeError.message (.notUtf8 (.invalid 2 1)) =
          "invalid utf-8 sequence of 1 bytes from index 2".toList) ∧
      (IsGreatest {n | n ≤ 5 ∧ utf8.Decodes (truncatedBytes.take n)} 2 ∧
        (∃ more, more ≠ [] ∧ utf8.Decodes (truncatedBytes ++ more)) ∧
        DecodeError.message (.notUtf8 (.incomplete 2)) =
          "incomplete utf-8 byte sequence from index 2".toList) ∧
      ∃ before after, "caféé".toList = before ++ 'é' :: after ∧ ascii.Encodes before ∧
        (∀ c ∈ before, ascii.Encodes [c]) ∧ ¬ ascii.Encodes ['é'] ∧
        EncodeError.message (.notAscii 'é') =
          "character 'é' cannot be written as ASCII".toList := by
  obtain ⟨hascii, hencode⟩ := errors_name_first_fault .ascii
  obtain ⟨hutf8, -⟩ := errors_name_first_fault .utf8
  obtain ⟨hwestern, _, hbyte, herror, hmessage⟩ := hascii westernBytes (.notAscii 0xE9 1) rfl
  obtain ⟨rfl, -⟩ := DecodeError.notAscii.inj herror
  obtain ⟨hsurrogate, hincomplete, hinvalid⟩ :=
    hutf8 surrogateBytes (.notUtf8 (.invalid 2 1)) rfl
  have hnone : ¬ ∃ more, more ≠ [] ∧ utf8.Decodes (surrogateBytes ++ more) := by
    intro h
    cases (hincomplete h).1
  obtain ⟨_, hlength, hcause, hmessage'⟩ := hinvalid hnone
  obtain ⟨-, rfl⟩ := Utf8.Malformed.invalid.inj (DecodeError.notUtf8.inj hcause)
  obtain ⟨htruncated, hwhole, -⟩ := hutf8 truncatedBytes (.notUtf8 (.incomplete 2)) rfl
  have hmore : ∃ more, more ≠ [] ∧ utf8.Decodes (truncatedBytes ++ more) :=
    ⟨[0x80], by decide, "é😀".toList, rfl⟩
  have hshown : Text.isHidden 'é' = false := by
    rw [Text.isHidden, ← Array.any_toList]
    decide +kernel
  have hquoted : Text.quoted 'é' = "'é'".toList := by
    rw [Text.quoted, Text.escaped, hshown]
    rfl
  obtain ⟨before, after, htext, hbefore, hone, hchar, hmessage''⟩ :=
    hencode "caféé".toList (.notAscii 'é') rfl
  rw [EncodeError.char, hquoted] at hmessage''
  refine ⟨⟨hwestern, hbyte, hmessage.trans (by decide)⟩,
    ⟨hsurrogate, hlength, hnone, hmessage'.trans (by decide)⟩,
    ⟨htruncated, hmore, (hwhole hmore).2.trans (by decide)⟩,
    before, after, htext, hbefore, hone, hchar, hmessage''.trans (by simp)⟩

end Charset

end IndentMarkup
