import IndentMarkup.Proofs.Charset.Utf8

/-!
In every charset decoding and encoding are inverse partial functions. Bytes decode to a text
exactly if the text is encoded as these bytes.
-/

namespace IndentMarkup.Charset

variable {bytes : Bytes} {text : Text}

theorem textOfBytes_eq_iff :
    textOfBytes bytes = text ↔ (∀ c ∈ text, c.toNat < 0x100) ∧ bytesOfText text = bytes := by
  constructor
  · rintro rfl
    constructor
    · rw [textOfBytes, List.forall_mem_map]
      intro byte _
      rw [toNat_ofNat_byte]
      exact byte.toNat_lt
    · rw [bytesOfText, textOfBytes, List.map_map]
      refine List.map_id'' (fun byte => ?_) bytes
      rw [Function.comp_apply, toNat_ofNat_byte, UInt8.ofNat_toNat]
  · rintro ⟨hbyte, rfl⟩
    rw [textOfBytes, bytesOfText, List.map_map]
    refine (List.map_congr_left fun c hc => ?_).trans (List.map_id text)
    rw [Function.comp_apply, Utf8.toNat_ofNat_of_lt (hbyte c hc), Char.ofNat_toNat, id]

theorem decode_ascii_eq_ok_iff :
    decode .ascii bytes = .ok text ↔
      (∀ byte ∈ bytes, byte.toNat < 0x80) ∧ textOfBytes bytes = text := by
  rw [decode]
  cases hfound : bytes.zipIdx.find? fun entry => 0x80 ≤ entry.1.toNat with
  | none =>
      rw [List.find?_eq_none] at hfound
      have hascii : ∀ byte ∈ bytes, byte.toNat < 0x80 := by
        rw [← List.zipIdx_map_fst 0 bytes, List.forall_mem_map]
        simpa using hfound
      simp only [Except.ok.injEq]
      exact ⟨fun h => ⟨hascii, h⟩, And.right⟩
  | some entry =>
      have hmem := List.fst_mem_of_mem_zipIdx (List.mem_of_find?_eq_some hfound)
      have hhigh : 0x80 ≤ entry.1.toNat := by simpa using List.find?_some hfound
      constructor
      · rintro ⟨⟩
      · rintro ⟨hascii, -⟩
        exact absurd hhigh (Nat.not_le.mpr (hascii entry.1 hmem))

theorem bytesOfText_of_encode {charset : Charset} (hcharset : charset ≠ .utf8)
    (h : charset.encode text = .ok bytes) : bytesOfText text = bytes := by
  cases charset with
  | utf8 => exact absurd rfl hcharset
  | ascii | latin1 =>
      rw [encode] at h
      split at h
      · cases h
      · exact Except.ok.inj h

theorem encode_eq_ok_iff {charset : Charset} (hcharset : charset ≠ .utf8) :
    charset.encode text = .ok bytes ↔
      (∀ c ∈ text, charset.Has c) ∧ bytesOfText text = bytes := by
  rw [← exists_encode_eq_ok_iff]
  constructor
  · exact fun h => ⟨⟨bytes, h⟩, bytesOfText_of_encode hcharset h⟩
  · rintro ⟨⟨bytes', h⟩, rfl⟩
    rw [h, bytesOfText_of_encode hcharset h]

theorem forall_lt_bytesOfText (h : ∀ c ∈ text, c.toNat < 0x80) :
    ∀ byte ∈ bytesOfText text, byte.toNat < 0x80 := by
  rw [bytesOfText, List.forall_mem_map]
  intro c hc
  have hc := h c hc
  rwa [Utf8.toNat_ofNat_of_lt (by omega)]

theorem forall_lt_textOfBytes (h : ∀ byte ∈ bytes, byte.toNat < 0x80) :
    ∀ c ∈ textOfBytes bytes, c.toNat < 0x80 := by
  rw [textOfBytes, List.forall_mem_map]
  intro byte hbyte
  rw [toNat_ofNat_byte]
  exact h byte hbyte

theorem decode_eq_ok_iff_encode_eq_ok (charset : Charset) (bytes : Bytes) (text : Text) :
    charset.decode bytes = .ok text ↔ charset.encode text = .ok bytes := by
  cases charset with
  | ascii =>
      rw [decode_ascii_eq_ok_iff, encode_eq_ok_iff (by decide : ascii ≠ utf8)]
      constructor
      · rintro ⟨hascii, htext⟩
        exact ⟨htext ▸ forall_lt_textOfBytes hascii, (textOfBytes_eq_iff.mp htext).2⟩
      · rintro ⟨hascii, hbytes⟩
        have hbyte : ∀ c ∈ text, c.toNat < 0x100 := fun c hc =>
          Nat.lt_trans (hascii c hc) (by decide)
        exact ⟨hbytes ▸ forall_lt_bytesOfText hascii, textOfBytes_eq_iff.mpr ⟨hbyte, hbytes⟩⟩
  | utf8 =>
      have hdecode : decode .utf8 bytes = .ok text ↔ Utf8.decode bytes = .ok text := by
        rw [decode, mapError_eq_ok_iff]
      rw [hdecode, Utf8.decode_eq_ok_iff, encode, Except.ok.injEq]
  | latin1 =>
      rw [encode_eq_ok_iff (by decide : latin1 ≠ utf8), decode, Except.ok.injEq]
      exact textOfBytes_eq_iff

/-- Decoding and encoding invert each other, and each succeeds on exactly the bytes or the texts
that the charset is for. -/
theorem decode_inverts_encode (charset : Charset) (bytes : Bytes) (text : Text) :
    (charset.decode bytes = .ok text ↔ charset.encode text = .ok bytes) ∧
      ((∃ text, decode .ascii bytes = .ok text) ↔ ∀ byte ∈ bytes, byte.toNat < 0x80) ∧
      (∃ text, decode .latin1 bytes = .ok text) ∧
      (∃ bytes, encode .utf8 text = .ok bytes) ∧
      ((∃ bytes, encode .ascii text = .ok bytes) ↔ ∀ c ∈ text, c.toNat ≤ 0x7F) ∧
      ((∃ bytes, encode .latin1 text = .ok bytes) ↔ ∀ c ∈ text, c.toNat ≤ 0xFF) := by
  refine ⟨decode_eq_ok_iff_encode_eq_ok charset bytes text, ?_, ⟨_, rfl⟩, ⟨_, rfl⟩, ?_, ?_⟩
  · simp only [decode_ascii_eq_ok_iff, exists_and_left, exists_eq', and_true]
  · rw [exists_encode_eq_ok_iff]
    exact forall₂_congr fun _ _ => Nat.lt_succ_iff
  · rw [exists_encode_eq_ok_iff]
    exact forall₂_congr fun _ _ => Nat.lt_succ_iff

end IndentMarkup.Charset
