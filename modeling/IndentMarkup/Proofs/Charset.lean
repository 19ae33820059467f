import IndentMarkup.Charset.Basic

/-!
The characters that a charset has. A text can be encoded exactly if the
charset has all of its characters, and decoding gives no others.
-/

namespace IndentMarkup

section Errors

variable {ε ε' α : Type} {x : Except ε α} {f : ε → ε'}

theorem mapError_eq_ok_iff {a : α} : x.mapError f = .ok a ↔ x = .ok a := by
  cases x with
  | error cause => exact ⟨nofun, nofun⟩
  | ok value =>
      constructor
      · exact fun h => congrArg Except.ok (Except.ok.inj h)
      · exact fun h => congrArg Except.ok (Except.ok.inj h)

theorem mapError_eq_error_iff {e : ε'} :
    x.mapError f = .error e ↔ ∃ cause, x = .error cause ∧ f cause = e := by
  cases x with
  | error cause =>
      constructor
      · exact fun h => ⟨cause, rfl, Except.error.inj h⟩
      · rintro ⟨_, ⟨⟩, rfl⟩
        rfl
  | ok value => exact ⟨nofun, nofun⟩

end Errors

namespace Charset

def Has : Charset → Char → Prop
  | ascii, c => c.toNat < 0x80
  | utf8, _ => True
  | latin1, c => c.toNat < 0x100

theorem has_of_lt (charset : Charset) {c : Char} (h : c.toNat < 0x80) : charset.Has c := by
  cases charset with
  | ascii => exact h
  | utf8 => trivial
  | latin1 => exact Nat.lt_trans h (by decide)

theorem exists_encode_eq_ok_iff (charset : Charset) (text : Text) :
    (∃ bytes, charset.encode text = .ok bytes) ↔ ∀ c ∈ text, charset.Has c := by
  cases charset with
  | ascii =>
      have hsearch : (∃ bytes, encode .ascii text = .ok bytes) ↔
          text.find? (fun c => 0x80 ≤ c.toNat) = none := by
        rw [encode]
        split <;> simp_all
      simpa [Has] using hsearch
  | utf8 => simp [encode, Has]
  | latin1 =>
      have hsearch : (∃ bytes, encode .latin1 text = .ok bytes) ↔
          text.find? (fun c => 0x100 ≤ c.toNat) = none := by
        rw [encode]
        split <;> simp_all
      simpa [Has] using hsearch

theorem toNat_ofNat_byte (byte : UInt8) : (Char.ofNat byte.toNat).toNat = byte.toNat := by
  have hbyte := byte.toNat_lt
  have hvalid : byte.toNat.isValidChar := .inl (by omega)
  rw [Char.ofNat, dif_pos hvalid]
  rfl

theorem has_of_mem_decode {charset : Charset} {bytes : Bytes} {text : Text}
    (h : charset.decode bytes = .ok text) : ∀ c ∈ text, charset.Has c := by
  cases charset with
  | ascii =>
      rw [decode] at h
      split at h
      case h_1 => cases h
      case h_2 hsearch =>
        obtain rfl := Except.ok.inj h
        have hascii : ∀ byte ∈ bytes, byte.toNat < 0x80 := by
          rw [← List.zipIdx_map_fst 0 bytes, List.forall_mem_map]
          simpa using hsearch
        rw [textOfBytes, List.forall_mem_map]
        intro byte hbyte
        rw [Has, toNat_ofNat_byte]
        exact hascii byte hbyte
  | utf8 => exact fun _ _ => trivial
  | latin1 =>
      obtain rfl := Except.ok.inj h
      rw [textOfBytes, List.forall_mem_map]
      intro byte _
      rw [Has, toNat_ofNat_byte]
      exact byte.toNat_lt

end Charset

end IndentMarkup
