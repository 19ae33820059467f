import IndentMarkup.Text.Basic

/-!
Strict UTF-8: no overlong forms, no surrogates, nothing above U+10FFFF. A character is read byte by
byte, and a byte that cannot go on is refused at once.
-/

namespace IndentMarkup

abbrev Bytes := List UInt8

namespace Utf8

/-- Why bytes are not UTF-8. -/
inductive Malformed
  /-- The `length` bytes from `index` start no character together with the byte after them. -/
  | invalid (index length : Nat)
  /-- The bytes end inside the character that starts at `index`. -/
  | incomplete (index : Nat)
  deriving DecidableEq, Repr

def Malformed.message : Malformed → Text
  | invalid index length =>
    "invalid utf-8 sequence of ".toList ++ Text.ofNat length ++ " bytes from index ".toList ++
      Text.ofNat index
  | incomplete index => "incomplete utf-8 byte sequence from index ".toList ++ Text.ofNat index

/-- A character of several bytes of which some have been read. -/
structure Pending where
  index : Nat
  seen : Nat
  /-- The bytes still to come after the next one. -/
  missing : Nat
  value : Nat
  /-- The next byte is at least this. -/
  low : Nat := 0x80
  /-- The next byte is at most this. -/
  high : Nat := 0xBF
  deriving DecidableEq, Repr

/-- What a first byte announces. The bounds on the second byte rule out overlong forms, surrogates
and values above U+10FFFF. -/
def lead? (index : Nat) (byte : UInt8) : Option Pending :=
  let b := byte.toNat
  if 0xC2 ≤ b ∧ b ≤ 0xDF then some { index, seen := 1, missing := 0, value := b % 32 }
  else if b = 0xE0 then some { index, seen := 1, missing := 1, value := 0, low := 0xA0 }
  else if b = 0xED then some { index, seen := 1, missing := 1, value := 13, high := 0x9F }
  else if 0xE1 ≤ b ∧ b ≤ 0xEF then some { index, seen := 1, missing := 1, value := b % 16 }
  else if b = 0xF0 then some { index, seen := 1, missing := 2, value := 0, low := 0x90 }
  else if 0xF1 ≤ b ∧ b ≤ 0xF3 then some { index, seen := 1, missing := 2, value := b % 8 }
  else if b = 0xF4 then some { index, seen := 1, missing := 2, value := 4, high := 0x8F }
  else none

/-- Decodes the bytes from `offset` on, with or without a character begun. -/
def decodeFrom (offset : Nat) : Option Pending → Bytes → Except Malformed Text
  | none, [] => .ok []
  | some begun, [] => .error (.incomplete begun.index)
  | none, byte :: rest =>
    if byte.toNat < 0x80 then
      (decodeFrom (offset + 1) none rest).map (Char.ofNat byte.toNat :: ·)
    else
      match lead? offset byte with
      | none => .error (.invalid offset 1)
      | some begun => decodeFrom (offset + 1) (some begun) rest
  | some begun, byte :: rest =>
    if begun.low ≤ byte.toNat ∧ byte.toNat ≤ begun.high then
      let value := begun.value * 64 + byte.toNat % 64
      match begun.missing with
      | 0 => (decodeFrom (offset + 1) none rest).map (Char.ofNat value :: ·)
      | missing + 1 =>
        decodeFrom (offset + 1)
          (some { index := begun.index, seen := begun.seen + 1, missing, value }) rest
    else .error (.invalid begun.index begun.seen)

def decode (bytes : Bytes) : Except Malformed Text := decodeFrom 0 none bytes

def encode (text : Text) : Bytes := text.flatMap String.utf8EncodeChar

@[simp] theorem encode_nil : encode [] = [] := rfl

@[simp] theorem encode_append (s t : Text) : encode (s ++ t) = encode s ++ encode t := by
  simp [encode]

end Utf8

end IndentMarkup
