import IndentMarkup.Charset.Utf8
import IndentMarkup.Text.Quoted

/-!
Charsets for templates and for HTML. Decoding takes bytes to text and encoding takes text to bytes;
either fails at the first byte or character that the charset does not have.
-/

namespace IndentMarkup

inductive Charset
  | ascii
  | utf8
  | latin1
  deriving DecidableEq, Repr

inductive DecodeError
  | notAscii (byte : UInt8) (offset : Nat)
  | notUtf8 (cause : Utf8.Malformed)
  deriving DecidableEq, Repr

inductive EncodeError
  | notAscii (c : Char)
  | notLatin1 (c : Char)
  deriving DecidableEq, Repr

def DecodeError.message : DecodeError → Text
  | notAscii byte offset =>
    "byte 0x".toList ++ Text.hexDigits byte.toNat ++ " at offset ".toList ++ Text.ofNat offset ++
      " is not ASCII".toList
  | notUtf8 cause => cause.message

def EncodeError.message : EncodeError → Text
  | notAscii c => "character ".toList ++ Text.quoted c ++ " cannot be written as ASCII".toList
  | notLatin1 c => "character ".toList ++ Text.quoted c ++ " cannot be written as Latin-1".toList

namespace Charset

/-- The name by which a charset is asked for. -/
def ofName? (name : Text) : Option Charset :=
  if name = "ascii".toList then some .ascii
  else if name = "utf-8".toList then some .utf8
  else if name = "latin1".toList then some .latin1
  else none

/-- The name of a charset in messages. -/
def label : Charset → Text
  | ascii => "Ascii".toList
  | utf8 => "Utf8".toList
  | latin1 => "Latin1".toList

/-- Each byte is the character with its number. -/
def textOfBytes (bytes : Bytes) : Text := bytes.map fun byte => Char.ofNat byte.toNat

def bytesOfText (text : Text) : Bytes := text.map fun c => UInt8.ofNat c.toNat

def decode (charset : Charset) (bytes : Bytes) : Except DecodeError Text :=
  match charset with
  | ascii =>
    match bytes.zipIdx.find? fun entry => 0x80 ≤ entry.1.toNat with
    | some (byte, offset) => .error (.notAscii byte offset)
    | none => .ok (textOfBytes bytes)
  | utf8 => (Utf8.decode bytes).mapError .notUtf8
  | latin1 => .ok (textOfBytes bytes)

def encode (charset : Charset) (text : Text) : Except EncodeError Bytes :=
  match charset with
  | ascii =>
    match text.find? fun c => 0x80 ≤ c.toNat with
    | some c => .error (.notAscii c)
    | none => .ok (bytesOfText text)
  | utf8 => .ok (Utf8.encode text)
  | latin1 =>
    match text.find? fun c => 0x100 ≤ c.toNat with
    | some c => .error (.notLatin1 c)
    | none => .ok (bytesOfText text)

end Charset

end IndentMarkup
