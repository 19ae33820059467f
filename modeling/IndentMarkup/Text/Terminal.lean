import IndentMarkup.Charset.Utf8

/-!
What shows of a text that may hold control sequences for a terminal. An escape starts a sequence,
and nothing of the sequence shows but the white space in it. Neither do control characters show. A
sequence that is never closed takes the rest of the text with it.
-/

namespace IndentMarkup.Terminal

/-- How far a control sequence has come. -/
inductive State
  /-- No sequence is open. -/
  | ground
  | escape
  | escapeIntermediate
  | controlSequence
  | deviceControl
  | deviceParameter
  | deviceIntermediate
  /-- A string that a terminator ends. -/
  | string
  /-- A command to the operating system, which a bell ends. -/
  | command
  deriving DecidableEq, Repr

def isIntermediate (byte : UInt8) : Bool := 0x20 ≤ byte && byte ≤ 0x2F

def isParameter (byte : UInt8) : Bool := 0x30 ≤ byte && byte ≤ 0x3F

/-- A parameter that does not belong to a standard sequence. -/
def isPrivate (byte : UInt8) : Bool := 0x3C ≤ byte && byte ≤ 0x3F

/-- The last byte of a sequence that has parameters. -/
def isFinal (byte : UInt8) : Bool := 0x40 ≤ byte && byte ≤ 0x7E

namespace State

/-- The state after the byte that follows an escape. -/
def afterEscape (byte : UInt8) : State :=
  if isIntermediate byte then escapeIntermediate
  else if byte = 0x50 then deviceControl
  else if byte = 0x58 || byte = 0x5E || byte = 0x5F then string
  else if byte = 0x5B then controlSequence
  else if byte = 0x5D then command
  else if isParameter byte || isFinal byte then ground
  else escape

/-- The state after a byte inside a sequence. A byte that has no meaning there changes nothing. -/
def inside (byte : UInt8) : State → State
  | ground => ground
  | escape => afterEscape byte
  | escapeIntermediate =>
    if isParameter byte || isFinal byte then ground else escapeIntermediate
  | controlSequence => if isFinal byte then ground else controlSequence
  | deviceControl =>
    if isIntermediate byte then deviceIntermediate
    else if isParameter byte then deviceParameter
    else if isFinal byte then string
    else deviceControl
  | deviceParameter =>
    if isIntermediate byte then deviceIntermediate
    else if isPrivate byte || isFinal byte then string
    else deviceParameter
  | deviceIntermediate =>
    if isParameter byte || isFinal byte then string else deviceIntermediate
  | string => if byte = 0x9C then ground else string
  | command => if byte = 0x07 then ground else command

/-- The state after any byte: a cancel or a substitute closes every sequence, and an escape starts
a new one. -/
def afterByte (state : State) (byte : UInt8) : State :=
  if byte = 0x18 || byte = 0x1A then ground
  else if byte = 0x1B then escape
  else state.inside byte

def afterChar (state : State) (c : Char) : State :=
  (String.utf8EncodeChar c).foldl afterByte state

/-- White space that shows inside a sequence too, unless the sequence is a string or a command. -/
def isLayout (c : Char) : Bool := c = '\t' || c = '\n' || c = '\x0c' || c = '\r'

def shows (c : Char) : State → Bool
  | ground => isLayout c || (' ' ≤ c && c ≠ '\x7f')
  | escape => isLayout c
  | escapeIntermediate => isLayout c
  | controlSequence => isLayout c
  | _ => false

end State

/-- What shows from a state on. After a character that shows, others show as if no sequence were
open, but the sequence stays open behind them until a character that is not ASCII shows. -/
def shownFrom (state : State) (showing : Bool) : Text → Text
  | [] => []
  | c :: rest =>
    if (if showing then .ground else state).shows c then
      c :: shownFrom (if c < '\x80' then state else .ground) true rest
    else shownFrom (state.afterChar c) false rest

def shown (text : Text) : Text := shownFrom .ground false text

end IndentMarkup.Terminal
