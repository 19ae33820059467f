import IndentMarkup.Text.Basic

/-!
A reader of JSON texts, for all of the grammar. It goes through a text one
character at a time, with a stack of the arrays and objects that are open.
-/

namespace IndentMarkup.Json

/-- Numbers are kept as they are written, and members in their order. -/
inductive Value
  | null
  | bool (value : Bool)
  | number (literal : Text)
  | string (text : Text)
  | array (items : List Value)
  | object (members : List (Text × Value))

/-- An open array or object, up to the value that is being read. -/
inductive Frame
  | array (items : List Value)
  | object (members : List (Text × Value)) (key : Text)

/-- How far a number has come. -/
inductive Numeral
  | minus
  | zero
  | digits
  | point
  | fraction
  | exponent
  | sign
  | power
  deriving DecidableEq, Repr

namespace Numeral

def start? (c : Char) : Option Numeral :=
  if c = '-' then some minus
  else if c = '0' then some zero
  else if c.isDigit then some digits
  else none

def next? (c : Char) : Numeral → Option Numeral
  | minus => if c = '0' then some zero else if c.isDigit then some digits else none
  | zero => if c = '.' then some point else if c = 'e' ∨ c = 'E' then some exponent else none
  | digits =>
    if c.isDigit then some digits
    else if c = '.' then some point
    else if c = 'e' ∨ c = 'E' then some exponent
    else none
  | point => if c.isDigit then some fraction else none
  | fraction =>
    if c.isDigit then some fraction else if c = 'e' ∨ c = 'E' then some exponent else none
  | exponent => if c = '+' ∨ c = '-' then some sign else if c.isDigit then some power else none
  | sign => if c.isDigit then some power else none
  | power => if c.isDigit then some power else none

/-- Whether the number may end here. -/
def isWhole : Numeral → Bool
  | zero | digits | fraction | power => true
  | minus | point | exponent | sign => false

end Numeral

/-- How far a character of a string has come. -/
inductive Quoting
  | plain
  /-- After a backslash. -/
  | escape
  /-- After some digits of a code unit, with the high surrogate before it. -/
  | unit (high? : Option Nat) (count value : Nat)
  /-- After a high surrogate, and then after the backslash behind it. -/
  | paired (high : Nat) (escaped : Bool)
  deriving DecidableEq, Repr

namespace Quoting

def hexDigit? (c : Char) : Option Nat :=
  if c.isDigit then some (c.toNat - '0'.toNat)
  else if 'a' ≤ c ∧ c ≤ 'f' then some (c.toNat - 'a'.toNat + 10)
  else if 'A' ≤ c ∧ c ≤ 'F' then some (c.toNat - 'A'.toNat + 10)
  else none

def isHigh (unit : Nat) : Bool := 0xD800 ≤ unit ∧ unit < 0xDC00

def isLow (unit : Nat) : Bool := 0xDC00 ≤ unit ∧ unit < 0xE000

/-- The text with a code unit after it. Surrogates come in pairs. -/
def addUnit (text : Text) (unit : Nat) : Option Nat → Option (Text × Quoting)
  | none =>
    if isHigh unit then some (text, paired unit false)
    else if isLow unit then none
    else some (text ++ [Char.ofNat unit], plain)
  | some high =>
    if isLow unit then
      some (text ++ [Char.ofNat (0x10000 + (high - 0xD800) * 0x400 + (unit - 0xDC00))], plain)
    else none

def unescape? (c : Char) : Option Char :=
  if c = '"' then some '"'
  else if c = '\\' then some '\\'
  else if c = '/' then some '/'
  else if c = 'b' then some '\x08'
  else if c = 'f' then some '\x0c'
  else if c = 'n' then some '\n'
  else if c = 'r' then some '\r'
  else if c = 't' then some '\t'
  else none

/-- One more character of a string, other than the quote that ends it. -/
def next? (text : Text) (c : Char) : Quoting → Option (Text × Quoting)
  | plain =>
    if c = '\\' then some (text, escape)
    else if c.toNat < 0x20 then none
    else some (text ++ [c], plain)
  | escape =>
    if c = 'u' then some (text, unit none 0 0)
    else (unescape? c).map fun meant => (text ++ [meant], plain)
  | unit high? count value =>
    match hexDigit? c with
    | none => none
    | some digit =>
      if count = 3 then addUnit text (value * 16 + digit) high?
      else some (text, unit high? (count + 1) (value * 16 + digit))
  | paired high false => if c = '\\' then some (text, paired high true) else none
  | paired high true => if c = 'u' then some (text, unit (some high) 0 0) else none

end Quoting

/-- What a string is read for. -/
inductive Role
  | value
  /-- The key of a member that comes after these. -/
  | key (members : List (Text × Value))

/-- What the reader is at, or what must come. -/
inductive Mode
  | value
  /-- An item or the end of an array that has none yet. -/
  | firstItem
  /-- A key or the end of an object that has no members yet. -/
  | firstKey
  | key (members : List (Text × Value))
  | colon (members : List (Text × Value)) (key : Text)
  | quoted (role : Role) (text : Text) (quoting : Quoting)
  | word (missing : Text) (value : Value)
  | number (numeral : Numeral) (literal : Text)
  /-- After a value. -/
  | done (value : Value)

structure Reader where
  stack : List Frame
  mode : Mode

namespace Reader

def isSpace (c : Char) : Bool := c = ' ' || c = '\t' || c = '\n' || c = '\r'

def start : Reader := ⟨[], .value⟩

/-- The first character of a value. -/
def beginValue (stack : List Frame) (c : Char) : Option Reader :=
  if c = '"' then some ⟨stack, .quoted .value [] .plain⟩
  else if c = '[' then some ⟨stack, .firstItem⟩
  else if c = '\x7b' then some ⟨stack, .firstKey⟩
  else if c = 'n' then some ⟨stack, .word "ull".toList .null⟩
  else if c = 't' then some ⟨stack, .word "rue".toList (.bool true)⟩
  else if c = 'f' then some ⟨stack, .word "alse".toList (.bool false)⟩
  else (Numeral.start? c).map fun numeral => ⟨stack, .number numeral [c]⟩

def beginKey (stack : List Frame) (members : List (Text × Value)) (c : Char) : Option Reader :=
  if c = '"' then some ⟨stack, .quoted (.key members) [] .plain⟩ else none

/-- The character after a value, other than white space. -/
def endValue (value : Value) (c : Char) : List Frame → Option Reader
  | [] => none
  | .array items :: stack =>
    if c = ',' then some ⟨.array (items ++ [value]) :: stack, .value⟩
    else if c = ']' then some ⟨stack, .done (.array (items ++ [value]))⟩
    else none
  | .object members key :: stack =>
    if c = ',' then some ⟨stack, .key (members ++ [(key, value)])⟩
    else if c = '\x7d' then some ⟨stack, .done (.object (members ++ [(key, value)]))⟩
    else none

def afterValue (stack : List Frame) (value : Value) (c : Char) : Option Reader :=
  if isSpace c then some ⟨stack, .done value⟩ else endValue value c stack

def endString (text : Text) : Role → Mode
  | .value => .done (.string text)
  | .key members => .colon members text

def step (reader : Reader) (c : Char) : Option Reader :=
  match reader with
  | ⟨stack, .value⟩ => if isSpace c then some ⟨stack, .value⟩ else beginValue stack c
  | ⟨stack, .firstItem⟩ =>
    if isSpace c then some ⟨stack, .firstItem⟩
    else if c = ']' then some ⟨stack, .done (.array [])⟩
    else beginValue (.array [] :: stack) c
  | ⟨stack, .firstKey⟩ =>
    if isSpace c then some ⟨stack, .firstKey⟩
    else if c = '\x7d' then some ⟨stack, .done (.object [])⟩
    else beginKey stack [] c
  | ⟨stack, .key members⟩ =>
    if isSpace c then some ⟨stack, .key members⟩ else beginKey stack members c
  | ⟨stack, .colon members key⟩ =>
    if isSpace c then some ⟨stack, .colon members key⟩
    else if c = ':' then some ⟨.object members key :: stack, .value⟩
    else none
  | ⟨stack, .quoted role text quoting⟩ =>
    if quoting = .plain ∧ c = '"' then some ⟨stack, endString text role⟩
    else (quoting.next? text c).map fun (text, quoting) => ⟨stack, .quoted role text quoting⟩
  | ⟨_, .word [] _⟩ => none
  | ⟨stack, .word (expected :: missing) value⟩ =>
    if c ≠ expected then none
    else some ⟨stack, if missing.isEmpty then .done value else .word missing value⟩
  | ⟨stack, .number numeral literal⟩ =>
    match numeral.next? c with
    | some numeral => some ⟨stack, .number numeral (literal ++ [c])⟩
    | none => if numeral.isWhole then afterValue stack (.number literal) c else none
  | ⟨stack, .done value⟩ => afterValue stack value c

/-- The value of a text that ends here. -/
def value? : Reader → Option Value
  | ⟨[], .done value⟩ => some value
  | ⟨[], .number numeral literal⟩ => if numeral.isWhole then some (.number literal) else none
  | _ => none

def run (reader : Reader) (text : Text) : Option Reader := text.foldlM step reader

end Reader

/-- The value of a JSON text. -/
def read? (text : Text) : Option Value := (Reader.start.run text).bind Reader.value?

end IndentMarkup.Json
