import IndentMarkup.Diagnostic
import IndentMarkup.ElementName
import IndentMarkup.Line.Basic
import IndentMarkup.Text.Group

/-!
Selectors: what an element line says about its element. The head runs to the first white space
outside groups and holds the tag name, an id after `#`, classes after `.` and one group of named
attributes; the rest is the body. A head without any of these marks is a selector only if it is
an element name.
-/

namespace IndentMarkup

/-- The first group of a head. -/
inductive AttributeGroup
  | absent
  | unclosed
  | closed (inner : Text)
  deriving DecidableEq, Repr

structure Selector where
  name : Text
  id? : Option Text
  classes : List Text
  group : AttributeGroup
  body : Text
  deriving DecidableEq, Repr

namespace Selector

/-- The name of an element whose selector starts with a mark. -/
def defaultName : Text := "div".toList

def isMark (c : Char) : Bool := c == '#' || c == '.' || c == '(' || c == ':'

/-- An id may hold a further `#`. -/
def endsId (c : Char) : Bool := c == '.' || c == '(' || c == ':'

def endsClass (c : Char) : Bool := endsId c || c == '#'

def headEnd (content : Text) : Nat :=
  (Text.firstOutside? Text.isBlank content).getD content.byteLength

def headOf (content : Text) : Text := Text.takeBytes (headEnd content) content

def bodyOf (content : Text) : Text := Text.trim (Text.dropBytes (headEnd content) content)

def nameOf? (head : Text) : Option Text :=
  match Text.firstOutside? isMark head with
  | some 0 => some defaultName
  | some nameEnd => some (Text.takeBytes nameEnd head)
  | none => if namesElement head then some head else none

/-- The text from an offset up to the next character that ends it. -/
def partFrom (ends : Char → Bool) (start : Nat) (head : Text) : Text :=
  (Text.dropBytes start head).takeWhile (!ends ·)

/-- The part after the first `#` outside groups, unless it is empty. -/
def idOf? (head : Text) : Option Text :=
  ((Text.firstOutside? (· == '#') head).map fun mark => partFrom endsId (mark + 1) head).filter
    (!·.isEmpty)

/-- The parts after the dots outside groups that are not empty. -/
def classesOf (head : Text) : List Text :=
  (((Text.outsideGroups head).filter (·.2 == '.')).map fun dot =>
    partFrom endsClass (dot.1 + 1) head).filter (!·.isEmpty)

def groupOf (head : Text) : AttributeGroup :=
  match Text.firstOutside? (· == '(') head with
  | none => .absent
  | some mark =>
    let inner := Text.dropBytes (mark + 1) head
    if inner.contains ')' then .closed (inner.takeWhile (· != ')')) else .unclosed

/-- Reads a line's content; `none` means that the line is text. -/
def ofContent? (content : Text) : Option Selector :=
  let head := headOf content
  (nameOf? head).map fun name =>
    { name, id? := idOf? head, classes := classesOf head, group := groupOf head,
      body := bodyOf content }

/-- A word with a name before its first colon; the value may be empty and may hold colons. -/
def pair? (word : Text) : Option (Text × Text) :=
  let name := word.takeWhile (· != ':')
  match word.dropWhile (· != ':') with
  | [] => none
  | _ :: value => if name.isEmpty then none else some (name, value)

/-- The words of the group. -/
def groupWords (selector : Selector) : List Text :=
  match selector.group with
  | .closed inner => inner.words
  | _ => []

/-- The attributes that `#` and `.` stand for. -/
def shorthand (selector : Selector) : Attributes :=
  let attrs := match selector.id? with
    | some id => Attributes.empty.insert "id".toList id
    | none => .empty
  if selector.classes.isEmpty then attrs
  else attrs.insert "class".toList ([' '].intercalate selector.classes)

/-- Named attributes come after the shorthand ones and replace their values. -/
def attributes (selector : Selector) : Attributes :=
  (selector.groupWords.filterMap pair?).foldl (fun attrs pair => attrs.insert pair.1 pair.2)
    selector.shorthand

/-- What is wrong with the group of the line with this content. -/
def findings (content : Text) (selector : Selector) : List Diagnostic :=
  match selector.group with
  | .absent => []
  | .unclosed => [.unclosedGroup content]
  | .closed inner =>
    (inner.words.filter fun word => (pair? word).isNone).map fun word =>
      .unresolvedAttribute word content

end Selector

namespace Line

/-- The line with its tag, attributes and body read off its content. -/
def read (line : Line) : Line :=
  match Selector.ofContent? line.content with
  | none => { line with tag := .text, attrs := .empty, body := [] }
  | some selector =>
    { line with
      tag := .element selector.name, attrs := selector.attributes, body := selector.body }

def findings (line : Line) : List Diagnostic :=
  match Selector.ofContent? line.content with
  | none => []
  | some selector => selector.findings line.content

/-- Reads a line and adds what it finds to what has been found so far. -/
def readAfter (found : List Diagnostic) (line : Line) : Line × List Diagnostic :=
  (line.read, found ++ line.findings)

@[simp] theorem level_read (line : Line) : line.read.level = line.level := by
  unfold read
  split <;> rfl

@[simp] theorem content_read (line : Line) : line.read.content = line.content := by
  unfold read
  split <;> rfl

end Line

end IndentMarkup
