import IndentMarkup.Line.Basic
import IndentMarkup.ElementName
import IndentMarkup.Proofs.Text.Group
import Mathlib.Tactic.MkIffOfInductiveProp

/-!
Templates before they are written: entries with a level that are text or an
element in parts, and their canonical text. An entry is well formed when none
of its parts holds a character that would end it or start another part.
-/

namespace IndentMarkup.Template

structure Element where
  name : Text
  id? : Option Text := none
  classes : List Text := []
  named : List Attribute := []
  body : Text := []
  deriving DecidableEq, Repr

inductive Node
  | text (content : Text)
  | element (parts : Element)
  deriving DecidableEq, Repr

structure Entry where
  level : Nat
  node : Node
  deriving DecidableEq, Repr

def idText : Option Text → Text
  | none => []
  | some id => '#' :: id

def classText (classes : List Text) : Text := classes.flatMap ('.' :: ·)

def pairText (item : Attribute) : Text := item.key ++ ':' :: item.value

def pairsText (named : List Attribute) : Text := [' '].intercalate (named.map pairText)

/-- There is no empty group. -/
def groupText (named : List Attribute) : Text :=
  if named.isEmpty then [] else '(' :: pairsText named ++ [')']

namespace Element

def shorthandText (element : Element) : Text :=
  element.name ++ idText element.id? ++ classText element.classes

def head (element : Element) : Text := element.shorthandText ++ groupText element.named

def content (element : Element) : Text :=
  element.head ++ if element.body.isEmpty then [] else ' ' :: element.body

/-- Id and classes come before the named attributes. -/
def attributes (element : Element) : Attributes where
  toList :=
    element.id?.toList.map (⟨"id".toList, ·⟩) ++
      (if element.classes.isEmpty then []
        else [⟨"class".toList, [' '].intercalate element.classes⟩]) ++
      element.named

end Element

def Node.content : Node → Text
  | .text content => content
  | .element parts => parts.content

namespace Entry

/-- One tab for every level. -/
def text (entry : Entry) : Text := List.replicate entry.level '\t' ++ entry.node.content

/-- The line that an entry stands for. -/
def line (entry : Entry) : Line :=
  match entry.node with
  | .text content => { level := entry.level, content }
  | .element parts =>
    { level := entry.level
      content := parts.content
      tag := .element parts.name
      attrs := parts.attributes
      body := parts.body }

end Entry

def write (entries : List Entry) : Text := Text.joinPieces (entries.map Entry.text)

/-- Without white space, and without these marks. -/
def FreeOf (marks : List Char) (t : Text) : Prop :=
  ∀ c ∈ t, Text.isBlank c = false ∧ c ∉ marks

/-- Outside groups, a colon stands at most at the end. -/
def ColonsAtEnd (t : Text) : Prop :=
  ∀ before after, t = before ++ ':' :: after → Text.groupAfter false before = false → after = []

/-- Text that fits on one line and keeps its ends, and of which no inline
block splits off. -/
@[mk_iff]
structure OneLine (t : Text) : Prop where
  trim_eq : Text.trim t = t
  no_lineFeed : '\n' ∉ t
  colons : ColonsAtEnd t

@[mk_iff]
structure Element.WellFormed (element : Element) : Prop where
  name_ne_nil : element.name ≠ []
  name_free : FreeOf ['#', '.', '(', ':'] element.name
  id_ne_nil : ∀ id ∈ element.id?, id ≠ []
  id_free : ∀ id ∈ element.id?, FreeOf ['.', '(', ':'] id
  classes_ne_nil : ∀ word ∈ element.classes, word ≠ []
  classes_free : ∀ word ∈ element.classes, FreeOf ['#', '.', '(', ':'] word
  keys_ne_nil : ∀ item ∈ element.named, item.key ≠ []
  keys_free : ∀ item ∈ element.named, FreeOf [':', ')'] item.key
  values_free : ∀ item ∈ element.named, FreeOf [')'] item.value
  keys_nodup : (element.named.map Attribute.key).Nodup
  keys_not_shorthand : ∀ item ∈ element.named, item.key ∉ ["id".toList, "class".toList]
  body_oneLine : OneLine element.body
  /-- A name that nothing marks as a selector. -/
  bare : element.id? = none → element.classes = [] → element.named = [] →
    namesElement element.name = true

/-- The first word of a text must not read as a selector. -/
@[mk_iff]
structure PlainText (content : Text) : Prop where
  ne_nil : content ≠ []
  oneLine : OneLine content
  no_mark : FreeOf ['#', '.', '(', ':'] (content.takeWhile (!Text.isBlank ·))
  not_name : namesElement (content.takeWhile (!Text.isBlank ·)) = false

def Node.WellFormed : Node → Prop
  | .text content => PlainText content
  | .element parts => parts.WellFormed

def Entry.WellFormed (entry : Entry) : Prop := entry.node.WellFormed

instance (marks : List Char) (t : Text) : Decidable (FreeOf marks t) :=
  List.decidableBAll _ t

/-- Colons are looked at one by one. -/
theorem colonsAtEnd_iff (t : Text) :
    ColonsAtEnd t ↔ ∀ i < t.length, t[i]? = some ':' →
      Text.groupAfter false (t.take i) = false → i + 1 = t.length := by
  constructor
  · intro h i hi hcolon hgroup
    have hsplit : t = t.take i ++ ':' :: t.drop (i + 1) := by
      rw [← List.getElem?_eq_some_iff.mp hcolon |>.choose_spec, List.getElem_cons_drop,
        List.take_append_drop]
    have hnil := h _ _ hsplit hgroup
    rw [List.drop_eq_nil_iff] at hnil
    omega
  · rintro h before after rfl hgroup
    have hlast := h before.length (by simp) (by simp) (by simpa using hgroup)
    apply List.eq_nil_of_length_eq_zero
    simp only [List.length_append, List.length_cons] at hlast
    omega

instance (t : Text) : Decidable (ColonsAtEnd t) := decidable_of_iff _ (colonsAtEnd_iff t).symm

instance (t : Text) : Decidable (OneLine t) := decidable_of_iff _ (oneLine_iff t).symm

instance (element : Element) : Decidable element.WellFormed :=
  decidable_of_iff _ (Element.wellFormed_iff element).symm

instance (content : Text) : Decidable (PlainText content) :=
  decidable_of_iff _ (plainText_iff content).symm

instance (entry : Entry) : Decidable entry.WellFormed :=
  match entry with
  | ⟨_, .text content⟩ => inferInstanceAs (Decidable (PlainText content))
  | ⟨_, .element parts⟩ => inferInstanceAs (Decidable parts.WellFormed)

end IndentMarkup.Template
