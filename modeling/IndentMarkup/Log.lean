import IndentMarkup.Compile

/-!
The log of a compilation: what each stage reports, in the order in which the stages run. Logging
changes no result.
-/

namespace IndentMarkup

inductive LogLevel
  | warn
  | info
  | debug
  | trace
  deriving DecidableEq, Repr

namespace LogLevel

def ofName? (name : Text) : Option LogLevel :=
  if name = "warn".toList then some .warn
  else if name = "info".toList then some .info
  else if name = "debug".toList then some .debug
  else if name = "trace".toList then some .trace
  else none

def label : LogLevel → Text
  | warn => "WARN".toList
  | info => "INFO".toList
  | debug => "DEBUG".toList
  | trace => "TRACE".toList

def rank : LogLevel → Nat
  | warn => 0
  | info => 1
  | debug => 2
  | trace => 3

/-- Whether a log kept at the level `kept` has records of this level. -/
def shownAt (level kept : LogLevel) : Bool := level.rank ≤ kept.rank

end LogLevel

inductive Event
  | tabIndented (lines : Nat)
  | spaceIndented (width lines : Nat)
  | inlineBlock (parent child : Text)
  | written (lines : Nat)
  deriving DecidableEq, Repr

namespace Event

def level : Event → LogLevel
  | inlineBlock _ _ => .trace
  | _ => .debug

def message : Event → Text
  | tabIndented lines =>
    "normalize: tab indentation, ".toList ++ Text.ofNat lines ++ " lines".toList
  | spaceIndented width lines =>
    "normalize: space indentation of width ".toList ++ Text.ofNat width ++ ", ".toList ++
      Text.ofNat lines ++ " lines".toList
  | inlineBlock parent child =>
    "inline block `".toList ++ parent ++ "` -> child `".toList ++ child ++ "`".toList
  | written lines => "emitted ".toList ++ Text.ofNat lines ++ " scopes".toList

end Event

/-- A value with the events on the way to it. -/
structure Logged (α : Type) where
  value : α
  events : List Event
  deriving DecidableEq, Repr

namespace Logged

instance : Monad Logged where
  pure a := ⟨a, []⟩
  bind x f := ⟨(f x.value).value, x.events ++ (f x.value).events⟩

variable {α β : Type}

@[simp] theorem value_pure (a : α) : (pure a : Logged α).value = a := rfl

@[simp] theorem events_pure (a : α) : (pure a : Logged α).events = [] := rfl

@[simp] theorem value_bind (x : Logged α) (f : α → Logged β) :
    (x >>= f).value = (f x.value).value := rfl

@[simp] theorem events_bind (x : Logged α) (f : α → Logged β) :
    (x >>= f).events = x.events ++ (f x.value).events := rfl

end Logged

def canonicalizeEvent (text : Text) : Event :=
  let lines := significantLines text
  match Indentation.ofLines lines with
  | .tabs => .tabIndented lines.length
  | .spaces => .spaceIndented (unitWidth lines) lines.length

def canonicalizeLogged (text : Text) : Logged Text := ⟨canonicalize text, [canonicalizeEvent text]⟩

def inlineBlockEvents (lines : List Line) : List Event :=
  (lines.filterMap Line.inlineBlock?).map fun block =>
    .inlineBlock block.1.content block.2.content

def parseLogged (canonical : Text) : Logged Document :=
  ⟨Document.parse canonical, inlineBlockEvents (outline canonical)⟩

def writeLogged (indent : Html.Indent) (lines : List Line) : Logged Text :=
  ⟨Html.write indent lines, [.written lines.length]⟩

def compileLogged (options : Options) (canonical : Text) :
    Logged (Except CompileError Compiled) := do
  let document ← parseLogged canonical
  match refusal? options document with
  | some error => return .error error
  | none =>
    let html ← writeLogged options.indent document.lines
    return .ok ⟨html, document.diagnostics⟩

def renderLogged (options : Options) (raw : Text) : Logged (Except CompileError Compiled) := do
  let canonical ← canonicalizeLogged raw
  compileLogged options canonical

@[simp] theorem value_canonicalizeLogged (text : Text) :
    (canonicalizeLogged text).value = canonicalize text := rfl

@[simp] theorem value_compileLogged (options : Options) (canonical : Text) :
    (compileLogged options canonical).value = compile options canonical := by
  simp only [compileLogged, compile, parseLogged, Logged.value_bind]
  split <;> simp_all [writeLogged]

@[simp] theorem value_renderLogged (options : Options) (raw : Text) :
    (renderLogged options raw).value = render options raw := by
  simp [renderLogged, render]

end IndentMarkup
