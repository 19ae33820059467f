import IndentMarkup.CommandLine.Settings

/-!
A reader of command lines. Arguments are read from left to right, and the first one that cannot be
accepted ends the reading; so does a request for the version or for help.
-/

namespace IndentMarkup.CommandLine

inductive Flag
  | strict
  | canonicalOnly
  deriving DecidableEq, Repr

/-- The options that take a value. -/
inductive Setting
  | output
  | encoding
  | indent
  | diagnostics
  deriving DecidableEq, Repr

inductive UsageError
  | unknownOption (argument : Text)
  | repeated (option : Text)
  | missingValue (option : Text)
  | unexpectedValue (option : Text)
  | invalidValue (option value : Text)
  | unexpectedOperand (operand : Text)
  deriving DecidableEq, Repr

def UsageError.message : UsageError → Text
  | unknownOption argument => "unexpected argument ".toList ++ argument
  | repeated option => option ++ " may be given only once".toList
  | missingValue option => option ++ " needs a value".toList
  | unexpectedValue option => option ++ " takes no value".toList
  | invalidValue option value => "invalid value for ".toList ++ option ++ ": ".toList ++ value
  | unexpectedOperand operand => "unexpected argument ".toList ++ operand

def Flag.name : Flag → Text
  | strict => "--strict".toList
  | canonicalOnly => "--normalize-only".toList

def Setting.name : Setting → Text
  | output => "--output".toList
  | encoding => "--encoding".toList
  | indent => "--indent".toList
  | diagnostics => "--diagnostics".toList

/-- A decimal number below 2 ^ 64, with an optional plus sign. -/
def number? (text : Text) : Option Nat :=
  let digits := match text with
    | '+' :: rest => rest
    | _ => text
  if digits.isEmpty || !digits.all Char.isDigit then none
  else
    let n := digits.foldl (fun n c => n * 10 + (c.toNat - '0'.toNat)) 0
    if n < UInt64.size then some n else none

namespace Settings

def setFlag (settings : Settings) : Flag → Except UsageError Settings
  | .strict =>
    if settings.strict then .error (.repeated (Flag.name .strict))
    else .ok { settings with strict := true }
  | .canonicalOnly =>
    if settings.canonicalOnly then .error (.repeated (Flag.name .canonicalOnly))
    else .ok { settings with canonicalOnly := true }

/-- The settings with a value that the text stands for, or `none`. -/
def put? (settings : Settings) (value : Text) : Setting → Option Settings
  | .output => if value.isEmpty then none else some { settings with output? := some value }
  | .encoding =>
    (Charset.ofName? value).map fun charset => { settings with charset? := some charset }
  | .indent => (number? value).map fun n => { settings with indent? := some n }
  | .diagnostics =>
    (ReportForm.ofName? value).map fun form => { settings with report? := some form }

def isSet (settings : Settings) : Setting → Bool
  | .output => settings.output?.isSome
  | .encoding => settings.charset?.isSome
  | .indent => settings.indent?.isSome
  | .diagnostics => settings.report?.isSome

def set (settings : Settings) (setting : Setting) (value : Text) : Except UsageError Settings :=
  if settings.isSet setting then .error (.repeated setting.name)
  else
    match settings.put? value setting with
    | some settings => .ok settings
    | none => .error (.invalidValue setting.name value)

def setInput (settings : Settings) (operand : Text) : Except UsageError Settings :=
  if settings.input?.isSome then .error (.unexpectedOperand operand)
  else if operand.isEmpty then .error (.invalidValue "INPUT".toList operand)
  else .ok { settings with input? := some operand }

end Settings

/-- One argument by itself. -/
inductive Argument
  | operand (text : Text)
  /-- All arguments after it are operands. -/
  | separator
  | flag (flag : Flag)
  /-- The value may be attached; otherwise it is the next argument. -/
  | setting (setting : Setting) (attached? : Option Text)
  | version
  | help
  | refused (error : UsageError)
  deriving DecidableEq, Repr

namespace Argument

def ofLong (argument name : Text) (attached? : Option Text) : Argument :=
  let plain (result : Argument) : Argument :=
    if attached?.isSome then .refused (.unexpectedValue argument) else result
  if name = "output".toList then .setting .output attached?
  else if name = "encoding".toList then .setting .encoding attached?
  else if name = "indent".toList then .setting .indent attached?
  else if name = "diagnostics".toList then .setting .diagnostics attached?
  else if name = "strict".toList then plain (.flag .strict)
  else if name = "normalize-only".toList then plain (.flag .canonicalOnly)
  else if name = "version".toList then plain .version
  else if name = "help".toList then plain .help
  else .refused (.unknownOption argument)

/-- A lone hyphen is an operand. -/
def ofText (argument : Text) : Argument :=
  match argument with
  | ['-', '-'] => .separator
  | '-' :: '-' :: option =>
    match option.dropWhile (· != '=') with
    | [] => ofLong argument option none
    | _ :: value => ofLong argument (option.takeWhile (· != '=')) (some value)
  | ['-', 'o'] => .setting .output none
  | '-' :: 'o' :: '=' :: value => .setting .output (some value)
  | '-' :: 'o' :: value => .setting .output (some value)
  | '-' :: 'V' :: _ => .version
  | '-' :: 'h' :: _ => .help
  | '-' :: _ :: _ => .refused (.unknownOption argument)
  | _ => .operand argument

/-- Whether the argument can be the value of the option before it. -/
def isOperand (argument : Text) : Bool :=
  match ofText argument with
  | .operand _ => true
  | _ => false

end Argument

def versionText : Text := "tabml-cli 0.1.0\n".toList

def helpText : Text := "Compile indentation-based templates to HTML\n".toList

def readOperands (settings : Settings) : List Text → Except UsageError Command
  | [] => .ok (.convert settings)
  | operand :: rest =>
    match settings.setInput operand with
    | .error error => .error error
    | .ok settings => readOperands settings rest

def readArguments (settings : Settings) : List Text → Except UsageError Command
  | [] => .ok (.convert settings)
  | argument :: rest =>
    match Argument.ofText argument with
    | .operand text =>
      match settings.setInput text with
      | .error error => .error error
      | .ok settings => readArguments settings rest
    | .separator => readOperands settings rest
    | .flag flag =>
      match settings.setFlag flag with
      | .error error => .error error
      | .ok settings => readArguments settings rest
    | .setting setting (some value) =>
      match settings.set setting value with
      | .error error => .error error
      | .ok settings => readArguments settings rest
    | .setting setting none =>
      match rest with
      | [] => .error (.missingValue setting.name)
      | value :: rest =>
        if Argument.isOperand value then
          match settings.set setting value with
          | .error error => .error error
          | .ok settings => readArguments settings rest
        else .error (.missingValue setting.name)
    | .version => .ok (.tell versionText)
    | .help => .ok (.tell helpText)
    | .refused error => .error error

def Command.ofArguments (arguments : List Text) : Except UsageError Command :=
  readArguments {} arguments

end IndentMarkup.CommandLine
