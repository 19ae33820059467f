import IndentMarkup.CommandLine.Arguments
import Mathlib.Data.Nat.Digits.Defs

/-!
A command line for given settings. Options come with their values attached,
and the input comes last, after a separator, so that no value is taken for an
option.
-/

namespace IndentMarkup

def Charset.name : Charset → Text
  | ascii => "ascii".toList
  | utf8 => "utf-8".toList
  | latin1 => "latin1".toList

def ReportForm.name : ReportForm → Text
  | json => "json".toList
  | pretty => "pretty".toList

theorem Charset.ofName?_name (charset : Charset) : ofName? charset.name = some charset := by
  cases charset <;> decide

theorem ReportForm.ofName?_name (form : ReportForm) : ofName? form.name = some form := by
  cases form <;> decide

namespace CommandLine

section Number

theorem isDigit_of_mem_ofNat {n : Nat} {c : Char} (h : c ∈ Text.ofNat n) : c.isDigit = true :=
  Nat.isDigit_of_mem_toDigits (by decide) (by decide) h

theorem number?_eq {digits : Text} (h : digits.head? ≠ some '+') :
    number? digits =
      if digits.isEmpty || !digits.all Char.isDigit then none
      else
        let n := digits.foldl (fun n c => n * 10 + (c.toNat - '0'.toNat)) 0
        if n < UInt64.size then some n else none := by
  unfold number?
  split
  case h_1 rest => exact absurd rfl h
  case h_2 => rfl

/-- The decimal digits of a number stand for it. -/
theorem number?_ofNat {n : Nat} (h : n < UInt64.size) : number? (Text.ofNat n) = some n := by
  have hplus : (Text.ofNat n).head? ≠ some '+' := by
    intro hplus
    exact absurd (isDigit_of_mem_ofNat (List.mem_of_head? hplus)) (by decide)
  have hall : (Text.ofNat n).all Char.isDigit = true :=
    List.all_eq_true.mpr fun _ => isDigit_of_mem_ofNat
  have hnonempty : (Text.ofNat n).isEmpty = false :=
    List.isEmpty_eq_false_iff.mpr Nat.toDigits_ne_nil
  have hvalue : (Text.ofNat n).foldl (fun n c => n * 10 + (c.toNat - '0'.toNat)) 0 = n := by
    simp only [Nat.mul_comm _ 10]
    rw [← Nat.ofDigitChars_eq_foldl, Text.ofNat, Nat.ofDigitChars_ten_toDigits]
  simp only [number?_eq hplus, hall, hnonempty, hvalue, if_pos h, Bool.not_true, Bool.or_self,
    Bool.false_eq_true, if_false]

end Number

/-- The argument that sets an option to a value. -/
def Setting.attach (setting : Setting) (value : Text) : Text := setting.name ++ '=' :: value

theorem Argument.ofText_attach (setting : Setting) (value : Text) :
    Argument.ofText (setting.attach value) = .setting setting (some value) := by
  cases setting <;> rfl

namespace Settings

/-- Settings that a command line can ask for. -/
structure Expressible (settings : Settings) : Prop where
  input : settings.input? ≠ some []
  output : settings.output? ≠ some []
  indent : ∀ width ∈ settings.indent?, width < UInt64.size

def toArguments (settings : Settings) : List Text :=
  settings.output?.toList.map (Setting.attach .output) ++
    (settings.charset?.toList.map fun charset => Setting.attach .encoding charset.name) ++
    (if settings.strict then [Flag.name .strict] else []) ++
    (settings.indent?.toList.map fun width => Setting.attach .indent (Text.ofNat width)) ++
    (if settings.canonicalOnly then [Flag.name .canonicalOnly] else []) ++
    (settings.report?.toList.map fun form => Setting.attach .diagnostics form.name) ++
    settings.input?.toList.flatMap fun path => ["--".toList, path]

section Parts

variable {rest : List Text}

theorem readArguments_attach {settings settings' : Settings} {setting : Setting} {value : Text}
    (hunset : settings.isSet setting = false)
    (hput : settings.put? value setting = some settings') :
    readArguments settings (setting.attach value :: rest) = readArguments settings' rest := by
  rw [readArguments, Argument.ofText_attach]
  simp only [set, hunset, hput]
  rfl

/-- An option that may be absent. `after` has the settings for each value of it. -/
theorem readArguments_option {α : Type} {setting : Setting} {spell : α → Text} {value? : Option α}
    (after : Option α → Settings) (hunset : (after none).isSet setting = false)
    (hput : ∀ value ∈ value?,
      (after none).put? (spell value) setting = some (after (some value))) :
    readArguments (after none)
        ((value?.toList.map fun value => setting.attach (spell value)) ++ rest) =
      readArguments (after value?) rest := by
  cases value? with
  | none => rfl
  | some value => exact readArguments_attach hunset (hput value rfl)

theorem readArguments_flag {flag : Flag} {given : Bool} (after : Bool → Settings)
    (h : (after false).setFlag flag = .ok (after true)) :
    readArguments (after false) ((if given then [flag.name] else []) ++ rest) =
      readArguments (after given) rest := by
  cases given with
  | false => rfl
  | true =>
      have hflag : Argument.ofText flag.name = .flag flag := by cases flag <;> rfl
      rw [if_pos rfl, List.singleton_append, readArguments, hflag]
      simp only [h]

theorem readArguments_input {input? : Option Text} (after : Option Text → Settings)
    (h : ∀ path ∈ input?, (after none).setInput path = .ok (after (some path))) :
    readArguments (after none) (input?.toList.flatMap fun path => ["--".toList, path]) =
      .ok (.convert (after input?)) := by
  cases input? with
  | none => rfl
  | some path =>
      show readOperands (after none) [path] = _
      rw [readOperands, h path rfl]
      rfl

end Parts

theorem isEmpty_eq_false_of_mem {path : Text} {path? : Option Text} (h : path? ≠ some [])
    (hpath : path ∈ path?) : path.isEmpty = false := by
  rw [List.isEmpty_eq_false_iff]
  rintro rfl
  exact h hpath

/-- The command line asks for the settings that it was written for. -/
theorem ofArguments_toArguments {settings : Settings} (h : settings.Expressible) :
    Command.ofArguments settings.toArguments = .ok (.convert settings) := by
  obtain ⟨hinput, houtput, hindent⟩ := h
  obtain ⟨input?, output?, charset?, strict, indent?, canonicalOnly, report?⟩ := settings
  simp only [toArguments, List.append_assoc, Command.ofArguments]
  rw [readArguments_option (fun output? => { output? }) rfl ?output,
    readArguments_option (fun charset? => { output?, charset? }) rfl ?charset,
    readArguments_flag (fun strict => { output?, charset?, strict }) rfl,
    readArguments_option (fun indent? => { output?, charset?, strict, indent? }) rfl ?indent,
    readArguments_flag
      (fun canonicalOnly => { output?, charset?, strict, indent?, canonicalOnly }) rfl,
    readArguments_option
      (fun report? => { output?, charset?, strict, indent?, canonicalOnly, report? }) rfl ?report,
    readArguments_input fun input? =>
      { input?, output?, charset?, strict, indent?, canonicalOnly, report? }]
  case output =>
    intro path hpath
    simp [put?, isEmpty_eq_false_of_mem houtput hpath]
  case charset =>
    intro charset _
    simp [put?, charset.ofName?_name]
  case indent =>
    intro width hwidth
    simp [put?, number?_ofNat (hindent width hwidth)]
  case report =>
    intro form _
    simp [put?, form.ofName?_name]
  intro path hpath
  simp [setInput, isEmpty_eq_false_of_mem hinput hpath]

end Settings

end CommandLine

end IndentMarkup
