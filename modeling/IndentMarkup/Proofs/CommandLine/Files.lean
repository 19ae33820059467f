import IndentMarkup.Proofs.CommandLine.Run
import IndentMarkup.Proofs.CommandLine.Writing

/-!
What a run does to files. A run that fails leaves every file as it was and
puts nothing out. A conversion that succeeds puts its bytes where its settings
say, and changes nothing else. All that is asked of the system is that a write
fails or takes all the bytes.
-/

namespace IndentMarkup.CommandLine

namespace Settings

variable {settings : Settings} {input bytes : Bytes} {source : Text}

/-- The bytes that the bytes of a source are converted to. -/
def Converts (settings : Settings) (input bytes : Bytes) : Prop :=
  ∃ source output, settings.charset.decode input = .ok source ∧
    settings.Produces source output ∧ settings.charset.encode output = .ok bytes

theorem result_convert_eq_ok_iff :
    (settings.convert input).result = .ok bytes ↔ settings.Converts input bytes := by
  constructor
  · intro h
    cases hdecode : settings.charset.decode input with
    | error cause => simp [convert, hdecode] at h
    | ok source =>
        cases hproduce : (settings.produce source).2 with
        | error failure =>
            rw [result_convert_of_decode hdecode, hproduce] at h
            cases h
        | ok output =>
            obtain ⟨bytes', hencode, hresult⟩ := exists_encode_eq_ok hdecode hproduce
            obtain rfl := Except.ok.inj (hresult.symm.trans h)
            exact ⟨source, output, hdecode, produce_eq_ok_iff.mp hproduce, hencode⟩
  · rintro ⟨source, output, hdecode, hproduces, hencode⟩
    rw [result_convert_of_decode hdecode, produce_eq_ok_iff.mpr hproduces, Except.bind,
      encodeOutput, hencode]
    rfl

/-- The reasons for which the bytes of a source are not converted. -/
inductive Rejects (settings : Settings) (input : Bytes) : Prop
  | undecodable {cause : DecodeError} (hdecode : settings.charset.decode input = .error cause)
  | tooWide {source : Text} {width : Nat} (hdecode : settings.charset.decode input = .ok source)
      (hform : settings.canonicalOnly = false) (hindent : settings.indent? = some width)
      (hwidth : Text.maxLength < width)
  | empty {source : Text} {options : Options}
      (hdecode : settings.charset.decode input = .ok source)
      (hform : settings.canonicalOnly = false) (hoptions : settings.options = .ok options)
      (hempty : render options source = .error .emptyInput)
  | jump {source : Text} {options : Options} {jump : DepthJump}
      (hdecode : settings.charset.decode input = .ok source)
      (hform : settings.canonicalOnly = false) (hstrict : settings.strict = true)
      (hoptions : settings.options = .ok options)
      (hjump : render options source = .error (.depthJump jump))

theorem exists_result_of_render {options : Options} {cause : CompileError}
    (hdecode : settings.charset.decode input = .ok source)
    (hform : settings.canonicalOnly = false) (hoptions : settings.options = .ok options)
    (hrender : render options source = .error cause) :
    ∃ failure, (settings.convert input).result = .error failure := by
  rw [result_convert_of_decode hdecode, output_produce, hform, hoptions]
  simp only [Except.bind, hrender]
  exact ⟨_, rfl⟩

theorem Rejects.exists_result (h : settings.Rejects input) :
    ∃ failure, (settings.convert input).result = .error failure := by
  cases h with
  | undecodable hdecode =>
      rw [convert, hdecode]
      exact ⟨_, rfl⟩
  | @tooWide source width hdecode hform hindent hwidth =>
      have hoptions : settings.options = .error .tooWide := by
        cases hoptions : settings.options with
        | error failure => rw [(options_eq_error hoptions).1]
        | ok options =>
            exact absurd (le_of_options_eq_ok hoptions width hindent) (Nat.not_le.mpr hwidth)
      rw [result_convert_of_decode hdecode, output_produce, hform, hoptions]
      exact ⟨_, rfl⟩
  | empty hdecode hform hoptions hempty =>
      exact exists_result_of_render hdecode hform hoptions hempty
  | jump hdecode hform _ hoptions hjump => exact exists_result_of_render hdecode hform hoptions hjump

end Settings

namespace System

variable {State : Type} {system : System State} {settings : Settings} {state : State}

section Finish

theorem exit_finish_eq_zero_iff {notes : List Note} {writing : Writing State Failure} :
    (system.finish notes writing).exit = 0 ↔ writing.refusal? = none := by
  have hexit (failure : Failure) : failure.exit ≠ 0 := by
    cases failure <;> simp [Failure.exit]
  rw [finish]
  cases writing.refusal? with
  | none => exact ⟨fun _ => rfl, fun _ => rfl⟩
  | some failure =>
      exact ⟨fun h => absurd h (hexit failure), fun h => absurd h (Option.some_ne_none failure)⟩

@[simp] theorem output_finish (notes : List Note) (writing : Writing State Failure) :
    (system.finish notes writing).output = writing.output := by
  rw [finish]
  cases writing.refusal? <;> rfl

@[simp] theorem state_finish (notes : List Note) (writing : Writing State Failure) :
    (system.finish notes writing).state = writing.state := by
  rw [finish]
  cases writing.refusal? <;> rfl

end Finish

/-- Everything that a conversion can do: it fails before it writes, or it writes the bytes that
its source is converted to. -/
theorem convert_cases (system : System State) (settings : Settings) (state : State) :
    (∃ notes failure, system.convert settings state =
        system.finish notes { state, refusal? := some failure }) ∨
      ∃ input bytes notes, system.readInput settings state = .ok input ∧
        settings.Converts input bytes ∧
        system.convert settings state =
          system.finish notes (system.writeOutput settings state bytes) := by
  cases hread : system.readInput settings state with
  | error failure =>
      refine .inl ⟨[], failure, ?_⟩
      rw [convert, hread]
  | ok input =>
      cases hresult : (settings.convert input).result with
      | error failure =>
          refine .inl ⟨(settings.convert input).notes, failure, ?_⟩
          simp only [convert, hread, hresult]
      | ok bytes =>
          refine .inr ⟨input, bytes, (settings.convert input).notes, rfl,
            Settings.result_convert_eq_ok_iff.mp hresult, ?_⟩
          simp only [convert, hread, hresult]

/-- The reasons for which a conversion fails. -/
inductive FailsOn (system : System State) (settings : Settings) (state : State) : Prop
  | unreadable {path cause : Text} (hinput : settings.input? = some path)
      (hread : system.read state path = .error cause)
  | noInput {cause : Text} (hinput : settings.input? = none) (hread : system.input = .error cause)
  | rejected {input : Bytes} (hread : system.readInput settings state = .ok input)
      (hrejects : settings.Rejects input)
  | unwritable {input bytes : Bytes} {path : Text}
      (hread : system.readInput settings state = .ok input)
      (hconverts : settings.Converts input bytes) (houtput : settings.output? = some path)
      (hwrite : (system.write state path bytes).refusal? ≠ none)
  | noOutput {input bytes : Bytes} (hread : system.readInput settings state = .ok input)
      (hconverts : settings.Converts input bytes) (houtput : settings.output? = none)
      (hprint : system.print bytes ≠ none)

theorem exit_convert_of_readInput {failure : Failure}
    (hread : system.readInput settings state = .error failure) :
    (system.convert settings state).exit ≠ 0 := by
  rw [convert, hread, ne_eq, exit_finish_eq_zero_iff]
  exact Option.some_ne_none failure

theorem exit_convert_of_writeOutput {input bytes : Bytes}
    (hread : system.readInput settings state = .ok input)
    (hconverts : settings.Converts input bytes)
    (hwrite : (system.writeOutput settings state bytes).refusal? ≠ none) :
    (system.convert settings state).exit ≠ 0 := by
  have hresult := Settings.result_convert_eq_ok_iff.mpr hconverts
  simp only [convert, hread, hresult, ne_eq, exit_finish_eq_zero_iff]
  exact hwrite

theorem FailsOn.exit_ne_zero (h : system.FailsOn settings state) :
    (system.convert settings state).exit ≠ 0 := by
  cases h with
  | @unreadable path cause hinput hread =>
      have hfailure : system.readInput settings state = .error (.unreadable path cause) := by
        simp only [readInput, hinput, hread, Except.mapError]
      exact exit_convert_of_readInput hfailure
  | @noInput cause hinput hread =>
      have hfailure : system.readInput settings state = .error (.noInput cause) := by
        simp only [readInput, hinput, hread, Except.mapError]
      exact exit_convert_of_readInput hfailure
  | rejected hread hrejects =>
      obtain ⟨failure, hresult⟩ := hrejects.exists_result
      simp only [convert, hread, hresult, ne_eq, exit_finish_eq_zero_iff]
      exact Option.some_ne_none failure
  | unwritable hread hconverts houtput hwrite =>
      refine exit_convert_of_writeOutput hread hconverts ?_
      simpa only [writeOutput, houtput, ne_eq, Option.map_eq_none_iff] using hwrite
  | noOutput hread hconverts houtput hprint =>
      refine exit_convert_of_writeOutput hread hconverts ?_
      simpa only [writeOutput, houtput, ne_eq, Option.map_eq_none_iff] using hprint

/-- The reasons for which a run fails. -/
inductive Fails (system : System State) (state : State) (arguments : List Text) : Prop
  | usage {message : Text} (hcommand : system.command arguments = .error message)
  | conversion {settings : Settings} (hcommand : system.command arguments = .ok (.convert settings))
      (hfails : system.FailsOn settings state)

theorem Fails.exit_ne_zero {arguments : List Text} (h : system.Fails state arguments) :
    (system.run state arguments).exit ≠ 0 := by
  cases h with
  | usage hcommand =>
      rw [run, hcommand]
      exact Nat.succ_ne_zero 1
  | conversion hcommand hfails =>
      rw [run_of_convert hcommand]
      exact hfails.exit_ne_zero

section Written

variable {File : Type} {view : View State File} (hwhole : system.WritesWhole view)

include hwhole

/-- What has gone out of a write that fails: nothing, unless standard output itself has taken a
part. -/
theorem unchanged_of_writeOutput {bytes : Bytes}
    (h : (system.writeOutput settings state bytes).refusal? ≠ none) :
    view.Unchanged state (system.writeOutput settings state bytes).state ∧
      ((system.writeOutput settings state bytes).output = [] ∨
        ∃ refusal, settings.output? = none ∧ system.print bytes = some refusal ∧
          (system.writeOutput settings state bytes).output = bytes.take refusal.taken) := by
  cases houtput : settings.output? with
  | none =>
      simp only [writeOutput, houtput, ne_eq, Option.map_eq_none_iff] at h ⊢
      obtain ⟨refusal, hprint⟩ := Option.ne_none_iff_exists'.mp h
      refine ⟨fun _ => rfl, .inr ⟨refusal, trivial, hprint, ?_⟩⟩
      rw [printed, hprint]
  | some path =>
      simp only [writeOutput, houtput, ne_eq, Option.map_eq_none_iff] at h ⊢
      obtain ⟨hunchanged, hempty⟩ := hwhole.refused state path bytes h
      exact ⟨hunchanged, .inl hempty⟩

/-- Where the bytes of a conversion are after it. -/
def Delivers (settings : Settings) (view : View State File) (before after : State)
    (bytes output : Bytes) : Prop :=
  match settings.output? with
  | none => view.Unchanged before after ∧ output = bytes
  | some path =>
    ∃ destination, view.destination? before path = some destination ∧
      view.Receives before after bytes output destination

theorem delivers_of_writeOutput {bytes : Bytes}
    (h : (system.writeOutput settings state bytes).refusal? = none) :
    Delivers settings view state (system.writeOutput settings state bytes).state bytes
      (system.writeOutput settings state bytes).output := by
  rw [Delivers]
  cases houtput : settings.output? with
  | none =>
      simp only [writeOutput, houtput, Option.map_eq_none_iff] at h ⊢
      refine ⟨fun _ => rfl, ?_⟩
      rw [printed, h]
  | some path =>
      simp only [writeOutput, houtput, Option.map_eq_none_iff] at h ⊢
      exact hwhole.written state path bytes h

theorem unchanged_of_convert (h : (system.convert settings state).exit ≠ 0) :
    view.Unchanged state (system.convert settings state).state ∧
      ((system.convert settings state).output = [] ∨
        ∃ bytes refusal, settings.output? = none ∧ system.print bytes = some refusal ∧
          (system.convert settings state).output = bytes.take refusal.taken) := by
  obtain ⟨notes, failure, hconvert⟩ | ⟨input, bytes, notes, -, -, hconvert⟩ :=
    system.convert_cases settings state
  · rw [hconvert, state_finish, output_finish]
    exact ⟨fun _ => rfl, .inl rfl⟩
  · rw [hconvert, ne_eq, exit_finish_eq_zero_iff] at h
    obtain ⟨hunchanged, houtput⟩ := unchanged_of_writeOutput hwhole h
    rw [hconvert, state_finish, output_finish]
    exact ⟨hunchanged, houtput.imp_right fun hrefused => ⟨bytes, hrefused⟩⟩

theorem delivers_of_convert (h : (system.convert settings state).exit = 0) :
    ∃ input bytes, system.readInput settings state = .ok input ∧ settings.Converts input bytes ∧
      Delivers settings view state (system.convert settings state).state bytes
        (system.convert settings state).output := by
  obtain ⟨notes, failure, hconvert⟩ | ⟨input, bytes, notes, hread, hconverts, hconvert⟩ :=
    system.convert_cases settings state
  · rw [hconvert, exit_finish_eq_zero_iff] at h
    cases h
  · rw [hconvert, exit_finish_eq_zero_iff] at h
    rw [hconvert, state_finish, output_finish]
    exact ⟨input, bytes, hread, hconverts, delivers_of_writeOutput hwhole h⟩

end Written

end System

/-- Two short lines take more room as a source than as HTML. -/
def looseSource : Bytes := Utf8.encode "p   \n\n\n    \n\n\np   \n\n\n      \n".toList

/-- A source, next to another file. -/
def looseDirectory : Directory where
  files := [("page".toList, looseSource), ("notes".toList, [0, 1])]

/-- Standard output that takes three bytes and then has no space. -/
def fullOutput : System Directory :=
  { sandbox none (Utf8.encode "p x".toList) with
    print := fun _ => some ⟨3, PathError.noSpace.message⟩ }

end IndentMarkup.CommandLine
