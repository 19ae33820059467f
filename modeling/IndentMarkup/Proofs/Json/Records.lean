import IndentMarkup.Json
import IndentMarkup.Proofs.Json.Reader
import Mathlib.Tactic.SplitIfs

/-!
Printed records read back. The text of a list of records is one JSON text,
and its value has these records, with their fields in order, whatever
characters the fields hold.
-/

namespace IndentMarkup.Json

/-- The value of a record whose fields are strings. -/
def Value.ofRecord (fields : List (Text × Text)) : Value :=
  .object (fields.map fun field => (field.1, .string field.2))

namespace Reader

section Run

variable {reader middle : Reader}

theorem run_append (reader : Reader) (s t : Text) :
    reader.run (s ++ t) = (reader.run s).bind (Reader.run · t) :=
  List.foldlM_append

theorem run_append_of {s : Text} (h : reader.run s = some middle) (t : Text) :
    reader.run (s ++ t) = middle.run t := by
  rw [run_append, h, Option.bind_some]

theorem run_cons_of {c : Char} (h : reader.step c = some middle) (t : Text) :
    reader.run (c :: t) = middle.run t := by
  rw [run, List.foldlM_cons, h]
  rfl

end Run

section Strings

variable {stack : List Frame} {role : Role} {text : Text}

theorem hexDigit?_digitChar {n : Nat} (h : n < 16) :
    Quoting.hexDigit? (Nat.digitChar n) = some n := by
  have hall : ∀ n < 16, Quoting.hexDigit? (Nat.digitChar n) = some n := by decide
  exact hall n h

/-- The code unit of a control. -/
theorem run_unit {n : Nat} (h : n < 0x20) :
    Reader.run ⟨stack, .quoted role text .plain⟩
        ("\\u00".toList ++ [Nat.digitChar (n / 16), Nat.digitChar (n % 16)]) =
      some ⟨stack, .quoted role (text ++ [Char.ofNat n]) .plain⟩ := by
  have hzeros : Reader.run ⟨stack, .quoted role text .plain⟩ "\\u00".toList =
      some ⟨stack, .quoted role text (.unit none 2 0)⟩ := rfl
  have hdigit : Reader.step ⟨stack, .quoted role text (.unit none 2 0)⟩ (Nat.digitChar (n / 16)) =
      some ⟨stack, .quoted role text (.unit none 3 (n / 16))⟩ := by
    simp [step, Quoting.next?, hexDigit?_digitChar (by omega : n / 16 < 16)]
  have hhigh : Quoting.isHigh n = false := decide_eq_false (by omega)
  have hlow : Quoting.isLow n = false := decide_eq_false (by omega)
  have hlast : Reader.step ⟨stack, .quoted role text (.unit none 3 (n / 16))⟩
      (Nat.digitChar (n % 16)) =
      some ⟨stack, .quoted role (text ++ [Char.ofNat n]) .plain⟩ := by
    have hn : n / 16 * 16 + n % 16 = n := by omega
    simp [step, Quoting.next?, hexDigit?_digitChar (by omega : n % 16 < 16), hn, Quoting.addUnit,
      hhigh, hlow]
  rw [run_append_of hzeros, run_cons_of hdigit, run_cons_of hlast]
  rfl

theorem run_escaped (c : Char) :
    Reader.run ⟨stack, .quoted role text .plain⟩ (escaped c) =
      some ⟨stack, .quoted role (text ++ [c]) .plain⟩ := by
  unfold escaped
  split
  case isTrue h => subst h; rfl
  case isFalse hquote =>
  split
  case isTrue h => subst h; rfl
  case isFalse hbackslash =>
  iterate 5
    split
    case isTrue h => subst h; rfl
  split
  case isTrue h => rw [run_unit h, Char.ofNat_toNat]
  case isFalse hcontrol =>
    have hstep : Reader.step ⟨stack, .quoted role text .plain⟩ c =
        some ⟨stack, .quoted role (text ++ [c]) .plain⟩ := by
      simp [step, Quoting.next?, hquote, hbackslash, hcontrol]
    rw [run_cons_of hstep]
    rfl

theorem run_flatMap_escaped (s : Text) :
    Reader.run ⟨stack, .quoted role text .plain⟩ (s.flatMap escaped) =
      some ⟨stack, .quoted role (text ++ s) .plain⟩ := by
  induction s generalizing text with
  | nil => rw [List.append_nil]; rfl
  | cons c s ih =>
      rw [List.flatMap_cons, run_append_of (run_escaped c), ih, List.append_assoc,
        List.singleton_append]

/-- From its opening quote on, a printed string is the string. -/
theorem run_stringText {reader : Reader} (role : Role) (s : Text)
    (hquote : reader.step '"' = some ⟨stack, .quoted role [] .plain⟩) :
    reader.run (stringText s) = some ⟨stack, endString s role⟩ := by
  rw [stringText, List.cons_append, run_cons_of hquote, run_append_of (run_flatMap_escaped s)]
  rfl

end Strings

section Lists

/-- A list that is printed with separators. `Awaits` says that a reader is
before an item, with those that came before it. -/
theorem run_intercalate {α β : Type} {Awaits : Reader → List β → Prop} {text : α → Text}
    {after : List β → α → Reader} {separator ending : Text} (value : α → β)
    (closed : List β → Reader)
    (hitem : ∀ reader before item, Awaits reader before →
      reader.run (text item) = some (after before item))
    (hseparator : ∀ before item, ∃ reader, (after before item).run separator = some reader ∧
      Awaits reader (before ++ [value item]))
    (hending : ∀ before item,
      (after before item).run ending = some (closed (before ++ [value item])))
    {items : List α} (hitems : items ≠ []) {reader : Reader} {before : List β}
    (hawaits : Awaits reader before) :
    reader.run (separator.intercalate (items.map text) ++ ending) =
      some (closed (before ++ items.map value)) := by
  induction items generalizing reader before with
  | nil => exact absurd rfl hitems
  | cons item items ih =>
      have hfirst := hitem reader before item hawaits
      cases items with
      | nil =>
          rw [List.map_singleton, List.intercalate_singleton, run_append_of hfirst,
            hending, List.map_singleton]
      | cons next items =>
          obtain ⟨reader', hreader', hawaits'⟩ := hseparator before item
          rw [List.map_cons, List.map_cons, List.intercalate_cons_cons, ← List.map_cons,
            List.append_assoc, List.append_assoc, run_append_of hfirst, run_append_of hreader',
            ih (List.cons_ne_nil _ _) hawaits', List.append_assoc]
          rfl

theorem run_of_forall_step {reader : Reader} {text : Text}
    (h : ∀ c ∈ text, reader.step c = some reader) : reader.run text = some reader := by
  induction text with
  | nil => rfl
  | cons c text ih =>
      rw [run_cons_of (h c List.mem_cons_self), ih fun d hd => h d (List.mem_cons_of_mem c hd)]

end Lists

section Records

variable {stack : List Frame}

/-- A key comes next, with these members before it. -/
structure AwaitsKey (stack : List Frame) (reader : Reader) (members : List (Text × Value)) :
    Prop where
  space : reader.step ' ' = some reader
  quote : reader.step '"' = some ⟨stack, .quoted (.key members) [] .plain⟩

/-- An item comes next, with these items before it. -/
structure AwaitsItem (stack : List Frame) (reader : Reader) (items : List Value) : Prop where
  space : reader.step ' ' = some reader
  brace : reader.step '\x7b' = some ⟨.array items :: stack, .firstKey⟩

theorem run_fieldText (reader : Reader) (members : List (Text × Value)) (field : Text × Text)
    (h : AwaitsKey stack reader members) :
    reader.run (fieldText field) =
      some ⟨.object members field.1 :: stack, .done (.string field.2)⟩ := by
  have hindent : reader.run "    ".toList = some reader := run_of_forall_step (by simp [h.space])
  have hkey := run_stringText (.key members) field.1 h.quote
  have hcolon : Reader.run ⟨stack, .colon members field.1⟩ ": ".toList =
      some ⟨.object members field.1 :: stack, .value⟩ := rfl
  show reader.run ("    ".toList ++ stringText field.1 ++ ": ".toList ++ stringText field.2) = _
  rw [List.append_assoc, List.append_assoc, run_append_of hindent, run_append_of hkey, endString,
    run_append_of hcolon]
  exact run_stringText .value field.2 rfl

theorem awaitsKey_firstKey : AwaitsKey stack ⟨stack, .firstKey⟩ [] := ⟨rfl, rfl⟩

theorem awaitsKey_key (members : List (Text × Value)) :
    AwaitsKey stack ⟨stack, .key members⟩ members := ⟨rfl, rfl⟩

theorem awaitsItem_firstItem : AwaitsItem stack ⟨stack, .firstItem⟩ [] := ⟨rfl, rfl⟩

theorem awaitsItem_value (items : List Value) :
    AwaitsItem stack ⟨.array items :: stack, .value⟩ items := ⟨rfl, rfl⟩

theorem run_fields {fields : List (Text × Text)} (hfields : fields ≠ []) :
    Reader.run ⟨stack, .firstKey⟩
        (",\n".toList.intercalate (fields.map fieldText) ++ "\n  \x7d".toList) =
      some ⟨stack, .done (.ofRecord fields)⟩ := by
  refine run_intercalate (fun field => (field.1, .string field.2))
    (fun members => ⟨stack, .done (.object members)⟩) run_fieldText (fun members field => ?_)
    (fun members field => ?_) hfields awaitsKey_firstKey
  · exact ⟨_, rfl, awaitsKey_key _⟩
  · rfl

theorem run_recordText (reader : Reader) (items : List Value) (fields : List (Text × Text))
    (h : AwaitsItem stack reader items) :
    reader.run (recordText fields) =
      some ⟨.array items :: stack, .done (.ofRecord fields)⟩ := by
  have hindent : reader.run "  ".toList = some reader := run_of_forall_step (by simp [h.space])
  have hbrace : reader.run "  \x7b".toList = some ⟨.array items :: stack, .firstKey⟩ := by
    show reader.run ("  ".toList ++ ['\x7b']) = _
    rw [run_append_of hindent, run_cons_of h.brace]
    rfl
  rw [recordText]
  split_ifs with hempty
  case pos =>
    rw [List.isEmpty_iff.mp hempty]
    show reader.run ("  \x7b".toList ++ ['\x7d']) = _
    rw [run_append_of hbrace]
    rfl
  case neg =>
    have hopen : reader.run "  \x7b\n".toList = some ⟨.array items :: stack, .firstKey⟩ := by
      show reader.run ("  \x7b".toList ++ ['\n']) = _
      rw [run_append_of hbrace]
      rfl
    rw [List.append_assoc, run_append_of hopen, run_fields (mt List.isEmpty_iff.mpr hempty)]

theorem run_records {records : List (List (Text × Text))} (hrecords : records ≠ []) :
    Reader.run ⟨stack, .firstItem⟩
        (",\n".toList.intercalate (records.map recordText) ++ "\n]".toList) =
      some ⟨stack, .done (.array (records.map .ofRecord))⟩ := by
  refine run_intercalate .ofRecord (fun items => ⟨stack, .done (.array items)⟩) run_recordText
    (fun items record => ?_) (fun items record => ?_) hrecords awaitsItem_firstItem
  · exact ⟨_, rfl, awaitsItem_value _⟩
  · rfl

end Records

end Reader

/-- Printed records read back. -/
theorem read?_recordsText (records : List (List (Text × Text))) :
    read? (recordsText records) = some (.array (records.map .ofRecord)) := by
  rw [read?, recordsText]
  split_ifs with hempty
  case pos =>
    rw [List.isEmpty_iff.mp hempty]
    rfl
  case neg =>
    have hopen : Reader.start.run "[\n".toList = some ⟨[], .firstItem⟩ := rfl
    rw [List.append_assoc, Reader.run_append_of hopen,
      Reader.run_records (mt List.isEmpty_iff.mpr hempty)]
    rfl

end IndentMarkup.Json
