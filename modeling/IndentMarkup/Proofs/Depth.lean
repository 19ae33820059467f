import IndentMarkup.Document

/-!
Depth jumps of a document. The refusal of a document and the findings about it
come from two walks, one over the read lines that stops at the first jump and
one over the unread lines that goes on. Both see the same list of jumps.
-/

namespace IndentMarkup

/-- The deepest level without a jump after a line at level `previous`, or for
the first line. -/
def allowedLevel (previous : Option Nat) : Nat := previous.elim 0 (· + 1)

theorem jumpAfter?_eq (previous : Option Nat) (line : Line) :
    jumpAfter? previous line =
      if allowedLevel previous < line.level then
        some ⟨previous.getD 0, line.level, line.content⟩
      else none := by
  cases previous <;> rfl

/-- The jumps of a list of lines, in order. -/
def jumpsAfter (previous : Option Nat) : List Line → List DepthJump
  | [] => []
  | line :: rest => (jumpAfter? previous line).toList ++ jumpsAfter (some line.level) rest

def Diagnostic.isJump : Diagnostic → Bool
  | depthJump _ => true
  | unclosedGroup _ => false
  | unresolvedAttribute _ _ => false

/-- Jumps can be told by their code. -/
theorem Diagnostic.code_eq_iff_isJump (diagnostic : Diagnostic) :
    diagnostic.code = "W_DEPTH_JUMP".toList ↔ diagnostic.isJump = true := by
  have hunclosed : "W_ATTR_UNCLOSED".toList ≠ "W_DEPTH_JUMP".toList := by decide
  have hunresolved : "W_ATTR_UNRESOLVED".toList ≠ "W_DEPTH_JUMP".toList := by decide
  cases diagnostic with
  | depthJump jump => exact ⟨fun _ => rfl, fun _ => rfl⟩
  | unclosedGroup content =>
      exact ⟨fun hcode => absurd hcode hunclosed, fun hjump => absurd hjump Bool.false_ne_true⟩
  | unresolvedAttribute word content =>
      exact ⟨fun hcode => absurd hcode hunresolved, fun hjump => absurd hjump Bool.false_ne_true⟩

theorem Diagnostic.decide_code_eq :
    (fun diagnostic : Diagnostic => decide (diagnostic.code = "W_DEPTH_JUMP".toList)) = isJump := by
  funext diagnostic
  rw [Bool.eq_iff_iff, decide_eq_true_iff]
  exact diagnostic.code_eq_iff_isJump

/-- Reading a line changes neither its level nor its content. -/
theorem jumpsAfter_map_read (previous : Option Nat) (lines : List Line) :
    jumpsAfter previous (lines.map Line.read) = jumpsAfter previous lines := by
  induction lines generalizing previous with
  | nil => rfl
  | cons line lines ih =>
      have hjump : jumpAfter? previous line.read = jumpAfter? previous line := by
        simp [jumpAfter?]
      rw [List.map_cons, jumpsAfter, jumpsAfter, hjump, Line.level_read, ih]

theorem refuseJumpsAfter_eq (previous : Option Nat) (lines : List Line) :
    refuseJumpsAfter previous lines =
      match (jumpsAfter previous lines).head? with
      | some jump => .error jump
      | none => .ok () := by
  induction lines generalizing previous with
  | nil => rfl
  | cons line lines ih =>
      rw [refuseJumpsAfter, jumpsAfter]
      cases jumpAfter? previous line with
      | none => exact ih _
      | some jump => rfl

/-- What a line's attribute list gives is never a jump. -/
theorem isJump_of_mem_findings {line : Line} {diagnostic : Diagnostic}
    (h : diagnostic ∈ line.findings) : diagnostic.isJump = false := by
  rw [Line.findings] at h
  split at h
  case h_1 => cases h
  case h_2 selector hselector =>
    rw [Selector.findings] at h
    split at h
    case h_1 => cases h
    case h_2 =>
      rw [List.mem_singleton.mp h]
      rfl
    case h_3 =>
      obtain ⟨word, -, rfl⟩ := List.mem_map.mp h
      rfl

/-- The jumps among the findings are the jumps of the lines. -/
theorem filter_diagnosticsAfter (previous : Option Nat) (lines : List Line) :
    (Document.diagnosticsAfter previous lines).filter Diagnostic.isJump =
      (jumpsAfter previous lines).map .depthJump := by
  induction lines generalizing previous with
  | nil => rfl
  | cons line lines ih =>
      have hjump : ((jumpAfter? previous line).toList.map Diagnostic.depthJump).filter
          Diagnostic.isJump = (jumpAfter? previous line).toList.map .depthJump := by
        cases jumpAfter? previous line with
        | none => rfl
        | some jump => rfl
      have hfindings : line.findings.filter Diagnostic.isJump = [] := by
        rw [List.filter_eq_nil_iff]
        intro diagnostic hmem
        rw [isJump_of_mem_findings hmem]
        exact Bool.false_ne_true
      -- A line's own jump comes before its other findings, as in `jumpsAfter`.
      rw [Document.diagnosticsAfter, List.filter_append, List.filter_append, hjump, hfindings, ih,
        jumpsAfter, List.map_append, List.append_nil]

/-- Lines that nothing else is found about. -/
theorem Document.exists_depthJump_of_mem_diagnosticsAfter {previous : Option Nat}
    {lines : List Line} (h : ∀ line ∈ lines, line.findings = []) :
    ∀ diagnostic ∈ diagnosticsAfter previous lines, ∃ jump, diagnostic = .depthJump jump := by
  induction lines generalizing previous with
  | nil => simp [diagnosticsAfter]
  | cons line lines ih =>
      intro diagnostic hmem
      rw [diagnosticsAfter, h line (by simp), List.append_nil] at hmem
      rcases List.mem_append.mp hmem with hjump | hrest
      · obtain ⟨jump, -, heq⟩ := List.mem_map.mp hjump
        exact ⟨jump, heq.symm⟩
      · exact ih (fun other hother => h other (by simp [hother])) diagnostic hrest

/-- The jump that a document is refused for is the first one reported. -/
theorem refuseJumps_lines_parse (canonical : Text) :
    refuseJumps (Document.parse canonical).lines =
      match (Document.parse canonical).diagnostics.find? Diagnostic.isJump with
      | some (.depthJump jump) => .error jump
      | _ => .ok () := by
  have hfind : (Document.parse canonical).diagnostics.find? Diagnostic.isJump =
      (jumpsAfter none (separateBlocks (outline canonical))).head?.map .depthJump := by
    rw [← List.head?_filter, Document.parse, Document.ofLines, filter_diagnosticsAfter,
      List.head?_map]
  rw [hfind, refuseJumps, refuseJumpsAfter_eq, Document.parse, Document.ofLines,
    jumpsAfter_map_read]
  cases (jumpsAfter none (separateBlocks (outline canonical))).head? with
  | none => rfl
  | some jump => rfl

end IndentMarkup
