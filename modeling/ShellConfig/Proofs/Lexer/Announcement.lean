import ShellConfig.Proofs.Lexer.LineBeginning

/-!
What a line announces at its beginning. Blanks and empty lines may come first; then an identifier
and an equals sign make the line an assignment, a dot makes it a directive, and any other line is
plain. Main statement: a line announces one operation, and the scan finds this one
(`announces_iff`, `pending_beginLine`).
-/

set_option autoImplicit false

namespace ShellConfig
namespace Token

/-! ## Blanks and empty lines -/

/-- The text holds nothing but blanks and line ends. -/
inductive BlankLines : List Char → Prop
  | nil : BlankLines []
  | lineFeed {rest : List Char} (h : BlankLines rest) : BlankLines ('\n' :: rest)
  | returned {rest : List Char} (h : BlankLines rest) : BlankLines ('\r' :: '\n' :: rest)
  | blank {c : Char} {rest : List Char} (hc : isInlineBlank c) (h : BlankLines rest) :
    BlankLines (c :: rest)

theorem ne_of_isInlineBlank {c : Char} (h : isInlineBlank c) : c ≠ '\r' ∧ c ≠ '\n' := by
  simp only [isInlineBlank, Bool.and_eq_true, decide_eq_true_eq] at h
  exact h.1

theorem BlankLines.length_append {blanks : List Char} (h : BlankLines blanks) (rest : List Char) :
    blankLinesLength (blanks ++ rest) = blanks.length + blankLinesLength rest := by
  induction h with
  | nil => exact (Nat.zero_add _).symm
  | lineFeed _ ih =>
    rw [List.cons_append, blankLinesLength, ih, List.length_cons]
    omega
  | returned _ ih =>
    rw [List.cons_append, List.cons_append, blankLinesLength_return, ih, List.length_cons,
      List.length_cons]
    omega
  | blank hc _ ih =>
    obtain ⟨hreturn, hlineFeed⟩ := ne_of_isInlineBlank hc
    rw [List.cons_append, blankLinesLength, if_pos hc, ih, List.length_cons]
    · omega
    · exact hlineFeed
    · exact fun _ h _ => hreturn h

theorem blankLines_take (text : List Char) : BlankLines (text.take (blankLinesLength text)) := by
  fun_induction blankLinesLength text with
  | case1 => exact .nil
  | case2 rest ih => exact ih.lineFeed
  | case3 rest ih => exact ih.returned
  | case4 c rest _ _ hc ih => exact ih.blank hc
  | case5 => exact .nil

theorem blankLinesLength_drop (text : List Char) :
    blankLinesLength (text.drop (blankLinesLength text)) = 0 := by
  have hlength := (blankLines_take text).length_append (text.drop (blankLinesLength text))
  rw [List.take_append_drop, List.length_take, Nat.min_eq_left (blankLinesLength_le text)]
    at hlength
  omega

/-! ## Announcements -/

/-- After blanks and empty lines the text names a variable, with this sign before its `=`. -/
def OpensAssignment (text : List Char) (name : String) (sign : List Char) : Prop :=
  ∃ blanks gap values, BlankLines blanks ∧ isIdentifier name ∧ (∀ c ∈ gap, isPlainBlank c) ∧
    text = blanks ++ (name.toList ++ (gap ++ (sign ++ '=' :: values)))

/-- After blanks and empty lines the next character of the text is a dot. -/
def OpensDirective (text : List Char) : Prop :=
  ∃ blanks tail, BlankLines blanks ∧ text = blanks ++ '.' :: tail

/-- What is to be done with the words of the line at the front of the text. -/
def Announces (text : List Char) : Operation → Prop
  | .set name => OpensAssignment text name []
  | .append name => OpensAssignment text name ['+']
  | .setIfUnset name => OpensAssignment text name ['?']
  | .directive => OpensDirective text
  | .plain => (∀ name sign, IsSign sign → ¬ OpensAssignment text name sign) ∧
      ¬ OpensDirective text

/-- The operation that a scan finds at the front of the text. -/
def announced (text : List Char) : Operation :=
  match (lineBeginning text).value with
  | some (name, sign) => .assignment name sign
  | none =>
    if (text.drop (lineBeginning text).length).head? = some '.' then .directive else .plain

variable {text blanks tail : List Char} {name : String} {sign : List Char}
  {operation : Operation}

/-- Only what comes after the blanks decides. -/
theorem announced_append (hblanks : BlankLines blanks) (htail : blankLinesLength tail = 0) :
    announced (blanks ++ tail) = match assignment tail with
      | some found => .assignment found.value.1 found.value.2
      | none => if tail.head? = some '.' then .directive else .plain := by
  have hlength : blankLinesLength (blanks ++ tail) = blanks.length := by
    rw [hblanks.length_append, htail, Nat.add_zero]
  unfold announced lineBeginning
  simp only [hlength, List.drop_left]
  cases assignment tail with
  | some found => rfl
  | none => simp only [List.drop_left]

theorem announced_of_opensAssignment (hsign : IsSign sign) (h : OpensAssignment text name sign) :
    announced text = .assignment name (String.ofList sign) := by
  obtain ⟨blanks, gap, values, hblanks, hname, hgap, rfl⟩ := h
  obtain ⟨c, rest, heq, hc, hrest⟩ := isIdentifierText_iff.1 hname
  have hzero := blankLinesLength_of_not_isBlank (isBlank_of_isIdentifierStart hc)
    (rest ++ (gap ++ (sign ++ '=' :: values)))
  rw [heq, List.cons_append, announced_append hblanks hzero,
    assignment_of_parts hc hrest hgap hsign, ← heq, String.ofList_toList]

theorem announced_of_opensDirective (h : OpensDirective text) : announced text = .directive := by
  obtain ⟨blanks, tail, hblanks, rfl⟩ := h
  rw [announced_append hblanks (blankLinesLength_of_not_isBlank (by decide) tail)]
  rfl

theorem announces_announced (text : List Char) : Announces text (announced text) := by
  have hblanks := blankLines_take text
  have hsplit := List.take_append_drop (blankLinesLength text) text
  have hfound := announced_append hblanks (blankLinesLength_drop text)
  rw [hsplit] at hfound
  generalize text.take (blankLinesLength text) = blanks at hblanks hsplit
  generalize text.drop (blankLinesLength text) = tail at hfound hsplit
  cases ha : assignment tail with
  | some found =>
    obtain ⟨⟨name, gap, sign, values, hname, hgap, hsign, rfl⟩, -⟩ :=
      beginsAssignment_of_eq_some ha
    have hopens : OpensAssignment text (String.ofList name) sign :=
      ⟨blanks, gap, values, hblanks, by rwa [isIdentifier, String.toList_ofList], hgap,
        by rw [String.toList_ofList, hsplit]⟩
    rw [announced_of_opensAssignment hsign hopens]
    rcases hsign with rfl | rfl | rfl <;> exact hopens
  | none =>
    rw [ha] at hfound
    simp only at hfound
    split at hfound
    · next hdot =>
      obtain ⟨rest, rfl⟩ := List.head?_eq_some_iff.1 hdot
      rw [hfound]
      exact ⟨blanks, rest, hblanks, hsplit.symm⟩
    · rw [hfound]
      refine ⟨fun name sign hsign h => ?_, fun h => ?_⟩
      · rw [announced_of_opensAssignment hsign h] at hfound
        rcases hsign with rfl | rfl | rfl <;> cases hfound
      · rw [announced_of_opensDirective h] at hfound
        cases hfound

/-- A line announces one operation. -/
theorem announces_iff : Announces text operation ↔ operation = announced text := by
  refine ⟨fun h => ?_, fun h => h ▸ announces_announced text⟩
  cases operation with
  | set name => exact (announced_of_opensAssignment (.inl rfl) h).symm
  | append name => exact (announced_of_opensAssignment (.inr (.inl rfl)) h).symm
  | setIfUnset name => exact (announced_of_opensAssignment (.inr (.inr rfl)) h).symm
  | directive => exact (announced_of_opensDirective h).symm
  | plain =>
    have hfound := announces_announced text
    generalize announced text = found at hfound
    cases found with
    | set name => exact absurd hfound (h.1 name [] (.inl rfl))
    | append name => exact absurd hfound (h.1 name ['+'] (.inr (.inl rfl)))
    | setIfUnset name => exact absurd hfound (h.1 name ['?'] (.inr (.inr rfl)))
    | directive => exact absurd hfound h.2
    | plain => rfl

example : announced " \r\n NAME\t?= .a".toList = .setIfUnset "NAME" := by decide +kernel

end Token

theorem Lexer.pending_beginLine {lexer : Lexer} (h : lexer.pending = .plain) :
    lexer.beginLine.pending = Token.announced lexer.cursor.rest := by
  have hpending : lexer.beginLine.pending = _ :=
    congrArg Reading.pending (reading_beginLine_eq lexer)
  rw [hpending, h]
  rfl

end ShellConfig
