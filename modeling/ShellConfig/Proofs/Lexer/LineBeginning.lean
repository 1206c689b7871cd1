import ShellConfig.Proofs.Lexer.Characters

/-!
How a line begins. An identifier, blanks, a sign and an equals sign begin an assignment, and nothing
else does (`assignment_isSome_iff`). The rest of the line is read for the operation that its beginning
asks for (`readLines_assignment`, `readLines_of_not_isBlank`).
-/

set_option autoImplicit false

namespace ShellConfig

/-! ## Names and blanks -/

theorem inRanges_of_apart {left right : List CharRange} {c : Char}
    (hapart : (left.all fun l => right.all fun r => l.2 < r.1 || r.2 < l.1) = true)
    (hc : inRanges left c) : inRanges right c = false := by
  obtain ⟨l, hl, hlc⟩ := inRanges_eq_true_iff.1 hc
  rw [← Bool.not_eq_true]
  intro hr
  obtain ⟨r, hr, hrc⟩ := inRanges_eq_true_iff.1 hr
  have hlr := List.all_eq_true.1 (List.all_eq_true.1 hapart l hl) r hr
  simp only [Bool.or_eq_true, decide_eq_true_eq] at hlr
  omega

theorem isLetter_of_isBlank {c : Char} (h : isBlank c) : isLetter c = false := by
  unfold isLetter
  split
  · next hascii =>
    have hcases : c.toNat ∈ [0x9, 0xA, 0xB, 0xC, 0xD, 0x20] := by
      obtain ⟨range, hrange, hlow, hhigh⟩ := inRanges_eq_true_iff.1 h
      have hlist : range = (0x9, 0xD) ∨ range = (0x20, 0x20) ∨ 0x80 ≤ range.1 := by
        clear hlow hhigh
        revert range
        decide
      rcases hlist with rfl | rfl | hle <;> simp at * <;> omega
    have hchar : c = Char.ofNat c.toNat := c.ofNat_toNat.symm
    generalize c.toNat = n at hcases hchar
    subst hchar
    clear h hascii
    revert n
    decide
  · exact inRanges_of_apart (by decide +kernel) h

theorem isIdentifierStart_of_isBlank {c : Char} (h : isBlank c) : isIdentifierStart c = false := by
  have hne : c ≠ '_' := by
    rintro rfl
    exact absurd h (by decide)
  rw [isIdentifierStart, isLetter_of_isBlank h, decide_eq_false hne, Bool.or_self]

theorem isBlank_of_isIdentifierStart {c : Char} (h : isIdentifierStart c) : isBlank c = false := by
  rw [← Bool.not_eq_true]
  intro hblank
  rw [isIdentifierStart_of_isBlank hblank] at h
  cases h

theorem isIdentifierRest_of_isPlainBlank {c : Char} (h : isPlainBlank c) :
    isIdentifierRest c = false := by
  simp only [isPlainBlank, Bool.or_eq_true, decide_eq_true_eq] at h
  rcases h with ((rfl | rfl) | rfl) | rfl <;> decide

/-! ## The beginning of a line -/

namespace Token

/-- No blanks are left out before a character that is none. -/
theorem blankLinesLength_of_not_isBlank {c : Char} (h : isBlank c = false) (rest : List Char) :
    blankLinesLength (c :: rest) = 0 := by
  have hreturn : c ≠ '\r' := by rintro rfl; exact absurd h (by decide)
  have hlineFeed : c ≠ '\n' := by rintro rfl; exact absurd h (by decide)
  have hinline : isInlineBlank c = false := by simp [isInlineBlank, h]
  rw [blankLinesLength, if_neg (by simp [hinline])]
  · exact hlineFeed
  · exact fun tail hc _ => hreturn hc

/-- The signs that can stand before the equals sign of an assignment. -/
def IsSign (sign : List Char) : Prop := sign = [] ∨ sign = ['+'] ∨ sign = ['?']

section
variable {c : Char} {tail gap sign values : List Char}

theorem takeWhile_append_of_head {accepts : Char → Bool} {front back : List Char}
    (hfront : ∀ d ∈ front, accepts d) (hback : back.head?.any accepts = false) :
    (front ++ back).takeWhile accepts = front ∧ (front ++ back).dropWhile accepts = back := by
  have hnil : back.takeWhile accepts = [] ∧ back.dropWhile accepts = back := by
    rcases back with _ | ⟨d, back⟩
    · exact ⟨rfl, rfl⟩
    · have hd : accepts d = false := hback
      simp [hd]
  rw [List.takeWhile_append_of_pos hfront, List.dropWhile_append_of_pos hfront, hnil.1, hnil.2]
  simp

/-- A text that begins with the parts of an assignment begins an assignment. -/
theorem assignment_of_parts (hc : isIdentifierStart c) (htail : ∀ d ∈ tail, isIdentifierRest d)
    (hgap : ∀ d ∈ gap, isPlainBlank d) (hsign : IsSign sign) :
    assignment (c :: (tail ++ (gap ++ (sign ++ '=' :: values)))) =
      some ⟨1 + tail.length + gap.length + sign.length + 1
          + (values.takeWhile isPlainBlank).length,
        (String.ofList (c :: tail), String.ofList sign)⟩ := by
  have hnameEnd : (gap ++ (sign ++ '=' :: values)).head?.any isIdentifierRest = false := by
    rcases gap with _ | ⟨d, gap⟩
    · rcases hsign with rfl | rfl | rfl <;> rfl
    · exact isIdentifierRest_of_isPlainBlank (hgap d (by simp))
  have hgapEnd : (sign ++ '=' :: values).head?.any isPlainBlank = false := by
    rcases hsign with rfl | rfl | rfl <;> rfl
  obtain ⟨hname, hafterName⟩ := takeWhile_append_of_head htail hnameEnd
  obtain ⟨hblanks, hafterGap⟩ := takeWhile_append_of_head hgap hgapEnd
  have hparts : assignmentSign (sign ++ '=' :: values) = sign ∧
      (sign ++ '=' :: values).drop sign.length = '=' :: values := by
    rcases hsign with rfl | rfl | rfl <;> exact ⟨rfl, rfl⟩
  rw [assignment, if_pos hc]
  simp only [hname, hafterName, hblanks, hafterGap, hparts]

/-- Whether the text begins with an identifier, blanks, at most one sign and an equals sign. -/
def BeginsAssignment (text : List Char) : Prop :=
  ∃ name gap sign values, isIdentifierText name ∧ (∀ d ∈ gap, isPlainBlank d) ∧ IsSign sign ∧
    text = name ++ (gap ++ (sign ++ '=' :: values))

theorem isIdentifierText_iff {text : List Char} : isIdentifierText text ↔
    ∃ c tail, text = c :: tail ∧ isIdentifierStart c ∧ ∀ d ∈ tail, isIdentifierRest d := by
  rcases text with _ | ⟨c, tail⟩
  · simp [isIdentifierText]
  · simp only [isIdentifierText, Bool.and_eq_true, List.all_eq_true]
    constructor
    · intro ⟨hc, htail⟩
      exact ⟨c, tail, rfl, hc, htail⟩
    · rintro ⟨_, _, heq, hparts⟩
      obtain ⟨rfl, rfl⟩ := List.cons.inj heq
      exact hparts

theorem assignmentSign_drop (text : List Char) :
    IsSign (assignmentSign text) ∧
      text = assignmentSign text ++ text.drop (assignmentSign text).length := by
  unfold assignmentSign IsSign
  split <;> simp

/-- What is found at the front of a text has the parts of an assignment. -/
theorem beginsAssignment_of_eq_some {found : Match (String × String)} {text : List Char}
    (h : assignment text = some found) :
    BeginsAssignment text ∧ isIdentifier found.value.1 := by
  rcases text with _ | ⟨c, rest⟩
  · cases h
  · rw [assignment] at h
    simp only at h
    split at h
    · next hc =>
      have htail : ∀ d ∈ rest.takeWhile isIdentifierRest, isIdentifierRest d :=
        List.all_eq_true.1 List.all_takeWhile
      have hname := List.takeWhile_append_dropWhile (p := isIdentifierRest) (l := rest)
      have hgapAll : ∀ d ∈ (rest.dropWhile isIdentifierRest).takeWhile isPlainBlank,
          isPlainBlank d := List.all_eq_true.1 List.all_takeWhile
      have hgap := List.takeWhile_append_dropWhile (p := isPlainBlank)
        (l := rest.dropWhile isIdentifierRest)
      obtain ⟨hsign, hdrop⟩ :=
        assignmentSign_drop ((rest.dropWhile isIdentifierRest).dropWhile isPlainBlank)
      have hidentifier : isIdentifierText (c :: rest.takeWhile isIdentifierRest) :=
        isIdentifierText_iff.2 ⟨c, _, rfl, hc, htail⟩
      split at h
      · next values heq =>
        obtain rfl := Option.some.inj h
        refine ⟨⟨_, _, _, values, hidentifier, hgapAll, hsign, ?_⟩, ?_⟩
        · rw [← heq, ← hdrop, hgap, List.cons_append, hname]
        · rw [isIdentifier, String.toList_ofList]
          exact hidentifier
      · cases h
    · cases h

theorem assignment_isSome_iff {text : List Char} :
    (assignment text).isSome ↔ BeginsAssignment text := by
  constructor
  · intro h
    obtain ⟨found, hf⟩ := Option.isSome_iff_exists.1 h
    exact (beginsAssignment_of_eq_some hf).1
  · rintro ⟨name, gap, sign, values, hname, hgap, hsign, rfl⟩
    obtain ⟨c, tail, rfl, hc, htail⟩ := isIdentifierText_iff.1 hname
    rw [List.cons_append, assignment_of_parts hc htail hgap hsign]
    rfl

end

end Token

/-! ## Reading a line -/

section
variable {scope : Scope} {session : Session} {name gap sign values rest : List Char} {c : Char}
  {pending : Operation} (hscope : scope.IgnoresPositions)
include hscope

namespace Scope

theorem read_dropWhile_isPlainBlank :
    scope.read ⟨values.dropWhile isPlainBlank, false, none, [], pending⟩ session =
      scope.read ⟨values, false, none, [], pending⟩ session := by
  induction values with
  | nil => rfl
  | cons c values ih =>
    by_cases hc : isPlainBlank c
    · rw [List.dropWhile_cons_of_pos hc, ih, read_blank hscope (isInlineBlank_of_isPlainBlank hc)]
      rfl
    · rw [List.dropWhile_cons_of_neg hc]

/-- After the equals sign the values of the variable remain to be read. -/
theorem readLines_assignment (hname : isIdentifierText name) (hgap : ∀ d ∈ gap, isPlainBlank d)
    (hsign : Token.IsSign sign) :
    scope.readLines (name ++ (gap ++ (sign ++ '=' :: values))) session =
      scope.read ⟨values, false, none, [],
        .assignment (String.ofList name) (String.ofList sign)⟩ session := by
  obtain ⟨c, tail, rfl, hc, htail⟩ := Token.isIdentifierText_iff.1 hname
  have hbeginning : Token.lineBeginning (c :: tail ++ (gap ++ (sign ++ '=' :: values))) =
      ⟨(c :: tail ++ (gap ++ (sign ++ ['=']))).length + (values.takeWhile isPlainBlank).length,
        some (String.ofList (c :: tail), String.ofList sign)⟩ := by
    rw [List.cons_append, Token.lineBeginning,
      Token.blankLinesLength_of_not_isBlank (isBlank_of_isIdentifierStart hc), List.drop_zero,
      Token.assignment_of_parts hc htail hgap hsign]
    simp
    omega
  have hdrop : (c :: tail ++ (gap ++ (sign ++ '=' :: values))).drop
      ((c :: tail ++ (gap ++ (sign ++ ['=']))).length + (values.takeWhile isPlainBlank).length) =
      values.dropWhile isPlainBlank := by
    have hsplit : c :: tail ++ (gap ++ (sign ++ '=' :: values)) =
        c :: tail ++ (gap ++ (sign ++ ['='])) ++ values := by simp
    rw [hsplit, ← List.drop_drop, List.drop_left]
    exact drop_length_takeWhile isPlainBlank values
  have hrest :
      (Lexer.ofText (String.ofList (c :: tail ++ (gap ++ (sign ++ '=' :: values))))).cursor.rest =
        c :: tail ++ (gap ++ (sign ++ '=' :: values)) := String.toList_ofList
  rw [readLines_eq_read hscope, Lexer.reading_beginLine_eq, hrest, hbeginning, hdrop]
  exact read_dropWhile_isPlainBlank hscope

theorem readLines_set {name : String} (hname : isIdentifier name) (values : List Char) :
    scope.readLines (name ++ " = " ++ String.ofList values).toList session =
      scope.read ⟨values, false, none, [], .set name⟩ session := by
  have htext : (name ++ " = " ++ String.ofList values).toList =
      name.toList ++ ([' '] ++ ([] ++ '=' :: ' ' :: values)) := by simp
  rw [htext, readLines_assignment hscope hname (List.forall_mem_singleton.2 rfl) (.inl rfl),
    String.ofList_toList, read_blank hscope (by decide)]
  rfl

/-- A line that is no assignment is read from its first character, and a dot makes it a directive. -/
theorem readLines_of_not_isBlank (hblank : isBlank c = false)
    (h : ¬ Token.BeginsAssignment (c :: rest)) :
    scope.readLines (c :: rest) session =
      scope.read ⟨c :: rest, false, none, [], if c = '.' then .directive else .plain⟩ session := by
  have hnone : Token.assignment (c :: rest) = none := by
    rw [← Token.assignment_isSome_iff, Option.not_isSome_iff_eq_none] at h
    exact h
  have hbeginning : Token.lineBeginning (c :: rest) = ⟨0, none⟩ := by
    rw [Token.lineBeginning, Token.blankLinesLength_of_not_isBlank hblank, List.drop_zero, hnone]
  have hrest : (Lexer.ofText (String.ofList (c :: rest))).cursor.rest = c :: rest :=
    String.toList_ofList
  have hplain : (Lexer.ofText (String.ofList (c :: rest))).pending = .plain := rfl
  rw [readLines_eq_read hscope, Lexer.reading_beginLine_eq, hrest, hbeginning, hplain]
  simp only [List.drop_zero, List.head?_cons, Option.some.injEq]
  rfl

end Scope

end

end ShellConfig
