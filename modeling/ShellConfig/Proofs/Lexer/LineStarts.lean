import ShellConfig.Proofs.Lexer.Faults

/-!
Where lines begin. A scan begins a line at the front of the text, behind a line feed or at the end
of the text (`Occurs.passed_of_beginOfLine`), and a directive begins with a dot that only blanks
come before (`Occurs.dot_of_called`). Nothing is done with a line before it ends, so every scan has
the configuration with which its line began (`Scan.exists_within`).
-/

set_option autoImplicit false

namespace ShellConfig

/-! ## Ends of lines -/

/-- The text is empty or ends with a line feed. -/
def EndsLine (text : List Char) : Prop := text = [] ∨ text.getLast? = some '\n'

theorem endsLine_nil : EndsLine [] := .inl rfl

theorem EndsLine.append {front back : List Char} (hfront : EndsLine front) (hback : EndsLine back) :
    EndsLine (front ++ back) := by
  obtain rfl | hlast := hback
  · rwa [List.append_nil]
  · exact .inr (by rw [List.getLast?_append, hlast]; rfl)

theorem EndsLine.cons {text : List Char} {c : Char} (h : EndsLine text)
    (hc : text = [] → c = '\n') : EndsLine (c :: text) := by
  right
  rw [List.getLast?_cons]
  obtain rfl | hlast := h
  · rw [hc rfl]
    rfl
  · rw [hlast]
    rfl

/-- Only blanks come before the end of the text on its last line. -/
def EndsBlank (text : List Char) : Prop :=
  ∀ c ∈ text.reverse.takeWhile (· ≠ '\n'), isBlank c

theorem EndsLine.endsBlank {lines blanks : List Char} (hlines : EndsLine lines)
    (hblanks : ∀ c ∈ blanks, isInlineBlank c) : EndsBlank (lines ++ blanks) := by
  have hall : ∀ c ∈ blanks.reverse, decide (c ≠ '\n') = true := by
    intro c hc
    have hblank := hblanks c (List.mem_reverse.1 hc)
    rw [isInlineBlank, Bool.and_eq_true, Bool.and_eq_true] at hblank
    exact hblank.1.2
  have hnone : lines.reverse.takeWhile (· ≠ '\n') = [] := by
    obtain rfl | hlast := hlines
    · rfl
    · rw [List.getLast?_eq_head?_reverse] at hlast
      obtain ⟨before, hbefore⟩ := List.head?_eq_some_iff.1 hlast
      rw [hbefore]
      rfl
  intro c hc
  rw [List.reverse_append, List.takeWhile_append_of_pos hall, hnone, List.append_nil] at hc
  have hblank := hblanks c (List.mem_reverse.1 hc)
  rw [isInlineBlank, Bool.and_eq_true] at hblank
  exact hblank.2

namespace Token

theorem endsLine_lineEnds (text : List Char) : EndsLine (text.take (lineEndsLength text)) := by
  fun_induction lineEndsLength text with
  | case1 rest ih =>
    rw [List.take_succ_cons]
    exact ih.cons fun _ => rfl
  | case2 rest ih =>
    rw [List.take_succ_cons, List.take_succ_cons]
    exact (ih.cons fun _ => rfl).cons fun h => absurd h (List.cons_ne_nil _ _)
  | case3 => exact endsLine_nil

theorem getLast?_comment {text : List Char} {found : Match Unit} (h : comment text = some found) :
    text.drop found.length = [] ∨ (text.take found.length).getLast? = some '\n' := by
  unfold comment at h
  split at h
  · next rest =>
    obtain rfl := Option.some.inj h
    have hdrop : rest.drop (rest.takeWhile (· ≠ '\n')).length = rest.dropWhile (· ≠ '\n') :=
      Scope.drop_length_takeWhile _ rest
    have hlength : 1 + (rest.takeWhile (· ≠ '\n')).length + lineEndsLength
        (rest.drop (rest.takeWhile (· ≠ '\n')).length) =
        ('#' :: rest.takeWhile (· ≠ '\n')).length + lineEndsLength (rest.dropWhile (· ≠ '\n')) := by
      rw [hdrop, List.length_cons]
      omega
    have htext : '#' :: rest =
        ('#' :: rest.takeWhile (· ≠ '\n')) ++ rest.dropWhile (· ≠ '\n') := by
      rw [List.cons_append, List.takeWhile_append_dropWhile]
    simp only [hlength]
    rw [htext, List.drop_append, List.take_append, List.drop_of_length_le (Nat.le_add_right _ _),
      List.take_of_length_le (Nat.le_add_right _ _), Nat.add_sub_cancel_left]
    cases htail : rest.dropWhile (· ≠ '\n') with
    | nil => exact .inl rfl
    | cons c tail =>
      have hc : c = '\n' := by
        have hhead := List.head?_dropWhile_not (· ≠ '\n') rest
        rw [htail] at hhead
        simpa using hhead
      have hends := endsLine_lineEnds (c :: tail)
      obtain hnil | hlast := hends
      · rw [hc, lineEndsLength, List.take_succ_cons] at hnil
        cases hnil
      · right
        rw [List.getLast?_append, hlast]
        rfl
  · cases h

theorem getLast?_of_ends {mode : Mode} {reader : Reader Unit} {text : List Char}
    {found : Match Unit} (hm : mode.ends? = some reader) (h : reader text = some found) :
    text.drop found.length = [] ∨ (text.take found.length).getLast? = some '\n' := by
  cases mode <;> cases hm
  · exact getLast?_comment h
  · obtain ⟨hpos, hne⟩ := consumes_lineEnds _ _ h
    unfold lineEnds at h
    split at h
    · cases h
    · obtain rfl := Option.some.inj h
      obtain hnil | hlast := endsLine_lineEnds text
      · obtain hzero | hnil := List.take_eq_nil_iff.1 hnil
        · rw [hzero] at hpos
          cases hpos
        · exact absurd hnil hne
      · exact .inr hlast

/-- The text before an assignment or a dot: empty and blank lines, and then blanks. -/
theorem take_blankLinesLength (text : List Char) :
    ∃ lines blanks, text.take (blankLinesLength text) = lines ++ blanks ∧ EndsLine lines ∧
      ∀ c ∈ blanks, isInlineBlank c := by
  fun_induction blankLinesLength text with
  | case1 => exact ⟨[], [], rfl, endsLine_nil, by simp⟩
  | case2 rest ih =>
    obtain ⟨lines, blanks, htake, hlines, hblanks⟩ := ih
    refine ⟨'\n' :: lines, blanks, ?_, hlines.cons fun _ => rfl, hblanks⟩
    rw [List.take_succ_cons, htake, List.cons_append]
  | case3 rest ih =>
    obtain ⟨lines, blanks, htake, hlines, hblanks⟩ := ih
    refine ⟨'\r' :: '\n' :: lines, blanks, ?_, ?_, hblanks⟩
    · rw [List.take_succ_cons, List.take_succ_cons, htake, List.cons_append, List.cons_append]
    · exact (hlines.cons fun _ => rfl).cons fun h => absurd h (List.cons_ne_nil _ _)
  | case4 c rest hlf hcrlf hc ih =>
    obtain ⟨lines, blanks, htake, hlines, hblanks⟩ := ih
    rw [List.take_succ_cons, htake]
    by_cases hnil : lines = []
    · refine ⟨[], c :: blanks, by rw [hnil]; rfl, endsLine_nil, ?_⟩
      intro d hd
      obtain rfl | hd := List.mem_cons.1 hd
      · exact hc
      · exact hblanks d hd
    · exact ⟨c :: lines, blanks, rfl, hlines.cons fun h => absurd h hnil, hblanks⟩
  | case5 c rest hlf hcrlf hc => exact ⟨[], [], rfl, endsLine_nil, by simp⟩

end Token

/-! ## Beginnings of lines -/

namespace Lexer

section
variable {text : String} {mode : Mode} {lexer ended : Lexer} {continuation : Continuation}

theorem Occurs.passed_take (h : Occurs text mode lexer) (length : Nat) :
    (lexer.take length).cursor.passed =
      lexer.cursor.passed ++ String.ofList (lexer.cursor.rest.take length) := by
  simp [take, Cursor.take, Cursor.commit, h.lexeme_eq]

/-- A line begins at the front of the text, behind a line feed, or at the end of the text. -/
theorem Occurs.passed_of_beginOfLine (h : Occurs text .beginOfLine lexer) :
    EndsLine lexer.cursor.passed.toList ∨ lexer.cursor.rest = [] := by
  cases h with
  | start => exact .inl endsLine_nil
  | @step _ mode _ before _ _ _ hbefore hstep =>
    obtain ⟨-, ended, hended, rfl⟩ | ⟨hne, -⟩ := ended?_of_step hstep
    · obtain ⟨-, -, hnone⟩ | ⟨reader, found, hm, hf, rfl, -⟩ := ended?_cases hended
      · cases hnone
      · obtain hrest | hlast := Token.getLast?_of_ends hm hf
        · exact .inr hrest
        · have hpassed : (before.take found.length).clearLine.cursor.passed =
              before.cursor.passed ++ String.ofList (before.cursor.rest.take found.length) :=
            hbefore.passed_take found.length
          left
          right
          rw [hpassed, String.toList_append, String.toList_ofList, List.getLast?_append, hlast]
          rfl
    · exact absurd rfl hne

theorem Occurs.lineStart_of_beginOfLine (h : Occurs text .beginOfLine lexer) :
    lexer.lineStart = none := by
  cases h with
  | start => rfl
  | step _ hstep =>
    obtain ⟨-, ended, -, rfl⟩ | ⟨hne, -⟩ := ended?_of_step hstep
    · rfl
    · exact absurd rfl hne

/-! ## The dot of a directive -/

/-- With the first state a directive line begins. Its dot is what comes next once the blanks and
empty lines are passed over, and on its own line there are only blanks before it. -/
structure BeginsDirective (text : String) (first : Lexer) (tail : List Char) : Prop where
  occurs : Occurs text .beginOfLine first
  pending : first.beginLine.pending = .directive
  rest : first.beginLine.cursor.rest = '.' :: tail
  blank : EndsBlank first.beginLine.cursor.passed.toList

theorem Occurs.beginLine (h : Occurs text .beginOfLine lexer) :
    Occurs text .dispatch lexer.beginLine := by
  have hstep : Lexer.step .idle .beginOfLine lexer (.ofConfig .empty) =
      (.ok (some (.dispatch, lexer.beginLine)), .ofConfig .empty) := rfl
  exact h.step hstep

/-- Where a line turns out to be a directive, its dot is the next character. -/
theorem Occurs.dot_of_beginLine (h : Occurs text .beginOfLine lexer)
    (hp : lexer.beginLine.pending = .directive) : ∃ tail, BeginsDirective text lexer tail := by
  have hdirective := hp
  have hplain : lexer.pending = .plain := congrArg Reading.pending h.fits
  have hpending : lexer.beginLine.pending = _ :=
    congrArg Reading.pending (reading_beginLine_eq lexer)
  have hcursor := cursor_beginLine lexer
  rw [hp, hplain] at hpending
  rw [Token.lineBeginning] at hpending hcursor
  simp only at hpending hcursor
  cases hf : Token.assignment
      (lexer.cursor.rest.drop (Token.blankLinesLength lexer.cursor.rest)) with
  | some found =>
    rw [hf] at hpending
    simp only [Operation.assignment] at hpending
    repeat' split at hpending
    all_goals cases hpending
  | none =>
    rw [hf] at hpending hcursor
    simp only at hpending hcursor
    have hpassed : lexer.beginLine.cursor.passed = lexer.cursor.passed ++
        String.ofList (lexer.cursor.rest.take (Token.blankLinesLength lexer.cursor.rest)) := by
      rw [hcursor, h.passed_take]
    have hrest : lexer.beginLine.cursor.rest =
        lexer.cursor.rest.drop (Token.blankLinesLength lexer.cursor.rest) := by
      rw [hcursor]
      rfl
    split at hpending
    · next hdot =>
      obtain ⟨tail, htail⟩ := List.head?_eq_some_iff.1 hdot
      rw [← hrest] at htail
      refine ⟨tail, h, hdirective, htail, ?_⟩
      obtain ⟨lines, blanks, htake, hlines, hblanks⟩ :=
        Token.take_blankLinesLength lexer.cursor.rest
      rw [hpassed, htake, String.toList_append, String.toList_ofList, ← List.append_assoc]
      have hfront : EndsLine lexer.cursor.passed.toList := by
        refine h.passed_of_beginOfLine.resolve_right fun hnil => ?_
        rw [hrest, hnil, List.drop_nil] at htail
        cases htail
      exact (hfront.append hlines).endsBlank hblanks
    · cases hpending

theorem lineStart_eq {after : Lexer} {offset : Nat}
    (h : after.lineStart = lexer.lineStart ∨ after.lineStart = some lexer.lineOffset)
    (hstart : lexer.lineStart = some offset) : after.lineStart = some offset := by
  have hoffset : lexer.lineOffset = offset := by rw [lineOffset, hstart]; rfl
  obtain h | h := h
  · rw [h, hstart]
  · rw [h, hoffset]

theorem accepts_of_fits {c : Char} {tail : List Char} (hfits : lexer.Fits mode)
    (hrest : lexer.cursor.rest = c :: tail) (hmode : mode.rank = 0) : mode.accepts c = true := by
  have hnext : lexer.nextMode = .ok mode := by cases mode <;> first | exact hfits | cases hmode
  have hne : mode ≠ .finish := by
    rintro rfl
    rw [(nextMode_eq_finish hnext).2] at hrest
    cases hrest
  obtain ⟨d, more, hr, haccepts⟩ := exists_accepts_of_nextMode hnext hne
  rw [hrest] at hr
  obtain ⟨rfl, -⟩ := List.cons.inj hr
  exact haccepts

/-- A dot that begins a line is text, and so begins the first word. -/
theorem lineStart_of_reads_dot {read : Lexer → Except LexFailure Lexer} {after : Lexer}
    {tail : List Char} (hfits : lexer.Fits mode) (hm : mode.reads? = some read)
    (hrest : lexer.cursor.rest = '.' :: tail) (hnone : lexer.lineStart = none)
    (h : read lexer = .ok after) : after.lineStart = some lexer.cursor.start := by
  have hoffset : lexer.lineOffset = lexer.cursor.start := by rw [lineOffset, hnone]; rfl
  have haccepts := accepts_of_fits hfits hrest (by cases mode <;> cases hm <;> rfl)
  rw [← hoffset]
  cases mode <;> cases hm
  case bareText => exact (marks_of_readText h).1
  case quotedText => exact (marks_of_readText h).1
  case whiteSpace => exact absurd haccepts (by decide)
  case backslash => exact absurd haccepts (by decide)
  case singleQuoted => exact absurd haccepts (by decide)
  case doubleQuote => exact absurd haccepts (by decide)

/-- The dot with which the line begins is the next character, or begins its first word. -/
theorem Occurs.dot (h : Occurs text mode lexer) (hp : lexer.pending = .directive) :
    ∃ first tail, BeginsDirective text first tail ∧ first.InLine mode lexer ∧
      (lexer.lineStart = some first.beginLine.cursor.passed.utf8ByteSize ∨
        lexer.lineStart = none ∧ lexer.cursor = first.beginLine.cursor) := by
  induction h with
  | start => cases hp
  | @step scope mode next lexer after session last hoccurs hstep ih =>
    -- Only the beginning of a line makes it a directive, and the first piece is the dot's.
    obtain ⟨rfl, rfl, rfl, -⟩ | ⟨rfl, hm, rfl, -⟩ | ⟨read, hm, rfl, hread, -⟩ | ⟨rfl, rfl, hread⟩ |
      ⟨reader, hm, rfl, hread⟩ := step_cases hstep
    · obtain ⟨tail, hbegins⟩ := hoccurs.dot_of_beginLine hp
      refine ⟨lexer, tail, hbegins, .step .refl hstep (by decide), .inr ⟨?_, rfl⟩⟩
      rw [(marks_beginLine lexer).1, hoccurs.lineStart_of_beginOfLine]
    · obtain ⟨first, tail, hbegins, hline, hplace⟩ := ih hp
      exact ⟨first, tail, hbegins, hline.step hstep (nextMode_ne hm).1, hplace⟩
    · obtain ⟨first, tail, hbegins, hline, hplace⟩ := ih ((cursor_of_reads hm hread).2 ▸ hp)
      refine ⟨first, tail, hbegins, hline.step hstep (by decide), .inl ?_⟩
      obtain hstart | ⟨hnone, hcursor⟩ := hplace
      · exact lineStart_eq (marks_of_reads hm hread).1 hstart
      · rw [← hcursor]
        exact lineStart_of_reads_dot hoccurs.fits hm (hcursor ▸ hbegins.rest) hnone hread
    · obtain ⟨first, tail, hbegins, hline, hplace⟩ := ih ((cursor_of_readReference hread).2 ▸ hp)
      refine ⟨first, tail, hbegins, hline.step hstep (by decide), .inl ?_⟩
      obtain hstart | ⟨-, hcursor⟩ := hplace
      · exact lineStart_eq (marks_of_readReference hread).1 hstart
      · exact absurd (accepts_of_fits hoccurs.fits (hcursor ▸ hbegins.rest) (by decide)) (by decide)
    · obtain ⟨length, rfl, -⟩ := cursor_of_readLineEnd hread
      cases hp

/-- A line that calls a directive begins with its dot, and belongs to the place of the dot. -/
theorem Occurs.dot_of_called {call : DirectiveCall} (h : Occurs text mode lexer)
    (hended : lexer.ended? mode = some (ended, continuation)) (hcall : ended.called? = some call) :
    ∃ first tail, BeginsDirective text first tail ∧ first.InLine mode lexer ∧
      ended.lineOffset = first.beginLine.cursor.passed.utf8ByteSize := by
  have hp := (called?_eq_some hcall).1
  have hmarks : lexer.pending = ended.pending ∧ lexer.lineStart = ended.lineStart ∧
      mode.rank = 0 ∧ mode.accepts '.' = false := by
    obtain ⟨rfl, rfl, -⟩ | ⟨reader, found, hm, -, rfl, -⟩ := ended?_cases hended
    · exact ⟨rfl, rfl, rfl, rfl⟩
    · cases mode <;> cases hm <;> exact ⟨rfl, rfl, rfl, by decide⟩
  obtain ⟨hpending, hstart, hrank, haccepts⟩ := hmarks
  obtain ⟨first, tail, hbegins, hinLine, hplace⟩ := h.dot (hpending.trans hp)
  refine ⟨first, tail, hbegins, hinLine, ?_⟩
  obtain hline | ⟨-, hcursor⟩ := hplace
  · rw [lineOffset, ← hstart, hline]
    rfl
  · rw [accepts_of_fits h.fits (hcursor ▸ hbegins.rest) hrank] at haccepts
    cases haccepts

end

end Lexer

/-! ## The line of a scan -/

namespace Scan
open Lexer

/-- The second scan is in the line that the first one begins. -/
inductive InLine (scope : Scope) (first : Scan) : Scan → Prop
  | begins (hmode : first.mode = .beginOfLine) : InLine scope first first
  | step {scan next : Scan} (h : InLine scope first scan) (hnext : Next scope scan next)
    (hmode : next.mode ≠ .beginOfLine) : InLine scope first next

section
variable {scope : Scope} {text : String} {session : Session} {first scan : Scan}

theorem InLine.begins_mode (h : InLine scope first scan) : first.mode = .beginOfLine := by
  induction h with
  | begins hmode => exact hmode
  | step _ _ _ ih => exact ih

theorem InLine.reaches (h : InLine scope first scan) : Reaches scope first scan := by
  induction h with
  | begins => exact .refl
  | step _ hnext _ ih => exact ih.tail hnext

/-- Until the line is closed the configuration is the one with which it began. -/
theorem InLine.config_eq (h : InLine scope first scan) :
    scan.session.config = first.session.config := by
  induction h with
  | begins => rfl
  | @step scan next _ hnext hmode ih =>
    obtain ⟨hbegins, -⟩ | ⟨-, hended⟩ := ended?_of_step hnext
    · exact absurd hbegins hmode
    · have hlast : (scan.step scope).2 = next.session := congrArg Prod.snd hnext
      rw [← hlast, ← ih]
      exact config_of_not_ended hended

/-- A line goes on behind its beginning, and so do the quotes that are opened in it. -/
theorem InLine.start_le (hfirst : Reaches scope (start text session) first)
    (h : InLine scope first scan) :
    first.lexer.cursor.start ≤ scan.lexer.cursor.start ∧
      ∀ offset, scan.lexer.quote = some offset → first.lexer.cursor.start ≤ offset := by
  induction h with
  | begins hmode =>
    refine ⟨Nat.le_refl _, fun offset hquote => ?_⟩
    have hfits := (Occurs.of_reaches hfirst).fits
    rw [hmode] at hfits
    have hquotes : first.lexer.inQuotes = false := congrArg Reading.inQuotes hfits
    rw [quote_eq_none hquotes] at hquote
    cases hquote
  | @step scan next _ hnext _ ih =>
    refine ⟨Nat.le_trans ih.1 (start_le_of_step hnext), fun offset hquote => ?_⟩
    obtain hbefore | ⟨-, -, rfl⟩ := (marks_of_step hnext).2 offset hquote
    · exact ih.2 offset hbefore
    · exact ih.1

/-- Every scan is in a line. -/
theorem exists_inLine (h : Reaches scope (start text session) scan) :
    ∃ first, Reaches scope (start text session) first ∧ InLine scope first scan := by
  induction h with
  | refl => exact ⟨_, .refl, .begins rfl⟩
  | @tail scan next hreaches hnext ih =>
    by_cases hmode : next.mode = .beginOfLine
    · exact ⟨next, hreaches.tail hnext, .begins hmode⟩
    · obtain ⟨first, hfirst, hline⟩ := ih
      exact ⟨first, hfirst, hline.step hnext hmode⟩

/-- What holds of a scan in the line that the first one begins. -/
structure Within (scope : Scope) (text : String) (session : Session) (first scan : Scan) :
    Prop where
  reaches : Reaches scope (start text session) first
  begins : first.mode = .beginOfLine
  config : first.session.config = scan.session.config
  start_le : first.lexer.cursor.start ≤ scan.lexer.cursor.start
  quote_ge : ∀ offset, scan.lexer.quote = some offset → first.lexer.cursor.start ≤ offset

/-- Every scan is in a line, from whose beginning on the configuration has stayed. -/
theorem exists_within (h : Reaches scope (start text session) scan) :
    ∃ first, Within scope text session first scan := by
  obtain ⟨first, hfirst, hline⟩ := exists_inLine h
  obtain ⟨hstart, hquote⟩ := hline.start_le hfirst
  exact ⟨first, hfirst, hline.begins_mode, hline.config_eq.symm, hstart, hquote⟩

end

end Scan
end ShellConfig
