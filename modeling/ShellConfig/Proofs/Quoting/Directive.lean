import ShellConfig.Proofs.Lexer.Ends
import ShellConfig.Proofs.Lexer.LineBeginning
import ShellConfig.Proofs.Quoting.Escape

/-!
Written lines that are directives. A written line whose first character is a dot is carried out as
the directive that its words call, and what comes after the line is evaluated next
(`Scope.readLines_called`). A text that is such a line and nothing else (`IsCall`) has the effect of
its directive (`Scope.readLines_isCall`).
-/

set_option autoImplicit false

namespace ShellConfig

/-- Goes on from a session that an evaluation leaves, unless it fails; apart from positions. -/
def Outcome.andThen (outcome : Outcome Unit) (next : Session → Outcome Unit) : Outcome Unit :=
  match outcome with
  | (.ok _, last) => next last
  | (.error error, last) => Outcome.unplaced (.error error, last)

/-- What comes behind the words of a line and ends it, and the text after that: nothing, or a line
end or a comment and what follows. -/
inductive LineTail : List Char → List Char → Prop
  | finish : LineTail [] []
  | ends {mode : Mode} {reader : Reader Unit} {text : List Char} {found : Match Unit}
    (hm : mode.ends? = some reader) (hf : reader text = some found) :
    LineTail text (text.drop found.length)

theorem lineTail_lineFeed (more : List Char) :
    LineTail ('\n' :: more) (('\n' :: more).drop (Token.lineEndsLength ('\n' :: more))) := by
  have hm : Mode.ends? .lineBreak = some Token.lineEnds := rfl
  have hf : Token.lineEnds ('\n' :: more) = some ⟨Token.lineEndsLength ('\n' :: more), ()⟩ := by
    rw [Token.lineEnds_lineFeed]
  exact .ends hm hf

/-- Behind blanks and empty lines the text is one line that calls a directive, and nothing else
comes after it. -/
def IsCall (text : List Char) (call : DirectiveCall) : Prop :=
  ∃ (line : WrittenLine) (tail more : List Char),
    text.drop (Token.blankLinesLength text) = line.text ++ tail ∧ line.text.head? = some '.' ∧
      DirectiveCall.ofWords? line.values = some call ∧ LineTail tail more ∧
      Token.blankLinesLength more = more.length

/-! ## Lines that include a file -/

/-- The line that includes a file by a path. -/
def includeLine (path : String) : String := ".include " ++ escape path

theorem text_includeLine (path : String) :
    (WrittenLine.ofWords [] [".include", path]).text = (includeLine path).toList := by
  have hbare : escape ".include" = ".include" := escape_eq_self_of_isBareWord (by decide +kernel)
  rw [WrittenLine.text_ofWords, includeLine, String.toList_append, List.flatMap_nil,
    List.nil_append, escapeLine_cons, hbare]
  simp [gapBefore, Separator.text, escapeLine]

theorem head_includeLine (path : String) : (includeLine path).toList.head? = some '.' := by
  rw [includeLine, String.toList_append]
  rfl

theorem ofWords?_includeLine (path : String) :
    DirectiveCall.ofWords? (WrittenLine.ofWords [] [".include", path]).values =
      some ⟨DirectiveCall.includeName, [path]⟩ := by
  rw [WrittenLine.values_ofWords]
  rfl

theorem isCall_includeLine (path : String) {tail more : List Char} (htail : LineTail tail more)
    (hblank : Token.blankLinesLength more = more.length) :
    IsCall ((includeLine path).toList ++ tail) ⟨DirectiveCall.includeName, [path]⟩ := by
  obtain ⟨chars, hchars⟩ := List.head?_eq_some_iff.1 (head_includeLine path)
  have hnone : Token.blankLinesLength ((includeLine path).toList ++ tail) = 0 := by
    have hdot : isBlank '.' = false := by decide
    rw [hchars, List.cons_append, Token.blankLinesLength_of_not_isBlank hdot]
  refine ⟨.ofWords [] [".include", path], tail, more, ?_, ?_, ofWords?_includeLine path, htail,
    hblank⟩
  · rw [hnone, List.drop_zero, text_includeLine]
  · rw [text_includeLine, head_includeLine]

/-! ## The end of a directive line -/

namespace Lexer
variable {scope : Scope} {lexer : Lexer} {session : Session} {call : DirectiveCall}
  {rest more : List Char}

theorem nextMode_of_tail {mode : Mode} {reader : Reader Unit} {found : Match Unit}
    (hq : lexer.inQuotes = false) (hm : mode.ends? = some reader)
    (hf : reader lexer.cursor.rest = some found) : lexer.nextMode = .ok mode := by
  rw [nextMode_eq, quote_eq_none hq]
  generalize lexer.cursor.rest = rest at hf ⊢
  cases mode <;> cases hm
  case comment =>
    unfold Token.comment at hf
    split at hf
    · rfl
    · cases hf
  case lineBreak =>
    unfold Token.lineEnds at hf
    fun_cases Token.lineEndsLength rest with
    | case1 => rfl
    | case2 => rfl
    | case3 _ hlineFeed hreturn =>
      rw [Token.lineEndsLength] at hf
      · cases hf
      · exact hlineFeed
      · exact hreturn

/-- The line ends behind its words, and the scan goes on with the text after it. -/
theorem exists_ended (hq : lexer.inQuotes = false) (htail : LineTail lexer.cursor.rest more) :
    ∃ mode ended continuation, lexer.nextMode = .ok mode ∧
      lexer.ended? mode = some (ended, continuation) ∧ ended.pending = lexer.pending ∧
      ended.endWord.line = lexer.endWord.line ∧
      ((continuation = none ∧ more = []) ∨ ∃ next, continuation = some (.beginOfLine, next) ∧
        next.reading = Reading.fresh more) := by
  generalize hrest : lexer.cursor.rest = rest at htail
  cases htail with
  | finish =>
    exact ⟨.finish, lexer, none, nextMode_of_rest_nil hq hrest, rfl, rfl, rfl, .inl ⟨rfl, rfl⟩⟩
  | @ends mode reader _ found hm hf =>
    rw [← hrest] at hf
    refine ⟨mode, lexer.take found.length, some (.beginOfLine, (lexer.take found.length).clearLine),
      nextMode_of_tail hq hm hf, ?_, rfl, rfl, .inr ⟨_, rfl, ?_⟩⟩
    · rw [ended?_of_ends hm, hf]
      rfl
    · rw [reading_clearLine, reading_take, ← hrest]
      unfold Reading.fresh
      rw [← hq]
      rfl

/-- Where a line ends that calls a directive, the directive is carried out, and then the scan goes
on. -/
theorem run_called (hscope : scope.IgnoresPositions) (hq : lexer.inQuotes = false)
    (hcall : lexer.called? = some call) (htail : LineTail lexer.cursor.rest more) :
    ∃ location, Outcome.unplaced (run scope .dispatch lexer session) =
      Outcome.andThen (scope.perform call location session) (scope.readLines more) := by
  obtain ⟨mode, ended, continuation, hmode, hended, hpending, hline, hnext⟩ :=
    exists_ended hq htail
  have hsame : ended.called? = some call := by
    unfold called? at hcall ⊢
    rwa [hpending, hline]
  have hstep := @step_of_called scope _ _ _ session _ _ hended hsame
  rw [Evaluation.map] at hstep
  refine ⟨ended.locate scope ended.lineOffset, ?_⟩
  rw [run_dispatch hmode]
  rcases hresult : scope.perform call (ended.locate scope ended.lineOffset) session with
    ⟨error | value, last⟩
  · rw [hresult] at hstep
    rw [run_of_step_error hstep]
    rfl
  · rw [hresult] at hstep
    obtain ⟨rfl, rfl⟩ | ⟨next, rfl, hfresh⟩ := hnext
    · rw [run_of_step_none hstep]
      exact (Scope.readLines_nil scope last).symm
    · rw [run_of_step hstep]
      exact Scope.run_of_fresh hscope hfresh rfl

end Lexer

namespace Scope
variable {scope : Scope} {call : DirectiveCall} (hscope : scope.IgnoresPositions)
  (session : Session)
include hscope

/-- A written line that begins with a dot is carried out as a directive, and then comes what follows
it. -/
theorem readLines_called {line : WrittenLine} {tail more : List Char}
    (hdot : line.text.head? = some '.') (hcall : DirectiveCall.ofWords? line.values = some call)
    (htail : LineTail tail more) :
    ∃ location, scope.readLines (line.text ++ tail) session =
      Outcome.andThen (scope.perform call location session) (scope.readLines more) := by
  obtain ⟨chars, hchars⟩ := List.head?_eq_some_iff.1 hdot
  have hnone : ¬ Token.BeginsAssignment ('.' :: (chars ++ tail)) := by
    rw [← Token.assignment_isSome_iff, Token.assignment, if_neg (by decide)]
    decide
  obtain ⟨word, finished, hvalues, hread⟩ := line.read_text session .directive tail hscope
  rw [hchars, List.cons_append] at hread
  rw [hchars, List.cons_append, readLines_of_not_isBlank hscope (by decide) hnone, if_pos rfl,
    hread, read]
  refine Lexer.run_called hscope rfl ?_ (by rwa [rest_lexer])
  rw [← hcall, ← hvalues]
  rfl

/-- A text that calls a directive has the effect of it. -/
theorem readLines_isCall {text : List Char} (h : IsCall text call) :
    ∃ location, scope.readLines text session =
      Outcome.unplaced (scope.perform call location session) := by
  obtain ⟨line, tail, more, htext, hdot, hcall, htail, hblank⟩ := h
  obtain ⟨location, hcalled⟩ := readLines_called hscope session hdot hcall htail
  refine ⟨location, ?_⟩
  have hdrop : Token.blankLinesLength text = Token.blankLinesLength text +
      Token.blankLinesLength (text.drop (Token.blankLinesLength text)) := by
    obtain ⟨chars, hchars⟩ := List.head?_eq_some_iff.1 hdot
    rw [htext, hchars, List.cons_append, Token.blankLinesLength_of_not_isBlank (by decide),
      Nat.add_zero]
  rw [← readLines_drop session hscope hdrop, htext, hcalled]
  rcases scope.perform call location session with ⟨error | value, last⟩
  · rfl
  · have hrest : (Lexer.ofText (String.ofList more)).cursor.rest = more := String.toList_ofList
    have hmore : scope.evaluate (String.ofList more) last = (.ok (), last) :=
      Lexer.run_blank scope last rfl (by rwa [hrest])
    rw [Outcome.andThen, readLines, hmore]

end Scope

end ShellConfig
