import ShellConfig.Proofs.Lexer.Lines

/-!
What a scan does with the next characters of a line. The pieces of a text are runs of characters, but
nothing depends on where a run is cut: a run has the effect of its characters in turn (`read_bare`,
`read_quoted`, `read_blank`), and so have the other pieces.
-/

set_option autoImplicit false

namespace ShellConfig

/-- A scan with this reading, which stands at the beginning of its text. -/
def Reading.lexer (reading : Reading) : Lexer :=
  ⟨.ofText (String.ofList reading.rest), if reading.inQuotes then some 0 else none, reading.word,
    reading.line, none, reading.pending⟩

@[simp] theorem Reading.reading_lexer (reading : Reading) : reading.lexer.reading = reading := by
  rcases reading with ⟨rest, _ | _, word, line, pending⟩ <;>
    simp [Reading.lexer, Lexer.reading, Lexer.inQuotes, Cursor.ofText]

/-- The outcome of going on with the next character, apart from positions. -/
def Scope.read (scope : Scope) (reading : Reading) (session : Session) : Outcome Unit :=
  Outcome.unplaced (Lexer.run scope .dispatch reading.lexer session)

namespace Scope
open Lexer

section
variable {scope : Scope} {session : Session} {reading after : Reading}

theorem read_eq_run (hscope : scope.IgnoresPositions) {lexer : Lexer}
    (h : lexer.reading = reading) :
    scope.read reading session = Outcome.unplaced (run scope .dispatch lexer session) :=
  run_unplaced hscope .dispatch (by rw [Reading.reading_lexer, h]) rfl

theorem readLines_eq_read (hscope : scope.IgnoresPositions) (text : List Char) :
    scope.readLines text session =
      scope.read (Lexer.ofText (String.ofList text)).beginLine.reading session := by
  rw [readLines, evaluate, run_beginOfLine, read_eq_run hscope rfl]

theorem rest_lexer (reading : Reading) : reading.lexer.cursor.rest = reading.rest :=
  String.toList_ofList

/-- A piece that the next character asks for. -/
theorem read_of_piece (hscope : scope.IgnoresPositions) (mode : Mode)
    {piece : Lexer → Except LexFailure Lexer} {c : Char} {rest : List Char}
    (hpiece : mode.reads? = some piece) (hrest : reading.rest = c :: rest)
    (hmode : (if reading.inQuotes then Mode.insideQuotes c else Mode.outsideQuotes c) = mode)
    (h : Lexer.piece (piece reading.lexer) = .ok after) :
    scope.read reading session = scope.read after session := by
  have hm : reading.lexer.nextMode = .ok mode := by
    rw [nextMode_eq, rest_lexer, hrest, ← hmode]
    unfold Reading.lexer
    cases reading.inQuotes <;> rfl
  obtain ⟨lexer, hl, ha⟩ := piece_eq_ok h
  rw [read_eq_run hscope ha, read, run_dispatch hm,
    run_of_step (by rw [step_of_reads hpiece, hl]; rfl)]

end

/-- The word with more characters at its end. If there is none, the characters begin one. -/
def extend (word : Option String) (chars : List Char) : Option String :=
  some (word.getD "" ++ String.ofList chars)

theorem extend_extend (word : Option String) (chars more : List Char) :
    extend (extend word chars) more = extend word (chars ++ more) := by
  simp [extend, String.append_assoc]

/-! ## Classes of characters -/

theorem outsideQuotes_of_isBareChar {c : Char} (h : isBareChar c) :
    Mode.outsideQuotes c = .bareText := by
  simp only [isBareChar, Bool.not_eq_true', Bool.or_eq_false_iff, decide_eq_false_iff_not] at h
  obtain ⟨⟨⟨⟨⟨hbackslash, hsingle⟩, hdouble⟩, hdollar⟩, hhash⟩, hblank⟩ := h
  have hreturn : c ≠ '\r' := by rintro rfl; exact absurd hblank (by decide)
  have hlineFeed : c ≠ '\n' := by rintro rfl; exact absurd hblank (by decide)
  simp [Mode.outsideQuotes, *]

theorem insideQuotes_of_isQuotedChar {c : Char} (h : Token.isQuotedChar c) :
    Mode.insideQuotes c = .quotedText := by
  simp only [Token.isQuotedChar, Bool.not_eq_true', Bool.or_eq_false_iff,
    decide_eq_false_iff_not] at h
  simp [Mode.insideQuotes, h]

theorem outsideQuotes_of_isInlineBlank {c : Char} (hc : isInlineBlank c) :
    Mode.outsideQuotes c = .whiteSpace := by
  simp only [isInlineBlank, Bool.and_eq_true, decide_eq_true_eq] at hc
  obtain ⟨⟨hreturn, hlineFeed⟩, hblank⟩ := hc
  have hne {d : Char} (hd : isBlank d = false) : c ≠ d := by
    rintro rfl
    rw [hd] at hblank
    cases hblank
  have hbackslash : c ≠ '\\' := hne (by decide)
  have hhash : c ≠ '#' := hne (by decide)
  have hdollar : c ≠ '$' := hne (by decide)
  have hsingle : c ≠ '\'' := hne (by decide)
  have hdouble : c ≠ '"' := hne (by decide)
  simp [Mode.outsideQuotes, *]

/-! ## Characters that stand for themselves -/

section
variable {scope : Scope} {session : Session} {inQuotes : Bool} {word : Option String}
  {line : List String} {pending : Operation} {rest : List Char} {c : Char}

theorem drop_length_takeWhile (accepts : Char → Bool) (text : List Char) :
    text.drop (text.takeWhile accepts).length = text.dropWhile accepts := by
  have happend := List.takeWhile_append_dropWhile (p := accepts) (l := text)
  calc text.drop (text.takeWhile accepts).length
      = (text.takeWhile accepts ++ text.dropWhile accepts).drop
          (text.takeWhile accepts).length := by rw [happend]
    _ = text.dropWhile accepts := List.drop_left

section Run
variable {accepts : Char → Bool} {mode : Mode} {what : String}
  (hscope : scope.IgnoresPositions)
  (hmode : ∀ c, accepts c →
    (if inQuotes then Mode.insideQuotes c else Mode.outsideQuotes c) = mode)
  (hreads : mode.reads? = some fun lexer => lexer.readText (Token.run accepts) what)
include hscope hmode hreads

theorem read_run (hc : accepts c) :
    scope.read ⟨c :: rest, inQuotes, word, line, pending⟩ session =
      scope.read ⟨rest.dropWhile accepts, inQuotes,
        extend word (c :: rest.takeWhile accepts), line, pending⟩ session := by
  refine read_of_piece hscope mode hreads rfl (hmode c hc) ?_
  rw [readText_eq, rest_lexer, Token.run]
  simp [hc, piece, drop_length_takeWhile, extend]

/-- A run of characters is read as its first one and then the others. -/
theorem read_accepted (hc : accepts c) :
    scope.read ⟨c :: rest, inQuotes, word, line, pending⟩ session =
      scope.read ⟨rest, inQuotes, extend word [c], line, pending⟩ session := by
  rw [read_run hscope hmode hreads hc]
  rcases rest with _ | ⟨d, rest⟩
  · rfl
  · by_cases hd : accepts d
    · rw [read_run hscope hmode hreads hd, extend_extend]
      simp [hd]
    · simp [hd]

/-- Characters of one class are read together, if there are any. -/
theorem read_all_accepted {chars : List Char} (hne : chars ≠ []) (hchars : ∀ d ∈ chars, accepts d) :
    scope.read ⟨chars ++ rest, inQuotes, word, line, pending⟩ session =
      scope.read ⟨rest, inQuotes, extend word chars, line, pending⟩ session := by
  induction chars generalizing word with
  | nil => exact absurd rfl hne
  | cons d chars ih =>
    rw [List.cons_append, read_accepted hscope hmode hreads (hchars d List.mem_cons_self)]
    rcases chars with _ | ⟨e, chars⟩
    · rfl
    · rw [ih (List.cons_ne_nil _ _) fun f hf => hchars f (List.mem_cons_of_mem _ hf),
        extend_extend]
      rfl

end Run

variable (hscope : scope.IgnoresPositions)
include hscope

theorem read_bare {chars : List Char} (hne : chars ≠ []) (hchars : ∀ d ∈ chars, isBareChar d) :
    scope.read ⟨chars ++ rest, false, word, line, pending⟩ session =
      scope.read ⟨rest, false, extend word chars, line, pending⟩ session :=
  read_all_accepted hscope (fun _ => outsideQuotes_of_isBareChar) rfl hne hchars

theorem read_quoted {chars : List Char} (hne : chars ≠ [])
    (hchars : ∀ d ∈ chars, Token.isQuotedChar d) :
    scope.read ⟨chars ++ rest, true, word, line, pending⟩ session =
      scope.read ⟨rest, true, extend word chars, line, pending⟩ session :=
  read_all_accepted hscope (fun _ => insideQuotes_of_isQuotedChar) rfl hne hchars

/-! ## Quotes and backslashes -/

theorem read_escaped (hreturn : c ≠ '\r') (hlineFeed : c ≠ '\n') :
    scope.read ⟨'\\' :: c :: rest, inQuotes, word, line, pending⟩ session =
      scope.read ⟨rest, inQuotes, extend word [c], line, pending⟩ session := by
  refine read_of_piece hscope .backslash rfl rfl ?_ ?_
  · cases inQuotes <;> rfl
  · have hf : Token.escaped ('\\' :: c :: rest) = some ⟨2, some c⟩ := by
      rw [Token.escaped]
      · exact hlineFeed
      · exact fun tail hc _ => hreturn hc
    rw [readEscaped_eq, rest_lexer, hf]
    simp [piece, extend]

/-- A backslash before a line end. -/
theorem read_joined {length : Nat} (hf : Token.escaped ('\\' :: rest) = some ⟨length, none⟩) :
    scope.read ⟨'\\' :: rest, inQuotes, word, line, pending⟩ session =
      scope.read ⟨('\\' :: rest).drop length, inQuotes, if inQuotes then word else none,
        if inQuotes then line else line ++ word.toList, pending⟩ session := by
  refine read_of_piece hscope .backslash rfl rfl ?_ ?_
  · cases inQuotes <;> rfl
  · have hq : (Reading.lexer ⟨'\\' :: rest, inQuotes, word, line, pending⟩).inQuotes =
        inQuotes := congrArg Reading.inQuotes (Reading.reading_lexer _)
    rw [readEscaped_eq, rest_lexer, hf, hq]
    cases inQuotes <;> simp [piece]

theorem read_singleQuoted {body : List Char} (hbody : '\'' ∉ body) :
    scope.read ⟨'\'' :: (body ++ '\'' :: rest), false, word, line, pending⟩ session =
      scope.read ⟨rest, false, extend word body, line, pending⟩ session := by
  refine read_of_piece hscope .singleQuoted rfl rfl rfl ?_
  rw [readSingleQuoted_eq, rest_lexer, Token.singleQuoted_of_not_mem hbody]
  simp [piece, extend]

theorem read_doubleQuote_opens (hne : rest.head? ≠ some '"') :
    scope.read ⟨'"' :: rest, false, word, line, pending⟩ session =
      scope.read ⟨rest, true, word, line, pending⟩ session := by
  refine read_of_piece hscope .doubleQuote rfl rfl rfl ?_
  rw [readDoubleQuote_opens rfl (rest_lexer _) hne, piece, reading_quote]
  simp

theorem read_doubleQuote_closes :
    scope.read ⟨'"' :: rest, true, word, line, pending⟩ session =
      scope.read ⟨rest, false, word, line, pending⟩ session := by
  refine read_of_piece hscope .doubleQuote rfl rfl rfl ?_
  rw [readDoubleQuote_closes rfl (rest_lexer _), piece, reading_quote]
  simp

theorem read_doubleQuote_empty :
    scope.read ⟨'"' :: '"' :: rest, false, word, line, pending⟩ session =
      scope.read ⟨rest, false, extend word [], line, pending⟩ session := by
  refine read_of_piece hscope .doubleQuote rfl rfl rfl ?_
  rw [readDoubleQuote_empty rfl (rest_lexer _), piece, reading_addText]
  simp [extend]

/-! ## Blanks -/

theorem read_separator (hc : isInlineBlank c) :
    scope.read ⟨c :: rest, false, word, line, pending⟩ session =
      scope.read ⟨rest.drop (Token.separatorLength rest), false, none, line ++ word.toList, pending⟩
        session := by
  refine read_of_piece hscope .whiteSpace rfl rfl (outsideQuotes_of_isInlineBlank hc) ?_
  have hf : Token.separator (c :: rest) = some ⟨Token.separatorLength rest + 1, ()⟩ := by
    rw [Token.separator, Token.separatorLength_blank hc]
    rfl
  rw [readSeparator_eq, rest_lexer, hf]
  simp [piece]

/-- Between two words, blanks and joined lines have no effect. -/
theorem read_drop_separator (text : List Char) :
    scope.read ⟨text.drop (Token.separatorLength text), false, none, line, pending⟩ session =
      scope.read ⟨text, false, none, line, pending⟩ session := by
  fun_induction Token.separatorLength text with
  | case1 => rfl
  | case2 rest ih =>
    have hf : Token.escaped ('\\' :: '\n' :: rest) = some ⟨2, none⟩ := rfl
    rw [read_joined hscope hf]
    simpa using ih
  | case3 rest ih =>
    have hf : Token.escaped ('\\' :: '\r' :: '\n' :: rest) = some ⟨3, none⟩ := rfl
    rw [read_joined hscope hf]
    simpa using ih
  | case4 c rest hlf hcr hb ih =>
    rw [read_separator hscope hb]
    simp
  | case5 c rest hlf hcr hb => rfl

theorem read_blank (hc : isInlineBlank c) :
    scope.read ⟨c :: rest, false, word, line, pending⟩ session =
      scope.read ⟨rest, false, none, line ++ word.toList, pending⟩ session := by
  rw [read_separator hscope hc, read_drop_separator hscope]

end

/-! ## The end of a line -/

/-- Only the words of the line and its operation matter at its end. -/
theorem read_nil {scope : Scope} {session : Session} {word : Option String} {line : List String}
    {pending : Operation} {config : Config}
    (h : pending.apply (line ++ word.toList) session.config = (config, none)) :
    scope.read ⟨[], false, word, line, pending⟩ session =
      Outcome.unplaced (.ok (), { session with config }) := by
  have hend : (Reading.lexer ⟨[], false, word, line, pending⟩).endLine scope session =
      (.ok (), { session with config }) := by
    have hw : (Reading.lexer ⟨[], false, word, line, pending⟩).endWord.line =
        line ++ word.toList := rfl
    have hp : (Reading.lexer ⟨[], false, word, line, pending⟩).pending = pending := rfl
    rw [endLine, hw, hp, h]
  have hm : (Reading.lexer ⟨[], false, word, line, pending⟩).nextMode = .ok .finish :=
    nextMode_of_rest_nil rfl (rest_lexer _)
  rw [read, run_dispatch hm, run_of_step_none (by rw [step, Evaluation.map, hend]; rfl)]

end Scope
end ShellConfig
