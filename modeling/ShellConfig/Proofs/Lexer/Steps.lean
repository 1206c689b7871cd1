import ShellConfig.Lexer.Run

/-!
What a step of a scan can do. Each piece is written as an equation over what its reader finds, and
`step_cases` lists the ways in which a step goes on: it begins a line, looks at the next character,
reads a piece that asks for nothing but the text (`Mode.reads?`), resolves a reference, or ends a
line (`Mode.ends?`).
-/

set_option autoImplicit false

namespace ShellConfig
namespace Lexer

/-! ## Pieces as equations -/

theorem read?_eq {α : Type} (lexer : Lexer) (reader : Reader α) :
    lexer.read? reader =
      (reader lexer.cursor.rest).map fun found => (found.value, lexer.take found.length) := by
  simp only [read?, Cursor.match?, Option.map_map]
  rfl

theorem readPiece_eq {α : Type} (lexer : Lexer) (reader : Reader α) (fault : LexFault)
    (use : α → Lexer → Lexer) :
    lexer.readPiece reader fault use = match reader lexer.cursor.rest with
      | some found => .ok (use found.value (lexer.take found.length))
      | none => .error (lexer.failure fault) := by
  rw [readPiece, read?_eq]
  cases reader lexer.cursor.rest <;> rfl

theorem readPiece_eq_ok {α : Type} {lexer after : Lexer} {reader : Reader α} {fault : LexFault}
    {use : α → Lexer → Lexer} (h : lexer.readPiece reader fault use = .ok after) :
    ∃ found, reader lexer.cursor.rest = some found ∧
      use found.value (lexer.take found.length) = after := by
  rw [readPiece_eq] at h
  cases hf : reader lexer.cursor.rest with
  | none => rw [hf] at h; cases h
  | some found => rw [hf] at h; exact ⟨found, rfl, Except.ok.inj h⟩

theorem readPiece_eq_error {α : Type} {lexer : Lexer} {reader : Reader α} {fault : LexFault}
    {use : α → Lexer → Lexer} {failure : LexFailure}
    (h : lexer.readPiece reader fault use = .error failure) :
    reader lexer.cursor.rest = none ∧ lexer.failure fault = failure := by
  rw [readPiece_eq] at h
  cases hf : reader lexer.cursor.rest with
  | none => rw [hf] at h; exact ⟨rfl, Except.error.inj h⟩
  | some found => rw [hf] at h; cases h

theorem readText_eq (lexer : Lexer) (reader : Reader String) (what : String) :
    lexer.readText reader what = match reader lexer.cursor.rest with
      | some found => .ok ((lexer.take found.length).addText lexer.cursor.start found.value)
      | none => .error (lexer.failure (.invalid what)) := by
  rw [readText, readPiece_eq]
  cases reader lexer.cursor.rest <;> rfl

theorem readSeparator_eq (lexer : Lexer) :
    lexer.readSeparator = match Token.separator lexer.cursor.rest with
      | some found => .ok (lexer.take found.length).endWord
      | none => .error (lexer.failure (.invalid "whitespace")) := by
  rw [readSeparator, readPiece_eq]
  cases Token.separator lexer.cursor.rest <;> rfl

theorem readEscaped_eq (lexer : Lexer) :
    lexer.readEscaped = match Token.escaped lexer.cursor.rest with
      | some ⟨length, some c⟩ =>
        .ok ((lexer.take length).addText lexer.cursor.start (String.singleton c))
      | some ⟨length, none⟩ =>
        .ok (if lexer.inQuotes then lexer.take length else (lexer.take length).endWord)
      | none => .error (lexer.failure .danglingBackslash) := by
  rw [readEscaped, readPiece_eq]
  rcases Token.escaped lexer.cursor.rest with _ | ⟨length, _ | c⟩ <;> rfl

theorem readSingleQuoted_eq (lexer : Lexer) :
    lexer.readSingleQuoted = match Token.singleQuoted lexer.cursor.rest with
      | some found => .ok ((lexer.take found.length).addText lexer.cursor.start found.value)
      | none => .error (lexer.failure .unterminatedSingleQuote) := by
  rw [readSingleQuoted, readPiece_eq]
  cases Token.singleQuoted lexer.cursor.rest <;> rfl

/-- A double quote that closes, two that are an empty text, and one that opens. -/
theorem readDoubleQuote_eq (lexer : Lexer) :
    lexer.readDoubleQuote = match lexer.inQuotes, lexer.cursor.rest with
      | true, '"' :: _ => .ok { lexer.take 1 with quote := none }
      | false, '"' :: '"' :: _ => .ok ((lexer.take 2).addText lexer.cursor.start "")
      | false, '"' :: _ => .ok { lexer.take 1 with quote := some lexer.cursor.start }
      | _, _ => .error (lexer.failure (.invalid "double quote")) := by
  simp only [readDoubleQuote, read?_eq, readPiece_eq]
  generalize lexer.cursor.rest = text
  unfold Token.emptyQuotes Token.doubleQuote
  rcases text with _ | ⟨c, tail⟩
  · cases lexer.inQuotes <;> rfl
  by_cases hc : c = '"'
  · subst hc
    rcases tail with _ | ⟨d, tail⟩
    · cases lexer.inQuotes <;> rfl
    by_cases hd : d = '"'
    · subst hd
      cases lexer.inQuotes <;> rfl
    · cases lexer.inQuotes <;> simp [hd]
  · cases lexer.inQuotes <;> simp [hc]

theorem readDoubleQuote_closes {lexer : Lexer} {tail : List Char} (hq : lexer.inQuotes = true)
    (hr : lexer.cursor.rest = '"' :: tail) :
    lexer.readDoubleQuote = .ok { lexer.take 1 with quote := none } := by
  rw [readDoubleQuote_eq, hq, hr]
  rfl

theorem readDoubleQuote_empty {lexer : Lexer} {tail : List Char} (hq : lexer.inQuotes = false)
    (hr : lexer.cursor.rest = '"' :: '"' :: tail) :
    lexer.readDoubleQuote = .ok ((lexer.take 2).addText lexer.cursor.start "") := by
  rw [readDoubleQuote_eq, hq, hr]
  rfl

theorem readDoubleQuote_opens {lexer : Lexer} {tail : List Char} (hq : lexer.inQuotes = false)
    (hr : lexer.cursor.rest = '"' :: tail) (hne : tail.head? ≠ some '"') :
    lexer.readDoubleQuote = .ok { lexer.take 1 with quote := some lexer.cursor.start } := by
  rw [readDoubleQuote_eq, hq, hr]
  split
  · simp_all
  · simp_all
  · rfl
  · simp_all

theorem readReference_eq (scope : Scope) (lexer : Lexer) (session : Session) :
    lexer.readReference scope session = match Token.reference lexer.cursor.rest with
      | none => (.error (scope.lexError lexer.cursor (lexer.failure .invalidReference)), session)
      | some found =>
        match session.config.expand found.value lexer.inQuotes with
        | .joined text =>
          (.ok ((lexer.take found.length).addText lexer.cursor.start text), session)
        | .words values =>
          (.ok ((lexer.take found.length).addWords lexer.cursor.start values), session)
        | .undefined =>
          Evaluation.map (fun _ => lexer.take found.length)
            (scope.undefinedVariable found.value.name (lexer.locate scope lexer.cursor.start))
            session := by
  rw [readReference, read?_eq]
  cases Token.reference lexer.cursor.rest <;> rfl

theorem readLineEnd_eq (scope : Scope) (reader : Reader Unit) (lexer : Lexer)
    (session : Session) :
    lexer.readLineEnd scope reader session = match reader lexer.cursor.rest with
      | none => (.error (scope.lexError lexer.cursor (lexer.failure .invalidLineBreak)), session)
      | some found =>
        Evaluation.map (fun _ => (lexer.take found.length).clearLine)
          ((lexer.take found.length).endLine scope) session := by
  rw [readLineEnd, read?_eq]
  cases reader lexer.cursor.rest <;> rfl

end Lexer

/-! ## The next mode -/

/-- The mode for a character between double quotes. -/
def Mode.insideQuotes (c : Char) : Mode :=
  if c = '\\' then .backslash
  else if c = '$' then .reference
  else if c = '"' then .doubleQuote
  else .quotedText

/-- The mode for a character that stands in no double quotes. -/
def Mode.outsideQuotes (c : Char) : Mode :=
  if c = '\r' || c = '\n' then .lineBreak
  else if c = '\\' then .backslash
  else if c = '#' then .comment
  else if c = '$' then .reference
  else if c = '\'' then .singleQuoted
  else if c = '"' then .doubleQuote
  else if isBlank c then .whiteSpace
  else .bareText

namespace Lexer

theorem nextMode_eq (lexer : Lexer) :
    lexer.nextMode = match lexer.quote, lexer.cursor.rest with
      | some start, [] => .error ⟨.unterminatedDoubleQuote, start⟩
      | some _, c :: _ => .ok (.insideQuotes c)
      | none, [] => .ok .finish
      | none, c :: _ => .ok (.outsideQuotes c) := by
  unfold nextMode Cursor.peek Mode.insideQuotes Mode.outsideQuotes
  cases lexer.quote <;> cases lexer.cursor.rest <;> simp only [List.head?_nil, List.head?_cons]
  · repeat' split
    all_goals rfl
  · repeat' split
    all_goals rfl

theorem insideQuotes_ne (c : Char) : Mode.insideQuotes c ≠ .comment ∧
    Mode.insideQuotes c ≠ .lineBreak ∧ Mode.insideQuotes c ≠ .finish := by
  unfold Mode.insideQuotes
  repeat' split
  all_goals decide

theorem outsideQuotes_ne (c : Char) :
    Mode.outsideQuotes c ≠ .quotedText ∧ Mode.outsideQuotes c ≠ .finish := by
  unfold Mode.outsideQuotes
  repeat' split
  all_goals decide

end Lexer

/-! ## Steps -/

/-- What is read in the modes that ask for nothing but the text. -/
def Mode.reads? : Mode → Option (Lexer → Except LexFailure Lexer)
  | .bareText => some fun lexer => lexer.readText Token.bareText "bare text"
  | .quotedText => some fun lexer => lexer.readText Token.quotedText "double quoted text"
  | .whiteSpace => some Lexer.readSeparator
  | .backslash => some Lexer.readEscaped
  | .singleQuoted => some Lexer.readSingleQuoted
  | .doubleQuote => some Lexer.readDoubleQuote
  | _ => none

/-- What is read in the modes that end a line. -/
def Mode.ends? : Mode → Option (Reader Unit)
  | .comment => some Token.comment
  | .lineBreak => some Token.lineEnds
  | _ => none

/-- The state after a reference of this length is resolved. -/
def Lexer.resolve (lexer : Lexer) (length : Nat) : Expansion → Lexer
  | .undefined => lexer.take length
  | .joined text => (lexer.take length).addText lexer.cursor.start text
  | .words values => (lexer.take length).addWords lexer.cursor.start values

namespace Lexer

section Steps
variable {scope : Scope} {mode next : Mode} {lexer after : Lexer} {session last : Session}

theorem step_of_reads {read : Lexer → Except LexFailure Lexer} (h : mode.reads? = some read) :
    step scope mode lexer session =
      (scope.continueIn lexer.cursor .dispatch (read lexer), session) := by
  cases mode <;> cases h <;> rfl

theorem step_of_ends {reader : Reader Unit} (h : mode.ends? = some reader) :
    step scope mode lexer session =
      Evaluation.map (fun next => some (.beginOfLine, next)) (lexer.readLineEnd scope reader)
        session := by
  cases mode <;> cases h <;> rfl

/-- What a piece leaves: more text in the word, no word, or another quote that is open. -/
theorem reads_cases {read : Lexer → Except LexFailure Lexer} (hm : mode.reads? = some read)
    (h : read lexer = .ok after) :
    (∃ length text, after = (lexer.take length).addText lexer.cursor.start text) ∨
      (∃ length, after = lexer.take length ∨ after = (lexer.take length).endWord) ∨
      ∃ quote, after = { lexer.take 1 with quote } ∧ (quote = none ∨
        mode = .doubleQuote ∧ lexer.inQuotes = false ∧ quote = some lexer.cursor.start) := by
  cases mode <;> cases hm
  case bareText =>
    obtain ⟨found, -, rfl⟩ := readPiece_eq_ok h
    exact .inl ⟨_, _, rfl⟩
  case quotedText =>
    obtain ⟨found, -, rfl⟩ := readPiece_eq_ok h
    exact .inl ⟨_, _, rfl⟩
  case whiteSpace =>
    obtain ⟨found, -, rfl⟩ := readPiece_eq_ok h
    exact .inr (.inl ⟨_, .inr rfl⟩)
  case backslash =>
    obtain ⟨⟨length, _ | c⟩, -, rfl⟩ := readPiece_eq_ok h
    · refine .inr (.inl ⟨length, ?_⟩)
      change (if lexer.inQuotes then _ else _) = _ ∨ (if lexer.inQuotes then _ else _) = _
      split
      · exact .inl rfl
      · exact .inr rfl
    · exact .inl ⟨_, _, rfl⟩
  case singleQuoted =>
    obtain ⟨found, -, rfl⟩ := readPiece_eq_ok h
    exact .inl ⟨_, _, rfl⟩
  case doubleQuote =>
    rw [readDoubleQuote_eq] at h
    split at h
    · exact .inr (.inr ⟨_, (Except.ok.inj h).symm, .inl rfl⟩)
    · exact .inl ⟨_, _, (Except.ok.inj h).symm⟩
    · next _ _ hquotes _ => exact .inr (.inr ⟨_, (Except.ok.inj h).symm, .inr ⟨rfl, hquotes, rfl⟩⟩)
    · cases h

/-- A piece moves over characters, and leaves alone what is to be done with the line. -/
theorem cursor_of_reads {read : Lexer → Except LexFailure Lexer} (hm : mode.reads? = some read)
    (h : read lexer = .ok after) :
    (∃ length, after.cursor = (lexer.take length).cursor) ∧ after.pending = lexer.pending := by
  obtain ⟨length, text, rfl⟩ | ⟨length, rfl | rfl⟩ | ⟨quote, rfl, -⟩ := reads_cases hm h
  · exact ⟨⟨length, rfl⟩, rfl⟩
  · exact ⟨⟨length, rfl⟩, rfl⟩
  · exact ⟨⟨length, rfl⟩, rfl⟩
  · exact ⟨⟨1, rfl⟩, rfl⟩

/-- At one place of a text a piece is read in both states or in neither. What holds of the states
after it follows from what their parts keep. -/
theorem reads_both {left right : Lexer} {related : Lexer → Lexer → Prop}
    {read : Lexer → Except LexFailure Lexer} (hm : mode.reads? = some read)
    (hcursor : left.cursor = right.cursor) (hquote : left.quote = right.quote)
    (htake : ∀ length, related (left.take length) (right.take length))
    (htext : ∀ length start text, related ((left.take length).addText start text)
      ((right.take length).addText start text))
    (hend : ∀ length, related (left.take length).endWord (right.take length).endWord)
    (hopen : ∀ quote, related { left.take 1 with quote } { right.take 1 with quote }) :
    (∃ found other, read left = .ok found ∧ read right = .ok other ∧ related found other) ∨
      ∃ failure, read left = .error failure ∧ read right = .error failure := by
  have hquotes : left.inQuotes = right.inQuotes := congrArg Option.isSome hquote
  have hfailure (fault : LexFault) : left.failure fault = right.failure fault := by
    rw [failure, failure, hcursor]
  have hpiece {α : Type} (reader : Reader α) (fault : LexFault) {use next : α → Lexer → Lexer}
      (huse : ∀ value length,
        related (use value (left.take length)) (next value (right.take length))) :
      (∃ found other, left.readPiece reader fault use = .ok found ∧
        right.readPiece reader fault next = .ok other ∧ related found other) ∨
      ∃ failure, left.readPiece reader fault use = .error failure ∧
        right.readPiece reader fault next = .error failure := by
    rw [readPiece_eq, readPiece_eq, hcursor, hfailure]
    cases reader right.cursor.rest with
    | none => exact .inr ⟨_, rfl, rfl⟩
    | some found => exact .inl ⟨_, _, rfl, rfl, huse _ _⟩
  have hadded (text : String) (length : Nat) :
      related ((left.take length).addText left.cursor.start text)
        ((right.take length).addText right.cursor.start text) := by
    rw [hcursor]
    exact htext _ _ _
  cases mode <;> cases hm
  case bareText => exact hpiece _ _ hadded
  case quotedText => exact hpiece _ _ hadded
  case whiteSpace => exact hpiece _ _ fun _ length => hend length
  case backslash =>
    refine hpiece _ _ ?_
    rintro (_ | c) length
    · change related (if left.inQuotes then _ else _) (if right.inQuotes then _ else _)
      rw [hquotes]
      cases right.inQuotes with
      | true => exact htake length
      | false => exact hend length
    · exact hadded _ length
  case singleQuoted => exact hpiece _ _ hadded
  case doubleQuote =>
    rw [readDoubleQuote_eq, readDoubleQuote_eq, hcursor, hquotes, hfailure]
    split
    · exact .inl ⟨_, _, rfl, rfl, hopen _⟩
    · exact .inl ⟨_, _, rfl, rfl, htext _ _ _⟩
    · exact .inl ⟨_, _, rfl, rfl, hopen _⟩
    · exact .inr ⟨_, rfl, rfl⟩

/-- A reference changes no variable. -/
theorem config_readReference (scope : Scope) (lexer : Lexer) (session : Session) :
    (lexer.readReference scope session).2.config = session.config := by
  rw [readReference_eq]
  split
  · rfl
  · split
    · rfl
    · rfl
    · change (scope.undefinedVariable _ _ session).2.config = session.config
      unfold Scope.undefinedVariable
      cases scope.undefined <;> rfl

theorem eq_resolve_of_readReference (h : lexer.readReference scope session = (.ok after, last)) :
    ∃ found, Token.reference lexer.cursor.rest = some found ∧
      after = lexer.resolve found.length (session.config.expand found.value lexer.inQuotes) := by
  rw [readReference_eq] at h
  cases hf : Token.reference lexer.cursor.rest with
  | none => rw [hf] at h; cases h
  | some found =>
    rw [hf] at h
    refine ⟨found, rfl, ?_⟩
    simp only at h
    cases hx : session.config.expand found.value lexer.inQuotes with
    | joined text => rw [hx] at h; exact (Except.ok.inj (Prod.mk.inj h).1).symm
    | words values => rw [hx] at h; exact (Except.ok.inj (Prod.mk.inj h).1).symm
    | undefined =>
      rw [hx] at h
      obtain ⟨_, -, rfl⟩ := Evaluation.map_eq_ok h
      rfl

theorem cursor_of_readReference
    (h : lexer.readReference scope session = (.ok after, last)) :
    (∃ length, after.cursor = (lexer.take length).cursor) ∧ after.pending = lexer.pending := by
  obtain ⟨found, -, rfl⟩ := eq_resolve_of_readReference h
  cases session.config.expand found.value lexer.inQuotes <;> exact ⟨⟨found.length, rfl⟩, rfl⟩

theorem cursor_of_readLineEnd {reader : Reader Unit}
    (h : lexer.readLineEnd scope reader session = (.ok after, last)) :
    ∃ length, after = (lexer.take length).clearLine ∧
      (lexer.take length).endLine scope session = (.ok (), last) := by
  rw [readLineEnd_eq] at h
  split at h
  · cases h
  · obtain ⟨_, he, rfl⟩ := Evaluation.map_eq_ok h
    exact ⟨_, rfl, he⟩

theorem continueIn_eq_ok {cursor : Cursor} {result : Except LexFailure Lexer}
    (h : scope.continueIn cursor mode result = .ok (some (next, after))) :
    next = mode ∧ result = .ok after := by
  unfold Scope.continueIn at h
  split at h
  · simp only [Except.ok.injEq, Option.some.injEq, Prod.mk.injEq] at h
    exact ⟨h.1.symm, by rw [h.2]⟩
  · cases h

/-- The ways in which a step goes on. -/
theorem step_cases (h : step scope mode lexer session = (.ok (some (next, after)), last)) :
    (mode = .beginOfLine ∧ next = .dispatch ∧ after = lexer.beginLine ∧ last = session) ∨
    (mode = .dispatch ∧ lexer.nextMode = .ok next ∧ after = lexer ∧ last = session) ∨
    (∃ read, mode.reads? = some read ∧ next = .dispatch ∧ read lexer = .ok after ∧
      last = session) ∨
    (mode = .reference ∧ next = .dispatch ∧
      lexer.readReference scope session = (.ok after, last)) ∨
    (∃ reader, mode.ends? = some reader ∧ next = .beginOfLine ∧
      lexer.readLineEnd scope reader session = (.ok after, last)) := by
  have hreads {read : Lexer → Except LexFailure Lexer} (hm : mode.reads? = some read) :
      next = .dispatch ∧ read lexer = .ok after ∧ last = session := by
    rw [step_of_reads hm, Prod.mk.injEq] at h
    obtain ⟨hn, hr⟩ := continueIn_eq_ok h.1
    exact ⟨hn, hr, h.2.symm⟩
  have hends {reader : Reader Unit} (hm : mode.ends? = some reader) :
      next = .beginOfLine ∧ lexer.readLineEnd scope reader session = (.ok after, last) := by
    rw [step_of_ends hm] at h
    obtain ⟨found, hf, he⟩ := Evaluation.map_eq_ok h
    simp only [Option.some.injEq, Prod.mk.injEq] at he
    exact ⟨he.1.symm, by rw [hf, he.2]⟩
  cases mode with
  | beginOfLine =>
    simp only [step, Prod.mk.injEq, Except.ok.injEq, Option.some.injEq] at h
    exact .inl ⟨rfl, h.1.1.symm, h.1.2.symm, h.2.symm⟩
  | dispatch =>
    simp only [step] at h
    split at h
    · next found hm =>
      simp only [Prod.mk.injEq, Except.ok.injEq, Option.some.injEq] at h
      exact .inr (.inl ⟨rfl, by rw [hm, h.1.1], h.1.2.symm, h.2.symm⟩)
    · cases h
  | reference =>
    simp only [step] at h
    obtain ⟨found, hf, he⟩ := Evaluation.map_eq_ok h
    simp only [Option.some.injEq, Prod.mk.injEq] at he
    exact .inr (.inr (.inr (.inl ⟨rfl, he.1.symm, by rw [hf, he.2]⟩)))
  | bareText | quotedText | whiteSpace | backslash | singleQuoted | doubleQuote =>
    exact .inr (.inr (.inl ⟨_, rfl, hreads rfl⟩))
  | comment | lineBreak => exact .inr (.inr (.inr (.inr ⟨_, rfl, hends rfl⟩)))
  | finish =>
    simp only [step] at h
    obtain ⟨_, -, he⟩ := Evaluation.map_eq_ok h
    cases he

/-- Only the end of the text ends a scan without an error. -/
theorem step_eq_none (h : step scope mode lexer session = (.ok none, last)) :
    mode = .finish ∧ lexer.endLine scope session = (.ok (), last) := by
  have hreads {read : Lexer → Except LexFailure Lexer} (hm : mode.reads? = some read) :
      False := by
    rw [step_of_reads hm, Prod.mk.injEq] at h
    cases hr : read lexer <;> simp [Scope.continueIn, hr] at h
  have hends {reader : Reader Unit} (hm : mode.ends? = some reader) : False := by
    rw [step_of_ends hm] at h
    obtain ⟨_, -, he⟩ := Evaluation.map_eq_ok h
    cases he
  cases mode with
  | beginOfLine => simp [step] at h
  | dispatch =>
    simp only [step] at h
    split at h <;> simp at h
  | reference =>
    simp only [step] at h
    obtain ⟨_, -, he⟩ := Evaluation.map_eq_ok h
    cases he
  | bareText | quotedText | whiteSpace | backslash | singleQuoted | doubleQuote =>
    exact (hreads rfl).elim
  | comment | lineBreak => exact (hends rfl).elim
  | finish =>
    simp only [step] at h
    obtain ⟨_, hf, -⟩ := Evaluation.map_eq_ok h
    exact ⟨rfl, hf⟩

/-- A step leaves an end of the text that was there to read. -/
theorem rest_of_step (h : step scope mode lexer session = (.ok (some (next, after)), last)) :
    after.cursor.rest <:+ lexer.cursor.rest := by
  have htake (length : Nat) : (lexer.take length).cursor.rest <:+ lexer.cursor.rest :=
    List.drop_suffix _ _
  obtain ⟨-, -, rfl, -⟩ | ⟨-, -, rfl, -⟩ | ⟨read, hm, -, hread, -⟩ | ⟨-, -, hread⟩ |
    ⟨reader, -, -, hread⟩ := step_cases h
  · unfold beginLine
    simp only
    split
    · exact htake _
    · split <;> exact htake _
  · exact List.suffix_refl _
  · obtain ⟨⟨length, hcursor⟩, -⟩ := cursor_of_reads hm hread
    rw [hcursor]
    exact htake length
  · obtain ⟨⟨length, hcursor⟩, -⟩ := cursor_of_readReference hread
    rw [hcursor]
    exact htake length
  · obtain ⟨length, rfl, -⟩ := cursor_of_readLineEnd hread
    exact htake length

/-- Only at the end of a line can the configuration change. -/
theorem session_of_step (scope : Scope) (mode : Mode) (lexer : Lexer) (session : Session) :
    (step scope mode lexer session).2.config = session.config ∨
      ∃ ended : Lexer, ended.pending = lexer.pending ∧
        (step scope mode lexer session).2 = (ended.endLine scope session).2 := by
  have hends {reader : Reader Unit} (hm : mode.ends? = some reader) :
      (step scope mode lexer session).2.config = session.config ∨
        ∃ ended : Lexer, ended.pending = lexer.pending ∧
          (step scope mode lexer session).2 = (ended.endLine scope session).2 := by
    rw [step_of_ends hm, Evaluation.map, readLineEnd_eq]
    cases reader lexer.cursor.rest with
    | none => exact .inl rfl
    | some found => exact .inr ⟨lexer.take found.length, rfl, rfl⟩
  cases mode with
  | beginOfLine => exact .inl rfl
  | dispatch =>
    simp only [step]
    split <;> exact .inl rfl
  | reference => exact .inl (config_readReference scope lexer session)
  | bareText | quotedText | whiteSpace | backslash | singleQuoted | doubleQuote =>
    rw [step_of_reads rfl]
    exact .inl rfl
  | comment | lineBreak => exact hends rfl
  | finish => exact .inr ⟨lexer, rfl, rfl⟩

/-- What is to be done with a line is decided where it begins. -/
theorem pending_of_step (h : step scope mode lexer session = (.ok (some (next, after)), last)) :
    after.pending = lexer.pending ∨ after.pending = lexer.beginLine.pending ∨
      after.pending = .plain := by
  obtain ⟨-, -, rfl, -⟩ | ⟨-, -, rfl, -⟩ | ⟨read, hm, -, hread, -⟩ | ⟨-, -, hread⟩ |
    ⟨reader, -, -, hread⟩ := step_cases h
  · exact .inr (.inl rfl)
  · exact .inl rfl
  · exact .inl (cursor_of_reads hm hread).2
  · exact .inl (cursor_of_readReference hread).2
  · obtain ⟨length, rfl, -⟩ := cursor_of_readLineEnd hread
    exact .inr (.inr rfl)

theorem nextMode_ne (h : lexer.nextMode = .ok mode) : mode ≠ .beginOfLine ∧ mode ≠ .dispatch := by
  have hrank := rank_of_nextMode h
  constructor <;> rintro rfl <;> cases hrank

end Steps

end Lexer

end ShellConfig
