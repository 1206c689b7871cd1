import ShellConfig.Proofs.Quoting.Directive

/-!
Escaped lines within a text, with their places. An escaped word is read as the word without any
effect (`Reading.leadsTo_escape`), so a line that adds a value does that and nothing else
(`Lexer.run_appendLine`), and a line that includes a file is carried out at one place, whatever the
session is (`Lexer.run_includeLine`). Unlike `Scope.readLines` these say where warnings and errors
are reported.
-/

set_option autoImplicit false

namespace ShellConfig
open Scope (extend extend_extend)

/-! ## Scans without effect -/

/-- A scan with the first reading goes on to one with the second, and does nothing on its way. -/
def Reading.LeadsTo (reading after : Reading) : Prop :=
  ∀ lexer : Lexer, lexer.reading = reading → ∃ next : Lexer, next.reading = after ∧
    ∀ scope session, Lexer.run scope .dispatch lexer session =
      Lexer.run scope .dispatch next session

namespace Reading
open Lexer

theorem LeadsTo.trans {first second third : Reading} (h : first.LeadsTo second)
    (hnext : second.LeadsTo third) : first.LeadsTo third := by
  intro lexer hlexer
  obtain ⟨middle, hmiddle, hrun⟩ := h lexer hlexer
  obtain ⟨last, hlast, hmore⟩ := hnext middle hmiddle
  exact ⟨last, hlast, fun scope session => (hrun scope session).trans (hmore scope session)⟩

/-- A piece that the next character asks for. -/
theorem leadsTo_of_piece {reading after : Reading} (mode : Mode)
    {read : Lexer → Except LexFailure Lexer} {c : Char} {rest : List Char}
    (hreads : mode.reads? = some read) (hquotes : reading.inQuotes = false)
    (hrest : reading.rest = c :: rest) (hmode : Mode.outsideQuotes c = mode)
    (h : ∀ lexer : Lexer, lexer.reading = reading → piece (read lexer) = .ok after) :
    reading.LeadsTo after := by
  intro lexer hlexer
  have hquote : lexer.quote = none :=
    quote_eq_none ((congrArg Reading.inQuotes hlexer).trans hquotes)
  have hm : lexer.nextMode = .ok mode := by
    rw [nextMode_eq, hquote, show lexer.cursor.rest = c :: rest from
      (congrArg Reading.rest hlexer).trans hrest, ← hmode]
  obtain ⟨next, hnext, hafter⟩ := piece_eq_ok (h lexer hlexer)
  refine ⟨next, hafter, fun scope session => ?_⟩
  rw [run_dispatch hm, run_of_step (by rw [step_of_reads hreads, hnext]; rfl)]

section
variable {word : Option String} {line : List String} {pending : Operation} {rest : List Char}

theorem leadsTo_bare {chars : List Char} (hne : chars ≠ []) (hchars : ∀ c ∈ chars, isBareChar c)
    (hrest : rest.head?.any isBareChar = false) :
    LeadsTo ⟨chars ++ rest, false, word, line, pending⟩
      ⟨rest, false, extend word chars, line, pending⟩ := by
  obtain ⟨c, tail, rfl⟩ := List.exists_cons_of_ne_nil hne
  have hc := hchars c List.mem_cons_self
  refine leadsTo_of_piece .bareText rfl rfl rfl (Scope.outsideQuotes_of_isBareChar hc) ?_
  intro lexer hlexer
  have htext : lexer.cursor.rest = c :: tail ++ rest := congrArg Reading.rest hlexer
  have hfound : Token.bareText (c :: tail ++ rest) =
      some ⟨(c :: tail).length, String.ofList (c :: tail)⟩ := by
    rw [Token.bareText, Token.run, (Token.takeWhile_append_of_head hchars hrest).1]
  rw [readText_eq, htext, hfound]
  simp [piece, hlexer, extend]

theorem leadsTo_singleQuoted {body : List Char} (hbody : '\'' ∉ body) :
    LeadsTo ⟨'\'' :: (body ++ '\'' :: rest), false, word, line, pending⟩
      ⟨rest, false, extend word body, line, pending⟩ := by
  refine leadsTo_of_piece .singleQuoted rfl rfl rfl rfl fun lexer hlexer => ?_
  have htext : lexer.cursor.rest = '\'' :: (body ++ '\'' :: rest) := congrArg Reading.rest hlexer
  rw [readSingleQuoted_eq, htext, Token.singleQuoted_of_not_mem hbody]
  simp [piece, hlexer, extend]

theorem leadsTo_escapedQuote :
    LeadsTo ⟨'\\' :: '\'' :: rest, false, word, line, pending⟩
      ⟨rest, false, extend word ['\''], line, pending⟩ := by
  refine leadsTo_of_piece .backslash rfl rfl rfl rfl fun lexer hlexer => ?_
  have htext : lexer.cursor.rest = '\\' :: '\'' :: rest := congrArg Reading.rest hlexer
  have hfound : Token.escaped ('\\' :: '\'' :: rest) = some ⟨2, some '\''⟩ := by
    simp [Token.escaped]
  rw [readEscaped_eq, htext, hfound]
  simp [piece, hlexer, extend]

theorem leadsTo_blank (hrest : Token.separatorLength rest = 0) :
    LeadsTo ⟨' ' :: rest, false, word, line, pending⟩
      ⟨rest, false, none, line ++ word.toList, pending⟩ := by
  refine leadsTo_of_piece .whiteSpace rfl rfl rfl rfl fun lexer hlexer => ?_
  have htext : lexer.cursor.rest = ' ' :: rest := congrArg Reading.rest hlexer
  have hfound : Token.separator (' ' :: rest) = some ⟨1, ()⟩ := by
    rw [Token.separator, Token.separatorLength_blank (by decide), hrest]
    rfl
  rw [readSeparator_eq, htext, hfound]
  simp [piece, hlexer]

/-! ## Escaped words -/

/-- The induction is on the characters that are still to be read between the quotes. -/
theorem leadsTo_quotedFragments (body : List Char) (hbody : '\'' ∉ body) (chars : List Char)
    (word : Option String) :
    LeadsTo ⟨(quotedFragments body hbody chars).flatMap Fragment.text ++ rest, false, word, line,
        pending⟩
      ⟨rest, false, extend word (body ++ chars), line, pending⟩ := by
  fun_induction quotedFragments body hbody chars generalizing word with
  | case1 body hbody => simpa [Fragment.text] using leadsTo_singleQuoted hbody
  | case2 body hbody chars ih =>
    -- the quotes close, the escaped quote follows, and the quotes open again
    have hread := (leadsTo_singleQuoted hbody).trans
      (leadsTo_escapedQuote.trans (ih (extend (extend word body) ['\''])))
    rw [extend_extend, extend_extend] at hread
    simpa [Fragment.text] using hread
  | case3 body hbody c chars h ih => simpa using ih word

/-- An escaped word before a character that cannot belong to it. -/
theorem leadsTo_escape (word : String) (hrest : rest.head?.any isBareChar = false) :
    LeadsTo ⟨(escape word).toList ++ rest, false, none, line, pending⟩
      ⟨rest, false, some word, line, pending⟩ := by
  have hword : extend none word.toList = some word := by simp [extend]
  rw [← hword]
  unfold escape
  split
  · next h =>
    obtain ⟨hne, hbare⟩ := isBareWord_iff.1 h
    exact leadsTo_bare hne hbare hrest
  · have hquoted : LeadsTo ⟨(quotedFragments [] List.not_mem_nil word.toList).flatMap Fragment.text ++
        rest, false, none, line, pending⟩ ⟨rest, false, extend none ([] ++ word.toList), line,
          pending⟩ :=
      leadsTo_quotedFragments [] List.not_mem_nil word.toList none
    rw [String.toList_ofList]
    rwa [text_quotedFragments, List.nil_append, List.nil_append, ← List.cons_append] at hquoted

end
end Reading

/-- An escaped word begins with a bare character or a quote. -/
theorem exists_head_escape (word : String) :
    ∃ c rest, (escape word).toList = c :: rest ∧ (isBareChar c ∨ c = '\'') := by
  unfold escape
  split
  · next h =>
    obtain ⟨hne, hbare⟩ := isBareWord_iff.1 h
    obtain ⟨c, rest, hchars⟩ := List.exists_cons_of_ne_nil hne
    exact ⟨c, rest, hchars, .inl (hbare c (by rw [hchars]; exact List.mem_cons_self))⟩
  · exact ⟨'\'', _, String.toList_ofList, .inr rfl⟩

theorem separatorLength_escape (word : String) (tail : List Char) :
    Token.separatorLength ((escape word).toList ++ tail) = 0 := by
  obtain ⟨c, rest, hescape, hc⟩ := exists_head_escape word
  have hblank : isInlineBlank c = false := by
    obtain hbare | rfl := hc
    · simp only [isBareChar, Bool.not_eq_true', Bool.or_eq_false_iff] at hbare
      simp [isInlineBlank, hbare.2]
    · decide
  have hslash : c ≠ '\\' := by
    obtain hbare | rfl := hc
    · rintro rfl
      exact absurd hbare (by decide)
    · decide
  rw [hescape, List.cons_append, Token.separatorLength, if_neg (by simp [hblank])]
  · exact fun tail h _ => hslash h
  · exact fun tail h _ => hslash h

theorem isPlainBlank_escape (word : String) (tail : List Char) :
    ((escape word).toList ++ tail).head?.any isPlainBlank = false := by
  obtain ⟨c, rest, hescape, hc⟩ := exists_head_escape word
  rw [hescape]
  change isPlainBlank c = false
  rw [← Bool.not_eq_true]
  intro hblank
  have hinline := isInlineBlank_of_isPlainBlank hblank
  obtain hbare | rfl := hc
  · simp only [isBareChar, Bool.not_eq_true', Bool.or_eq_false_iff] at hbare
    simp [isInlineBlank, hbare.2] at hinline
  · exact absurd hinline (by decide)

/-! ## The end of a line -/

/-- Goes on from the session that an evaluation leaves, unless it fails. -/
def Outcome.goOn (outcome : Outcome Unit) (next : Evaluation Unit) : Outcome Unit :=
  match outcome with
  | (.ok _, last) => next last
  | (.error error, last) => (.error error, last)

/-- The line that adds a value to a variable. -/
def appendLine (name text : String) : String := name ++ " += " ++ escape text

namespace Lexer
variable {lexer : Lexer} {tail more : List Char}

/-- Behind its words a line does what it asks for, and the scan goes on with the text after it. -/
theorem exists_next (hq : lexer.inQuotes = false) (htail : LineTail lexer.cursor.rest more) :
    ∃ ended next : Lexer, ended.pending = lexer.pending ∧
      ended.endWord.line = lexer.endWord.line ∧ next.reading = .fresh more ∧
      ∀ scope session, run scope .dispatch lexer session =
        Outcome.goOn (ended.endLine scope session) (run scope .beginOfLine next) := by
  obtain ⟨mode, ended, continuation, hmode, hended, hpending, hline, hnext⟩ :=
    exists_ended hq htail
  have hgoes : ∃ next : Lexer, next.reading = .fresh more ∧ ∀ scope session last,
      step scope mode lexer session = (.ok continuation, last) →
        run scope mode lexer session = run scope .beginOfLine next last := by
    obtain ⟨rfl, rfl⟩ | ⟨next, rfl, hfresh⟩ := hnext
    · refine ⟨.ofText "", rfl, fun scope session last hstep => ?_⟩
      have hblank : run scope .beginOfLine (.ofText "") last = (.ok (), last) :=
        run_blank scope last rfl rfl
      rw [run_of_step_none hstep, hblank]
    · exact ⟨next, hfresh, fun scope session last hstep => run_of_step hstep⟩
  obtain ⟨next, hfresh, hgoes⟩ := hgoes
  refine ⟨ended, next, hpending, hline, hfresh, fun scope session => ?_⟩
  have hstep := @step_of_ended scope _ _ _ session _ hended
  rw [Evaluation.map] at hstep
  rw [run_dispatch hmode]
  rcases hresult : ended.endLine scope session with ⟨error | value, last⟩ <;>
    rw [hresult] at hstep
  · exact run_of_step_error hstep
  · exact hgoes scope session last hstep

/-! ## Lines that add a value -/

theorem lineBeginning_append {name values : List Char} (hname : isIdentifierText name)
    (hvalues : values.head?.any isPlainBlank = false) :
    Token.lineBeginning (name ++ ([' '] ++ (['+'] ++ '=' :: ' ' :: values))) =
      ⟨name.length + 4, some (String.ofList name, "+")⟩ := by
  obtain ⟨c, rest, rfl, hc, hrest⟩ := Token.isIdentifierText_iff.1 hname
  have hspace : ∀ c ∈ [' '], isPlainBlank c = true := List.forall_mem_singleton.2 (by decide)
  have hblanks : (' ' :: values).takeWhile isPlainBlank = [' '] :=
    (Token.takeWhile_append_of_head hspace hvalues).1
  rw [List.cons_append, Token.lineBeginning,
    Token.blankLinesLength_of_not_isBlank (isBlank_of_isIdentifierStart hc), List.drop_zero,
    Token.assignment_of_parts hc hrest hspace (.inr (.inl rfl)), hblanks]
  simp
  omega

theorem run_appendLine {name text : String} (hname : isIdentifier name)
    (hbare : tail.head?.any isBareChar = false) (htail : LineTail tail more)
    (h : lexer.reading = .fresh ((appendLine name text).toList ++ tail)) :
    ∃ next : Lexer, next.reading = .fresh more ∧
      ∀ scope session, run scope .beginOfLine lexer session = run scope .beginOfLine next
        { session with config := session.config.append name [text] } := by
  have htext : (appendLine name text).toList ++ tail =
      name.toList ++ ([' '] ++ (['+'] ++ '=' :: ' ' :: ((escape text).toList ++ tail))) := by
    simp [appendLine]
  have hrest : lexer.cursor.rest = _ := (congrArg Reading.rest h).trans htext
  have hbegin : lexer.beginLine.reading =
      ⟨(escape text).toList ++ tail, false, none, [], .assignment name "+"⟩ := by
    rw [reading_beginLine_eq, h, hrest,
      lineBeginning_append hname (isPlainBlank_escape text tail)]
    simp [Reading.fresh]
  obtain ⟨behind, hbehind, hword⟩ :=
    Reading.leadsTo_escape text hbare lexer.beginLine hbegin
  have hq : behind.inQuotes = false := congrArg Reading.inQuotes hbehind
  have htailRest : behind.cursor.rest = tail := congrArg Reading.rest hbehind
  obtain ⟨ended, next, hpending, hline, hfresh, hrun⟩ := exists_next hq (by rwa [htailRest])
  refine ⟨next, hfresh, fun scope session => ?_⟩
  have hwords : ended.endWord.line = [text] :=
    hline.trans (congrArg (fun reading : Reading => reading.line ++ reading.word.toList) hbehind)
  have hoperation : ended.pending = .append name :=
    hpending.trans (congrArg Reading.pending hbehind)
  rw [run_beginOfLine, hword, hrun, endLine, hwords, hoperation]
  rfl

/-- A line that includes a file is carried out at one place. -/
theorem run_includeLine {path : String} (hbare : tail.head?.any isBareChar = false)
    (htail : LineTail tail more)
    (h : lexer.reading = .fresh ((includeLine path).toList ++ tail)) (source : String) :
    ∃ (location : Location) (next : Lexer), location.source = source ∧
      next.reading = .fresh more ∧ ∀ scope : Scope, scope.source = source → ∀ session,
        run scope .beginOfLine lexer session =
          Outcome.goOn (scope.perform ⟨DirectiveCall.includeName, [path]⟩ location session)
            (run scope .beginOfLine next) := by
  have htext : (includeLine path).toList ++ tail =
      ".include".toList ++ (' ' :: ((escape path).toList ++ tail)) := by
    simp [includeLine]
  have hrest : lexer.cursor.rest = _ := (congrArg Reading.rest h).trans htext
  have hbegin : lexer.beginLine.reading =
      ⟨".include".toList ++ (' ' :: ((escape path).toList ++ tail)), false, none, [],
        .directive⟩ := by
    rw [reading_beginLine_eq, h, hrest]
    rfl
  have hbareName : ".include".toList.all isBareChar = true := by decide +kernel
  have hname : Reading.LeadsTo ⟨".include".toList ++ (' ' :: ((escape path).toList ++ tail)), false,
      none, [], .directive⟩ ⟨' ' :: ((escape path).toList ++ tail), false, some ".include", [],
        .directive⟩ :=
    Reading.leadsTo_bare (by decide) (List.all_eq_true.1 hbareName) rfl
  have hwords : Reading.LeadsTo _ ⟨tail, false, some path, [".include"], .directive⟩ :=
    hname.trans ((Reading.leadsTo_blank (separatorLength_escape path tail)).trans
      (Reading.leadsTo_escape path hbare))
  obtain ⟨behind, hbehind, hword⟩ := hwords lexer.beginLine hbegin
  have hq : behind.inQuotes = false := congrArg Reading.inQuotes hbehind
  have htailRest : behind.cursor.rest = tail := congrArg Reading.rest hbehind
  obtain ⟨ended, next, hpending, hline, hfresh, hrun⟩ := exists_next hq (by rwa [htailRest])
  have hcalled : ended.called? = some ⟨DirectiveCall.includeName, [path]⟩ := by
    have hcalledWords : ended.endWord.line = [".include", path] :=
      hline.trans (congrArg (fun reading : Reading => reading.line ++ reading.word.toList) hbehind)
    have hdirective : ended.pending = .directive :=
      hpending.trans (congrArg Reading.pending hbehind)
    rw [called?, hdirective, hcalledWords]
    rfl
  refine ⟨Location.ofOffset source ended.cursor.text ended.lineOffset, next, rfl, hfresh, ?_⟩
  rintro scope rfl session
  rw [run_beginOfLine, hword, hrun, endLine_eq, hcalled]
  rfl

end Lexer
end ShellConfig
