import ShellConfig.Proofs.Interpreter.Opening
import ShellConfig.Proofs.Lexer.LineOperation
import ShellConfig.Proofs.Lexer.Places
import Mathlib.Data.List.Induction

/-!
Directive lines. Whether a line is one depends on the text alone (`DirectiveAt`), and its first word
begins with the dot (`Lexer.Occurs.dot_first`). A directive line is handed on with all its words, and
either includes a file or calls the handler that was registered last under its name (`Dispatched`).
Main statement: `Interpreter.directiveLines`.
-/

set_option autoImplicit false

namespace ShellConfig

/-! ## Registered handlers -/

/-- A change of the registered directives. -/
inductive Registration where
  | register (name : String) (handler : Handler)
  | unregister (name : String)

namespace Registration

def name : Registration → String
  | register name _ | unregister name => name

/-- The directives after a change. -/
def apply (directives : Directives) : Registration → Directives
  | register name handler => directives.register name handler
  | unregister name => (directives.unregister name).1

/-- The handler that was registered last under a name, if it was not removed after that. -/
def latest? (registrations : List Registration) (name : String) : Option Handler :=
  match registrations.reverse.find? (·.name = name) with
  | some (register _ handler) => some handler
  | _ => none

end Registration

theorem Registration.latest?_concat (earlier : List Registration) (last : Registration)
    (name : String) :
    latest? (earlier ++ [last]) name = if name = last.name then
      match last with
      | register _ handler => some handler
      | unregister _ => none
    else latest? earlier name := by
  unfold latest?
  rw [List.reverse_append, List.reverse_singleton, List.singleton_append]
  by_cases hname : name = last.name
  · rw [if_pos hname, List.find?_cons_of_pos (by simpa using hname.symm)]
    cases last <;> rfl
  · have hother : decide (last.name = name) = false := decide_eq_false (Ne.symm hname)
    rw [if_neg hname, List.find?_cons_of_neg (by simp [hother])]

namespace Directives

/-- The directives that changes in turn leave where there were none. -/
def ofRegistrations (registrations : List Registration) : Directives :=
  registrations.foldl Registration.apply .empty

theorem find?_ofRegistrations (registrations : List Registration) (name : String) :
    (ofRegistrations registrations).find? name = Registration.latest? registrations name := by
  induction registrations using List.reverseRecOn with
  | nil => rfl
  | append_singleton earlier last ih =>
    rw [Registration.latest?_concat, ← ih, ofRegistrations, List.foldl_append, List.foldl_cons,
      List.foldl_nil, ← ofRegistrations]
    cases last with
    | register other handler => exact OrderedMap.find?_insert _ other name handler
    | unregister other => exact OrderedMap.find?_erase _ other name

end Directives

/-! ## The first word -/

/-- The first of the words begins with a dot. -/
def DotFirst (words : List String) : Prop :=
  ∃ name arguments, words = String.ofList ('.' :: name) :: arguments

namespace Lexer

section
variable {scope : Scope} {text : String} {mode next : Mode} {lexer after : Lexer}
  {session last : Session}

/-- Text that is added to a line leaves the beginning of its first word. -/
theorem dotFirst_addText (h : DotFirst lexer.endWord.line) (length start : Nat) (text : String) :
    DotFirst ((lexer.take length).addText start text).endWord.line := by
  obtain ⟨name, arguments, hwords⟩ := h
  have hline : lexer.line ++ lexer.word.toList = String.ofList ('.' :: name) :: arguments := hwords
  change DotFirst (lexer.line ++ [lexer.word.getD "" ++ text])
  cases hl : lexer.line with
  | cons word words =>
    rw [hl, List.cons_append] at hline
    rw [(List.cons.inj hline).1]
    exact ⟨name, _, rfl⟩
  | nil =>
    rw [hl, List.nil_append] at hline
    cases hw : lexer.word with
    | none => rw [hw] at hline; cases hline
    | some word =>
      rw [hw] at hline
      obtain ⟨rfl, -⟩ := List.cons.inj hline
      exact ⟨name ++ text.toList, [], by simp [String.ofList_append, String.append_assoc]⟩

theorem dotFirst_of_reads {read : Lexer → Except LexFailure Lexer} (hm : mode.reads? = some read)
    (h : DotFirst lexer.endWord.line) (hread : read lexer = .ok after) :
    DotFirst after.endWord.line := by
  obtain ⟨length, text, rfl⟩ | ⟨length, rfl | rfl⟩ | ⟨quote, rfl, -⟩ := reads_cases hm hread
  · exact dotFirst_addText h _ _ _
  · exact h
  · obtain ⟨name, arguments, hwords⟩ := h
    exact ⟨name, arguments, (List.append_nil _).trans hwords⟩
  · exact h

theorem dotFirst_resolve (h : DotFirst lexer.endWord.line) (length : Nat) (expansion : Expansion) :
    DotFirst (lexer.resolve length expansion).endWord.line := by
  cases expansion with
  | undefined => exact h
  | joined text => exact dotFirst_addText h _ _ _
  | words values =>
    obtain ⟨name, arguments, hwords⟩ := h
    refine ⟨name, arguments ++ values, ?_⟩
    rw [← List.cons_append, ← hwords]
    exact List.append_nil _

/-- The dot itself is text. -/
theorem dotFirst_of_reads_dot {read : Lexer → Except LexFailure Lexer} {tail : List Char}
    (hfits : lexer.Fits mode) (hm : mode.reads? = some read)
    (hrest : lexer.cursor.rest = '.' :: tail) (hnone : lexer.endWord.line = [])
    (hread : read lexer = .ok after) : DotFirst after.endWord.line := by
  have haccepts := accepts_of_fits hfits hrest (by cases mode <;> cases hm <;> rfl)
  obtain ⟨hline, hword⟩ : lexer.line = [] ∧ lexer.word.toList = [] := List.append_eq_nil_iff.1 hnone
  have htext {accepts : Char → Bool} {what : String} (hdot : accepts '.' = true)
      (hread : lexer.readText (Token.run accepts) what = .ok after) :
      DotFirst after.endWord.line := by
    rw [readText_eq, Token.run, hrest, List.takeWhile_cons_of_pos hdot] at hread
    obtain rfl := Except.ok.inj hread
    refine ⟨tail.takeWhile accepts, [], ?_⟩
    change lexer.line ++ [lexer.word.getD "" ++ _] = _
    rw [hline, Option.toList_eq_nil_iff.1 hword]
    exact congrArg (· :: []) (String.empty_append ..)
  cases mode <;> cases hm
  case bareText => exact htext haccepts hread
  case quotedText => exact htext haccepts hread
  case whiteSpace => exact absurd haccepts (by decide)
  case backslash => exact absurd haccepts (by decide)
  case singleQuoted => exact absurd haccepts (by decide)
  case doubleQuote => exact absurd haccepts (by decide)

/-- On a directive line the dot is the next character and the line has no word, or the first word
begins with it. -/
theorem Occurs.dot_first (h : Occurs text mode lexer) (hp : lexer.pending = .directive) :
    DotFirst lexer.endWord.line ∨
      lexer.endWord.line = [] ∧ ∃ tail, lexer.cursor.rest = '.' :: tail := by
  induction h with
  | start => cases hp
  | @step scope mode next lexer after session last hoccurs hstep ih =>
    obtain ⟨rfl, -, rfl, -⟩ | ⟨-, -, rfl, -⟩ | ⟨read, hm, -, hread, -⟩ | ⟨rfl, -, hread⟩ |
      ⟨reader, hm, -, hread⟩ := step_cases hstep
    · obtain ⟨tail, hbegins⟩ := hoccurs.dot_of_beginLine hp
      have hfresh : lexer.beginLine.reading.line ++ lexer.beginLine.reading.word.toList = [] := by
        rw [reading_beginLine_eq, hoccurs.fits]
        rfl
      exact .inr ⟨hfresh, tail, hbegins.rest⟩
    · exact ih hp
    · obtain hdot | ⟨hnone, tail, hrest⟩ := ih ((cursor_of_reads hm hread).2 ▸ hp)
      · exact .inl (dotFirst_of_reads hm hdot hread)
      · exact .inl (dotFirst_of_reads_dot hoccurs.fits hm hrest hnone hread)
    · obtain hdot | ⟨-, tail, hrest⟩ := ih ((cursor_of_readReference hread).2 ▸ hp)
      · obtain ⟨found, -, rfl⟩ := eq_resolve_of_step hstep
        exact .inl (dotFirst_resolve hdot _ _)
      · exact absurd (accepts_of_fits hoccurs.fits hrest (by decide)) (by decide)
    · obtain ⟨length, rfl, -⟩ := cursor_of_readLineEnd hread
      cases hp

/-- At the end of a directive line its first word begins with a dot. -/
theorem Occurs.dotFirst (h : Occurs text mode lexer) (hp : lexer.pending = .directive)
    (hmode : mode.closesLine) : DotFirst lexer.endWord.line := by
  obtain hdot | ⟨-, tail, hrest⟩ := h.dot_first hp
  · exact hdot
  · have haccepts := accepts_of_fits h.fits hrest (by cases mode <;> first | rfl | cases hmode)
    cases mode <;> first | exact absurd haccepts (by decide) | cases hmode

end

end Lexer

/-! ## The end of a directive line -/

/-- A line of the text begins behind this part of it, and blanks and empty lines are all that comes
before its dot. -/
def DirectiveAt (text before : String) : Prop :=
  LineBegins text before ∧ ∃ rest, text = before ++ String.ofList rest ∧ Token.OpensDirective rest

/-- Where a line turns out to be a directive, its text makes it one. -/
theorem Lexer.BeginsDirective.directiveAt {text : String} {first : Lexer} {tail : List Char}
    (h : BeginsDirective text first tail) : DirectiveAt text first.cursor.passed := by
  have hplain : first.pending = .plain := congrArg Reading.pending h.occurs.fits
  refine ⟨h.occurs.lineBegins, first.cursor.rest, h.occurs.text_eq_append, ?_⟩
  have hannounces : Token.Announces first.cursor.rest .directive := by
    rw [Token.announces_iff, ← pending_beginLine hplain, h.pending]
  exact hannounces

namespace DirectiveCall

/-- The directive that is meant by the text after the dot of the first word. -/
def meant (name : List Char) (arguments : List String) : DirectiveCall :=
  ⟨if name = [] then includeName else String.ofList name, arguments⟩

theorem ofWords?_dot (name : List Char) (arguments : List String) :
    ofWords? (String.ofList ('.' :: name) :: arguments) = some (meant name arguments) := by
  have hempty : String.ofList name = "" ↔ name = [] := by simp
  simp only [ofWords?, String.toList_ofList, meant, hempty]

end DirectiveCall

namespace Scan
open Lexer

/-- The step does with the line what a directive does, whichever way directives are carried out. -/
def Calls (scope : Scope) (scan : Scan) (call : DirectiveCall) (location : Location)
    (continuation : Continuation) : Prop :=
  ∀ perform, Lexer.step { scope with perform } scan.mode scan.lexer scan.session =
    Evaluation.map (fun _ => continuation) (perform call location) scan.session

section
variable {scope : Scope} {text : String} {session : Session} {first scan : Scan}

/-- What the text says at the beginning of the line decides about its end. -/
theorem pending_eq_directive_iff (hfirst : Reaches scope (start text session) first)
    (hline : InLine scope first scan) (hmode : scan.mode.closesLine) :
    scan.lexer.pending = .directive ↔ DirectiveAt text first.lexer.cursor.passed := by
  have hoccurs := Occurs.of_reaches hfirst
  have htext := hoccurs.text_eq_append
  have hannounces : Token.Announces first.lexer.cursor.rest .directive ↔
      .directive = Token.announced first.lexer.cursor.rest := Token.announces_iff
  rw [pending_of_closes hfirst hline hmode, eq_comm, ← hannounces]
  rw [hline.begins_mode] at hoccurs
  constructor
  · exact fun h => ⟨hoccurs.lineBegins, _, htext, h⟩
  · rintro ⟨-, rest, hrest, h⟩
    have hsame : first.lexer.cursor.rest = rest := by
      have hlists := congrArg String.toList (htext.symm.trans hrest)
      simpa using hlists
    rwa [hsame]

/-- A line that is no directive is done without one. -/
theorem not_calls {call : DirectiveCall} {location : Location} {continuation : Continuation}
    (hended : (scan.lexer.ended? scan.mode).isSome) (hp : scan.lexer.pending ≠ .directive) :
    ¬ scan.Calls scope call location continuation := by
  obtain ⟨⟨ended, other⟩, hended⟩ := Option.isSome_iff_exists.1 hended
  have hnone : ended.called? = none := called?_eq_none (by rwa [(line_of_ended hended).2])
  intro hcalls
  have hstep := hcalls fun _ _ session => (.error (.lexical .danglingBackslash default), session)
  rw [step_of_applied hended hnone] at hstep
  cases hstep

theorem exists_calls (hfirst : Reaches scope (start text session) first)
    (hline : InLine scope first scan) (hended : (scan.lexer.ended? scan.mode).isSome)
    (hp : scan.lexer.pending = .directive) :
    ∃ name arguments location continuation,
      scan.lexer.endWord.line = String.ofList ('.' :: name) :: arguments ∧
        scan.Calls scope (.meant name arguments) location continuation := by
  have hmode := closesLine_of_ended hended
  obtain ⟨⟨ended, continuation⟩, hended⟩ := Option.isSome_iff_exists.1 hended
  obtain ⟨name, arguments, hwords⟩ :=
    (Occurs.of_reaches (hfirst.trans hline.reaches)).dotFirst hp hmode
  have hcall : ended.called? = some (.meant name arguments) := by
    obtain ⟨hline, hpending⟩ := line_of_ended hended
    rw [called?, hpending, hp, hline, hwords]
    exact DirectiveCall.ofWords?_dot name arguments
  exact ⟨name, arguments, ended.locate scope ended.lineOffset, continuation, hwords,
    fun perform => step_of_called hended hcall⟩

end

end Scan

/-! ## What directives do -/

/-- The text after the dot names the directive that loads a file. -/
def NamesInclude (name : List Char) : Prop :=
  name = [] ∨ name = DirectiveCall.includeName.toList

/-- What becomes of a directive line: the outcome of its last step, which begins with a session. -/
structure Dispatched (interpreter : Interpreter) (registrations : List Registration)
    (files : FileTree) (nested : TextEvaluation) (active : List Identity) (source : String)
    (name : List Char) (arguments : List String) (location : Location)
    (continuation : Continuation) (session : Session) (outcome : Outcome Continuation) : Prop where
  /-- One path is loaded, whatever is registered. -/
  includes : ∀ path, NamesInclude name → arguments = [path] →
    outcome = Evaluation.map (fun _ => continuation)
      (interpreter.includeFile files nested active (Path.resolve source path) location) session
  arity : NamesInclude name → arguments.length ≠ 1 →
    outcome = (.error (.directive (.includeArity arguments.length) location), session)
  unknown : ¬ NamesInclude name → Registration.latest? registrations (String.ofList name) = none →
    outcome = (.error (.directive (.unknown (String.ofList name)) location), session)
  handled : ∀ handler config, ¬ NamesInclude name →
    Registration.latest? registrations (String.ofList name) = some handler →
    handler session.config (String.ofList name) arguments = (config, none) →
    outcome = (.ok continuation, { session with config })
  /-- What a handler changed before it gave up stays. -/
  failed : ∀ handler config cause, ¬ NamesInclude name →
    Registration.latest? registrations (String.ofList name) = some handler →
    handler session.config (String.ofList name) arguments = (config, some cause) →
    outcome = (.error (.directive (.failed (String.ofList name) cause) location),
      { session with config })

namespace Interpreter

/-- The interpreter whose directives were registered in turn. -/
def ofRegistrations (limit : Nat) (policy : UndefinedPolicy) (registrations : List Registration) :
    Interpreter := ⟨limit, policy, .ofRegistrations registrations⟩

section
variable {interpreter : Interpreter} {registrations : List Registration} {files : FileTree}
  {nested : TextEvaluation} {active : List Identity} {source : String} {name : List Char}
  {arguments : List String} {location : Location} {continuation : Continuation}
  {session : Session} {outcome : Outcome Continuation}

theorem meant_of_namesInclude (h : NamesInclude name) :
    DirectiveCall.meant name arguments = ⟨DirectiveCall.includeName, arguments⟩ := by
  obtain rfl | rfl := h
  · rfl
  · rfl

theorem perform_of_length_ne (harity : arguments.length ≠ 1) :
    interpreter.perform files nested active source ⟨DirectiveCall.includeName, arguments⟩ location
        session =
      (.error (.directive (.includeArity arguments.length) location), session) := by
  rw [perform, if_pos rfl]
  split
  · next path hpath =>
    have hone : arguments = [path] := hpath
    exact absurd (congrArg List.length hone) harity
  · rfl

theorem perform_of_not_namesInclude (h : ¬ NamesInclude name) :
    interpreter.perform files nested active source (.meant name arguments) location session =
      match interpreter.directives.find? (String.ofList name) with
      | none => (.error (.directive (.unknown (String.ofList name)) location), session)
      | some handler =>
        match handler session.config (String.ofList name) arguments with
        | (config, none) => (.ok (), { session with config })
        | (config, some cause) =>
          (.error (.directive (.failed (String.ofList name) cause) location),
            { session with config }) := by
  have hnil : name ≠ [] := fun hname => h (.inl hname)
  have hname : String.ofList name ≠ DirectiveCall.includeName := by
    intro heq
    refine h (.inr ?_)
    rw [← heq, String.toList_ofList]
  rw [DirectiveCall.meant, if_neg hnil, perform]
  exact if_neg hname

theorem dispatched (hdirectives : interpreter.directives = .ofRegistrations registrations)
    (houtcome : outcome = Evaluation.map (fun _ => continuation)
      (interpreter.perform files nested active source (.meant name arguments) location) session) :
    Dispatched interpreter registrations files nested active source name arguments location
      continuation session outcome where
  includes path hname harguments := by
    rw [houtcome, meant_of_namesInclude hname, harguments, perform_include]
  arity hname harity := by
    rw [houtcome, meant_of_namesInclude hname, Evaluation.map, perform_of_length_ne harity]
    rfl
  unknown hname hnone := by
    rw [houtcome, Evaluation.map, perform_of_not_namesInclude hname, hdirectives,
      Directives.find?_ofRegistrations, hnone]
    rfl
  handled handler config hname hlatest hresult := by
    rw [houtcome, Evaluation.map, perform_of_not_namesInclude hname, hdirectives,
      Directives.find?_ofRegistrations, hlatest]
    simp only [hresult]
    rfl
  failed handler config cause hname hlatest hresult := by
    rw [houtcome, Evaluation.map, perform_of_not_namesInclude hname, hdirectives,
      Directives.find?_ofRegistrations, hlatest]
    simp only [hresult]
    rfl

end

/-! ## Whole texts -/

section
open Scan
variable (interpreter : Interpreter) (registrations : List Registration) (files : FileTree)
  (closed : Nat) (active : List Identity) (source text : String) (session : Session)

/-- The directive lines of a text that is evaluated while some files are open and so many others can
be opened. -/
structure DirectiveLines (scope : Scope) : Prop where
  evaluates : interpreter.evaluate files closed active source text session =
    (start text session).run scope
  inLine : ∀ scan, Reaches scope (start text session) scan →
    ∃ first, Reaches scope (start text session) first ∧ InLine scope first scan ∧
      LineBegins text first.lexer.cursor.passed
  /-- A line whose end is read is done as a directive if the text has a dot at its beginning, and
  only then. -/
  decided : ∀ first scan, Reaches scope (start text session) first → InLine scope first scan →
    (scan.lexer.ended? scan.mode).isSome →
      ((∃ call location continuation, scan.Calls scope call location continuation) ↔
        DirectiveAt text first.lexer.cursor.passed)
  /-- Its words have a name in front, and nothing is done before they are handed on. -/
  dispatched : ∀ first scan, Reaches scope (start text session) first → InLine scope first scan →
    (scan.lexer.ended? scan.mode).isSome → DirectiveAt text first.lexer.cursor.passed →
      ∃ name arguments location continuation,
        scan.lexer.endWord.line = String.ofList ('.' :: name) :: arguments ∧
        scan.session.config = first.session.config ∧
        scan.Calls scope (.meant name arguments) location continuation ∧
        Dispatched interpreter registrations files (interpreter.included files closed) active source
          name arguments location continuation scan.session (scan.step scope)

theorem directiveLines (limit : Nat) (policy : UndefinedPolicy) :
    DirectiveLines (ofRegistrations limit policy registrations) registrations files closed active
      source text session
      ((ofRegistrations limit policy registrations).scope files
        ((ofRegistrations limit policy registrations).included files closed) active source) where
  evaluates := by rw [evaluate_eq, evaluate_eq_run]
  inLine scan hreaches := by
    obtain ⟨first, hfirst, hline⟩ := exists_inLine hreaches
    have hoccurs := Lexer.Occurs.of_reaches hfirst
    rw [hline.begins_mode] at hoccurs
    exact ⟨first, hfirst, hline, hoccurs.lineBegins⟩
  decided first scan hfirst hline hended := by
    rw [← pending_eq_directive_iff hfirst hline (Lexer.closesLine_of_ended hended)]
    constructor
    · rintro ⟨call, location, continuation, hcalls⟩
      by_contra hp
      exact not_calls hended hp hcalls
    · intro hp
      obtain ⟨name, arguments, location, continuation, -, hcalls⟩ :=
        exists_calls hfirst hline hended hp
      exact ⟨_, location, continuation, hcalls⟩
  dispatched first scan hfirst hline hended hdirective := by
    have hp := (pending_eq_directive_iff hfirst hline (Lexer.closesLine_of_ended hended)).2 hdirective
    obtain ⟨name, arguments, location, continuation, hwords, hcalls⟩ :=
      exists_calls hfirst hline hended hp
    exact ⟨name, arguments, location, continuation, hwords, hline.config_eq, hcalls,
      dispatched rfl (hcalls _)⟩

end

end Interpreter

end ShellConfig
