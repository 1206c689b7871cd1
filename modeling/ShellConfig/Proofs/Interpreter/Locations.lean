import ShellConfig.Proofs.Interpreter.DirectiveLines
import ShellConfig.Proofs.Interpreter.Evaluator
import ShellConfig.Proofs.Lexer.LineStarts
import ShellConfig.Proofs.Source.Positions

/-!
What the locations of warnings and errors tell. Each warning, and each error that is not about the
file with which an evaluation begins, arises in a step of one text, and its location names that text
and the place in it which this step is about: the reference that it reads (`LocatesWarning`), the
place where its fault shows (`LocatesFault`), or the dot of the directive line that it ends
(`LocatesDirective`). Main statement: `locationsAccurate`.
-/

set_option autoImplicit false

namespace ShellConfig

/-! ## Places in a text -/

/-- The location is that of the seam between two parts of the frame's text. Lines and columns count
from 1, and columns in characters. -/
structure Frame.Locates (frame : Frame) (location : Location) (before : String) (rest : List Char) :
    Prop where
  source : location.source = frame.source
  text : frame.text = before ++ String.ofList rest
  offset : location.position.offset = before.utf8ByteSize
  line : location.position.line = 1 + before.toList.count '\n'
  column : location.position.column = 1 + (before.toList.reverse.takeWhile (· ≠ '\n')).length

theorem Frame.locates_ofOffset {frame : Frame} {before : String} {rest : List Char}
    (h : frame.text = before ++ String.ofList rest) :
    frame.Locates (Location.ofOffset frame.source frame.text before.utf8ByteSize) before rest := by
  obtain ⟨hoffset, hline, hcolumn⟩ := Position.position_ofOffset_append before (String.ofList rest)
  rw [← h] at hoffset hline hcolumn
  exact ⟨rfl, h, hoffset, hline, hcolumn⟩

/-! ## Effects of a step -/

namespace Lexer
variable {scope : Scope} {text : String} {mode next : Mode} {lexer after ended : Lexer}
  {session last : Session} {continuation : Continuation}

/-- How the scan goes on after the end of a line occurs, whatever the line does: it occurs where
the directive of the line does nothing. -/
theorem Occurs.of_ended (h : Occurs text mode lexer)
    (hended : lexer.ended? mode = some (ended, some (next, after))) : Occurs text next after := by
  obtain ⟨last, hline⟩ := ended.exists_endLine_idle (.ofConfig .empty)
  have hstep : Lexer.step .idle mode lexer (.ofConfig .empty) =
      (.ok (some (next, after)), last) := by
    rw [step_of_ended hended, Evaluation.map, hline]
    rfl
  exact h.step hstep

end Lexer

namespace Interpreter
variable {interpreter : Interpreter} {files : FileTree} {nested : TextEvaluation}
  {active : List Identity} {source : String} {call : DirectiveCall} {location : Location}
  {mode : Mode} {lexer : Lexer} {continuation : Continuation} {session last : Session}
  {error : Error}

theorem warnings_of_step (hentered : interpreter.entered? files active source mode lexer = none)
    (hstep : Lexer.step (interpreter.scope files nested active source) mode lexer session =
      (.ok continuation, last)) :
    last.warnings = session.warnings ∨ ∃ found, mode = .reference ∧
      Token.reference lexer.cursor.rest = some found ∧
      session.config.get? found.value.name = none ∧
      last = session.warn ⟨found.value.name,
        Location.ofOffset source lexer.cursor.text lexer.cursor.start⟩ := by
  cases hended : lexer.ended? mode with
  | none =>
    cases continuation with
    | none =>
      obtain ⟨rfl, -⟩ := Lexer.step_eq_none hstep
      cases hended
    | some next =>
      obtain rfl | ⟨rfl, found, hf, hunset, rfl⟩ := Lexer.session_of_not_ended hended hstep
      · exact .inl rfl
      · exact .inr ⟨found, rfl, hf, hunset, rfl⟩
  | some found =>
    obtain ⟨ended, rest⟩ := found
    left
    cases hcall : ended.called? with
    | none =>
      rw [Lexer.step_of_applied hended hcall] at hstep
      rw [← (Prod.mk.inj hstep).2]
    | some call =>
      rw [Lexer.step_of_called hended hcall, perform_scope] at hstep
      obtain ⟨_, hperform, -⟩ := Evaluation.map_eq_ok hstep
      have hwarnings := (perform_of_not_opened_cases
        (opened?_of_not_entered hended hcall hentered) nested
        (ended.locate (interpreter.scope files nested active source) ended.lineOffset) session).1
      rw [hperform] at hwarnings
      exact hwarnings

theorem error_of_step (hentered : interpreter.entered? files active source mode lexer = none)
    (hstep : Lexer.step (interpreter.scope files nested active source) mode lexer session =
      (.error error, last)) :
    last.warnings = session.warnings ∧
      ((∃ failure, Lexer.Fails interpreter.undefined session.config lexer mode failure ∧
          error = .lexical failure.fault
            (Location.ofOffset source lexer.cursor.text failure.offset)) ∨
        ∃ ended continuation call, lexer.ended? mode = some (ended, continuation) ∧
          ended.called? = some call ∧
          FailsAt (Location.ofOffset source ended.cursor.text ended.lineOffset) error) := by
  obtain ⟨failure, hfails, rfl, rfl⟩ | ⟨ended, continuation, call, hended, hcall, hperform⟩ :=
    Lexer.step_error_cases hstep
  · exact ⟨rfl, .inl ⟨failure, hfails, rfl⟩⟩
  · rw [perform_scope] at hperform
    obtain ⟨hwarnings, herror⟩ := perform_of_not_opened_cases
      (opened?_of_not_entered hended hcall hentered) nested
      (ended.locate (interpreter.scope files nested active source) ended.lineOffset) session
    rw [hperform] at hwarnings herror
    exact ⟨hwarnings, .inr ⟨ended, continuation, call, hended, hcall, herror error rfl⟩⟩

end Interpreter

/-! ## Texts and their steps -/

/-- The texts to which a whole evaluation can come, with their names: the one with which it begins,
and the files that such texts include. -/
inductive Sourced (files : FileTree) (entry : Entry) : String → String → Prop
  | text {source text : String} (h : entry = .text source text) : Sourced files entry source text
  | file {path text : String} {identity : Identity} (h : entry = .file path)
    (hopen : files.openText path = .ok (identity, text)) : Sourced files entry path text
  | included {source text argument contents : String} {identity : Identity}
    (h : Sourced files entry source text)
    (hopen : files.openText (Path.resolve source argument) = .ok (identity, contents)) :
    Sourced files entry (Path.resolve source argument) contents

namespace Evaluator

section
variable (interpreter : Interpreter) (files : FileTree) (entry : Entry) (config : Config)

/-- A step of the text in the frame, which is the innermost one, leads from one point of a whole
evaluation to the next. -/
structure StepOf (frame : Frame) (state next : Evaluator) : Prop where
  reaches : Reaches interpreter files (start files config entry) state
  innermost : state.frames.head? = some frame
  sourced : Sourced files entry frame.source frame.text
  advances : advance interpreter files state = some next

/-- The step adds the warning. What it reads is a reference to a variable that is not set, and the
warning has the name of this variable and the location of the reference. -/
structure LocatesWarning (warning : Warning) (frame : Frame) (state next : Evaluator)
    (lexer : Lexer) : Prop where
  step : StepOf interpreter files entry config frame state next
  warns : next.session = state.session.warn warning
  reads : frame.next = some (.reference, lexer)
  dollar : lexer.cursor.peek = some '$'
  reference : ∃ found, Token.reference lexer.cursor.rest = some found ∧
    found.value.name = warning.name ∧ state.session.config.get? found.value.name = none
  locates : frame.Locates warning.location lexer.cursor.passed lexer.cursor.rest

def WarningLocated (warning : Warning) : Prop :=
  ∃ frame state next lexer, LocatesWarning interpreter files entry config warning frame state next
    lexer

/-- The error arises in the step that takes the scan of the frame's text on from here. -/
structure ArisesIn (error : Error) (frame : Frame) (mode : Mode) (lexer : Lexer) : Prop where
  reads : frame.next = some (mode, lexer)
  step : ∃ state next, StepOf interpreter files entry config frame state next ∧
    state.error = none ∧ next.error = some error

/-- The fault that the step finds shows at the location: at the cursor, or at the double quote that
is still open where the text ends. -/
structure LocatesFault (fault : LexFault) (location : Location) (frame : Frame) (mode : Mode)
    (lexer : Lexer) (shown : Mode) (place : Lexer) : Prop where
  arises : ArisesIn interpreter files entry config (.lexical fault location) frame mode lexer
  showsIn : fault.ShowsIn mode lexer shown place
  occurs : Lexer.Occurs frame.text shown place
  showsAt : fault.ShowsAt shown place
  locates : frame.Locates location place.cursor.passed place.cursor.rest

/-- The step ends a directive line, which began with the first state, and the error of its directive
has the location of the dot. -/
structure LocatesDirective (error : Error) (location : Location) (frame : Frame) (mode : Mode)
    (lexer first : Lexer) (tail : List Char) : Prop where
  arises : ArisesIn interpreter files entry config error frame mode lexer
  called : ∃ ended continuation call, lexer.ended? mode = some (ended, continuation) ∧
    ended.called? = some call
  inLine : first.InLine mode lexer
  begins : Lexer.BeginsDirective frame.text first tail
  directiveAt : DirectiveAt frame.text first.cursor.passed
  locates : frame.Locates location first.beginLine.cursor.passed ('.' :: tail)

/-- The error arises in a step of a text, and its location is the place in this text which the step
is about. An error without a location is about the file with which the evaluation begins. -/
def ErrorLocated (error : Error) : Prop :=
  match error with
  | .lexical fault location => ∃ frame mode lexer shown place,
    LocatesFault interpreter files entry config fault location frame mode lexer shown place
  | .directive _ location | .file _ (some location) _ => ∃ frame mode lexer first tail,
    LocatesDirective interpreter files entry config error location frame mode lexer first tail
  | .file path none fault => entry = .file path ∧ files.openText path = .error fault

end

/-- What is known of a text that is being evaluated. -/
structure IsTraced (files : FileTree) (entry : Entry) (frame : Frame) : Prop where
  sourced : Sourced files entry frame.source frame.text
  occurs : ∀ mode lexer, frame.next = some (mode, lexer) → Lexer.Occurs frame.text mode lexer

/-- What is known of the texts, the warnings and the error at a point of a whole evaluation. -/
structure Traced (interpreter : Interpreter) (files : FileTree) (entry : Entry) (config : Config)
    (state : Evaluator) : Prop where
  frames : ∀ frame ∈ state.frames, IsTraced files entry frame
  warnings : ∀ warning ∈ state.session.warnings,
    WarningLocated interpreter files entry config warning
  error : ∀ error, state.error = some error → ErrorLocated interpreter files entry config error

section
variable {interpreter : Interpreter} {files : FileTree} {entry : Entry} {config : Config}
  {state next : Evaluator} {frame : Frame} {below : List Frame} {mode : Mode} {lexer : Lexer}

theorem isTraced_of_start (hsourced : Sourced files entry frame.source frame.text)
    (hnext : frame.next = some (.beginOfLine, .ofText frame.text)) :
    IsTraced files entry frame := by
  refine ⟨hsourced, fun mode lexer h => ?_⟩
  rw [hnext] at h
  obtain ⟨rfl, rfl⟩ := Prod.mk.inj (Option.some.inj h)
  exact .start

theorem traced_start : Traced interpreter files entry config (start files config entry) := by
  have hwarnings : ∀ warning ∈ (Session.ofConfig config).warnings,
      WarningLocated interpreter files entry config warning := fun _ h =>
    absurd h List.not_mem_nil
  have hnone (error : Error) (h : none = some error) :
      ErrorLocated interpreter files entry config error := absurd h (Option.some_ne_none error).symm
  cases entry with
  | text source text =>
    refine ⟨fun frame hframe => ?_, hwarnings, hnone⟩
    obtain rfl := List.mem_singleton.1 hframe
    exact isTraced_of_start (.text rfl) rfl
  | file path =>
    rw [start]
    cases hopen : files.openText path with
    | ok found =>
      refine ⟨fun frame hframe => ?_, hwarnings, hnone⟩
      obtain rfl := List.mem_singleton.1 hframe
      exact isTraced_of_start (.file rfl hopen) rfl
    | error fault =>
      refine ⟨fun _ h => absurd h List.not_mem_nil, hwarnings, fun error h => ?_⟩
      obtain rfl := Option.some.inj h
      exact ⟨rfl, hopen⟩

/-- The step of a text at the end of a line leaves the text at a state of its scan. -/
theorem IsTraced.of_ended {ended : Lexer} {continuation : Continuation}
    (h : IsTraced files entry frame) (hnext : frame.next = some (mode, lexer))
    (hended : lexer.ended? mode = some (ended, continuation)) :
    IsTraced files entry { frame with next := continuation } := by
  refine ⟨h.sourced, fun next after hafter => ?_⟩
  change continuation = some (next, after) at hafter
  rw [hafter] at hended
  exact (h.occurs mode lexer hnext).of_ended hended

/-- Where a fault shows, its error has the location of this place. -/
theorem errorLocated_of_fails {current : Config} {failure : LexFailure} {location : Location}
    (hframe : IsTraced files entry frame)
    (hfails : Lexer.Fails interpreter.undefined current lexer mode failure)
    (hlocation : location = Location.ofOffset frame.source lexer.cursor.text failure.offset)
    (harises : ArisesIn interpreter files entry config (.lexical failure.fault location) frame mode
      lexer) :
    ErrorLocated interpreter files entry config (.lexical failure.fault location) := by
  have hoccurs := hframe.occurs mode lexer harises.reads
  obtain ⟨shown, place, hplace, hoffset, hshowsIn, hshowsAt⟩ := hoccurs.shows_of_fails hfails
  refine ⟨frame, mode, lexer, shown, place, harises, hshowsIn, hplace, hshowsAt, ?_⟩
  rw [hlocation, hoccurs.text_eq, ← hoffset]
  exact Frame.locates_ofOffset hplace.text_eq_append

/-- The error of a directive has the location of its dot. -/
theorem errorLocated_of_called {ended : Lexer} {continuation : Continuation} {call : DirectiveCall}
    {error : Error} (hframe : IsTraced files entry frame)
    (hended : lexer.ended? mode = some (ended, continuation)) (hcall : ended.called? = some call)
    (hfails : Interpreter.FailsAt
      (Location.ofOffset frame.source ended.cursor.text ended.lineOffset) error)
    (harises : ArisesIn interpreter files entry config error frame mode lexer) :
    ErrorLocated interpreter files entry config error := by
  have hoccurs := hframe.occurs mode lexer harises.reads
  obtain ⟨first, tail, hbegins, hline, hoffset⟩ := hoccurs.dot_of_called hended hcall
  have htext : ended.cursor.text = frame.text := by
    rw [← hoccurs.text_eq]
    obtain ⟨-, rfl, -⟩ | ⟨reader, found, -, -, rfl, -⟩ := Lexer.ended?_cases hended
    · rfl
    · rw [Lexer.take, Cursor.text_commit, Cursor.text_take]
  have hlocates : frame.Locates
      (Location.ofOffset frame.source ended.cursor.text ended.lineOffset)
      first.beginLine.cursor.passed ('.' :: tail) := by
    rw [htext, hoffset]
    refine Frame.locates_ofOffset ?_
    rw [← hbegins.rest]
    exact hbegins.occurs.beginLine.text_eq_append
  have hlocated : LocatesDirective interpreter files entry config error
      (Location.ofOffset frame.source ended.cursor.text ended.lineOffset) frame mode lexer first
      tail :=
    ⟨harises, ⟨ended, continuation, call, hended, hcall⟩, hline, hbegins, hbegins.directiveAt,
      hlocates⟩
  obtain ⟨fault, rfl⟩ | ⟨path, fault, rfl⟩ := hfails
  · exact ⟨frame, mode, lexer, first, tail, hlocated⟩
  · exact ⟨frame, mode, lexer, first, tail, hlocated⟩

/-- The warning about a reference has the location of its dollar sign. -/
theorem warningLocated_of_reference {found : Match Reference}
    (hframe : IsTraced files entry frame) (hnext : frame.next = some (.reference, lexer))
    (hfound : Token.reference lexer.cursor.rest = some found)
    (hunset : state.session.config.get? found.value.name = none)
    (hstep : StepOf interpreter files entry config frame state next)
    (hwarn : next.session = state.session.warn ⟨found.value.name,
      Location.ofOffset frame.source lexer.cursor.text lexer.cursor.start⟩) :
    WarningLocated interpreter files entry config ⟨found.value.name,
      Location.ofOffset frame.source lexer.cursor.text lexer.cursor.start⟩ := by
  have hoccurs := hframe.occurs .reference lexer hnext
  obtain ⟨c, tail, hrest, hc⟩ := Lexer.exists_accepts_of_nextMode hoccurs.fits (by decide)
  obtain rfl : c = '$' := by simpa [Mode.accepts] using hc
  have hdollar : lexer.cursor.peek = some '$' := by
    rw [Cursor.peek, hrest]
    rfl
  refine ⟨frame, state, next, lexer, hstep, hwarn, hnext, hdollar, ⟨found, hfound, rfl, hunset⟩, ?_⟩
  rw [hoccurs.text_eq]
  exact Frame.locates_ofOffset hoccurs.text_eq_append

theorem traced_of_advance (h : Traced interpreter files entry config state)
    (hreaches : Reaches interpreter files (start files config entry) state)
    (hadvance : advance interpreter files state = some next) :
    Traced interpreter files entry config next := by
  have hmem {frame : Frame} {below : List Frame} (hframes : state.frames = frame :: below)
      {other : Frame} (hother : other ∈ below) : IsTraced files entry other :=
    h.frames other (hframes ▸ List.mem_cons_of_mem frame hother)
  have htop {frame : Frame} {below : List Frame} (hframes : state.frames = frame :: below) :
      IsTraced files entry frame := h.frames frame (hframes ▸ List.mem_cons_self)
  have hstepOf {frame : Frame} {below : List Frame} (hframes : state.frames = frame :: below) :
      StepOf interpreter files entry config frame state next :=
    ⟨hreaches, by rw [hframes]; rfl, (htop hframes).sourced, hadvance⟩
  cases move_of_advance hadvance with
  | @leave frame below hframes hdone =>
    exact ⟨fun other hother => hmem hframes hother, h.warnings, h.error⟩
  | @enter frame below mode lexer path text place continuation hframes herror hnext hentered =>
    obtain ⟨ended, call, hended, -, hopened⟩ := Interpreter.entered?_eq_some hentered
    obtain ⟨argument, -, rfl, -, -, hopen⟩ := Interpreter.opened?_eq_some hopened
    refine ⟨fun other hother => ?_, h.warnings, h.error⟩
    obtain rfl | hother := List.mem_cons.1 hother
    · exact isTraced_of_start (.included (htop hframes).sourced hopen) rfl
    · obtain rfl | hother := List.mem_cons.1 hother
      · exact (htop hframes).of_ended hnext hended
      · exact hmem hframes hother
  | @goOn frame below mode lexer continuation session hframes herror hnext hentered hstep =>
    have hoccurs := (htop hframes).occurs mode lexer hnext
    refine ⟨fun other hother => ?_, fun warning hwarning => ?_, h.error⟩
    · obtain rfl | hother := List.mem_cons.1 hother
      · refine ⟨(htop hframes).sourced, fun next after hafter => ?_⟩
        change continuation = some (next, after) at hafter
        rw [hafter] at hstep
        exact hoccurs.step hstep
      · exact hmem hframes hother
    · obtain hsame | ⟨found, rfl, hfound, hunset, rfl⟩ :=
        Interpreter.warnings_of_step hentered hstep
      · exact h.warnings warning (hsame ▸ hwarning)
      · obtain hold | hnew := List.mem_append.1 hwarning
        · exact h.warnings warning hold
        · obtain rfl := List.mem_singleton.1 hnew
          exact warningLocated_of_reference (htop hframes) hnext hfound hunset (hstepOf hframes) rfl
  | @fail frame below mode lexer error session hframes herror hnext hentered hstep =>
    obtain ⟨hwarnings, hcases⟩ := Interpreter.error_of_step hentered hstep
    refine ⟨h.frames, fun warning hwarning => ?_, fun found hfound => ?_⟩
    · exact h.warnings warning (hwarnings ▸ hwarning)
    · obtain rfl := Option.some.inj hfound
      have harises : ArisesIn interpreter files entry config error frame mode lexer :=
        ⟨hnext, state, _, hstepOf hframes, herror, rfl⟩
      obtain ⟨failure, hfails, rfl⟩ | ⟨ended, continuation, call, hended, hcall, hfails⟩ := hcases
      · exact errorLocated_of_fails (htop hframes) hfails rfl harises
      · exact errorLocated_of_called (htop hframes) hended hcall hfails harises

theorem traced_of_reaches (h : Reaches interpreter files (start files config entry) state) :
    Traced interpreter files entry config state := by
  induction h with
  | refl => exact traced_start
  | tail hreaches hnext ih => exact traced_of_advance ih hreaches hnext

end

/-! ## Whole evaluations -/

section
variable (interpreter : Interpreter) (files : FileTree) (entry : Entry) (config : Config)

/-- The locations in the answer of a whole evaluation. -/
structure LocationsAccurate : Prop where
  warnings : ∀ warnings after, interpreter.answer files entry config = (.ok warnings, after) →
    ∀ warning ∈ warnings, WarningLocated interpreter files entry config warning
  error : ∀ error after, interpreter.answer files entry config = (.error error, after) →
    ErrorLocated interpreter files entry config error
  /-- The error of a text's evaluation has a location. -/
  located : ∀ source text error after, entry = .text source text →
    interpreter.answer files entry config = (.error error, after) → error.location?.isSome

theorem locationsAccurate : LocationsAccurate interpreter files entry config := by
  obtain ⟨last, hreaches, -, -, hanswer⟩ := reaches_answer interpreter files entry config
  have htraced := traced_of_reaches hreaches
  have herror (error : Error) (after : Config)
      (h : interpreter.answer files entry config = (.error error, after)) :
      ErrorLocated interpreter files entry config error :=
    htraced.error error (error_of_answer (hanswer.trans h))
  refine ⟨fun warnings after h => ?_, herror, fun source text error after hentry h => ?_⟩
  · rw [← warnings_of_answer (hanswer.trans h)]
    exact htraced.warnings
  · have hlocated := herror error after h
    cases error with
    | lexical | directive => rfl
    | file path location fault =>
      cases location with
      | some location => rfl
      | none =>
        rw [hentry] at hlocated
        cases hlocated.1

end

end Evaluator
end ShellConfig
