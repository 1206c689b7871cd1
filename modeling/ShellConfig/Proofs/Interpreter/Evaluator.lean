import ShellConfig.Proofs.Interpreter.Opening
import ShellConfig.Proofs.Lexer.Scan

/-!
Evaluation with all texts in view whose evaluation has begun and not ended. An `Evaluator` holds a
frame for each of them and the stack of the open files. It takes a step of the innermost text,
begins a file that a directive opens, or leaves a text that has ended or failed
(`Evaluator.advance`); no number bounds how deep this can go. Main statements: a text is left with
the result of the interpreter, and the stack is then as it was when the text was begun
(`Evaluator.within_run`), so every evaluation ends with the answer of the interpreter
(`Evaluator.reaches_answer`).
-/

set_option autoImplicit false

namespace ShellConfig

/-! ## The evaluator -/

/-- A text whose evaluation has begun and not ended. -/
structure Frame where
  /-- By what the file is known that holds the text, if one does. -/
  identity : Option Identity
  source : String
  text : String
  /-- How its scan goes on; not at all at the end of the text. -/
  next : Continuation

namespace Frame

/-- The text of an open file before its first step. -/
def ofFile (identity : Identity) (path text : String) : Frame :=
  ⟨some identity, path, text, some (.beginOfLine, .ofText text)⟩

/-- A text that no file holds, before its first step. -/
def ofText (source text : String) : Frame := ⟨none, source, text, some (.beginOfLine, .ofText text)⟩

end Frame

/-- The state of a whole evaluation. -/
structure Evaluator where
  /-- The stack of the open files, the innermost last. -/
  active : List Identity
  /-- The texts, the innermost first. -/
  frames : List Frame
  session : Session
  /-- The error that ends the evaluation, once there is one. -/
  error : Option Error

def errorOf {α : Type} : Except Error α → Option Error
  | .ok _ => none
  | .error error => some error

namespace Evaluator

/-- The stack of open files after a text has been left. -/
def closed (active : List Identity) : Option Identity → List Identity
  | some _ => active.dropLast
  | none => active

def leave (state : Evaluator) (frame : Frame) (below : List Frame) : Evaluator :=
  { state with active := closed state.active frame.identity, frames := below }

/-- Takes a step of the innermost text. -/
def scan (interpreter : Interpreter) (files : FileTree) (state : Evaluator) (frame : Frame)
    (below : List Frame) (mode : Mode) (lexer : Lexer) : Evaluator :=
  match interpreter.entered? files state.active frame.source mode lexer with
  | some ((path, identity, text), continuation) =>
    { state with
      active := state.active ++ [identity]
      frames := .ofFile identity path text :: { frame with next := continuation } :: below }
  | none =>
    let scope := interpreter.scope files (interpreter.included files 0) state.active frame.source
    match Lexer.step scope mode lexer state.session with
    | (.ok continuation, session) =>
      { state with frames := { frame with next := continuation } :: below, session }
    | (.error error, session) => { state with session, error := some error }

/-- One step of a whole evaluation, while there is a text. -/
def advance (interpreter : Interpreter) (files : FileTree) (state : Evaluator) : Option Evaluator :=
  match state.frames with
  | [] => none
  | frame :: below =>
    match state.error, frame.next with
    | none, some (mode, lexer) => some (state.scan interpreter files frame below mode lexer)
    | _, _ => some (state.leave frame below)

section
variable (interpreter : Interpreter) (files : FileTree)

def Reaches : Evaluator → Evaluator → Prop :=
  Relation.ReflTransGen fun state next => advance interpreter files state = some next

/-- Steps lead from the first state to the second one, and each of them begins with more texts than
so many. -/
def Within (depth : Nat) : Evaluator → Evaluator → Prop :=
  Relation.ReflTransGen fun state next =>
    depth < state.frames.length ∧ advance interpreter files state = some next

end

section
variable {interpreter : Interpreter} {files : FileTree} {state next other : Evaluator}

theorem Within.reaches {depth : Nat} (h : Within interpreter files depth state other) :
    Reaches interpreter files state other := by
  induction h with
  | refl => exact .refl
  | tail _ hnext ih => exact ih.tail hnext.2

theorem Within.mono {depth deeper : Nat} (hle : depth ≤ deeper)
    (h : Within interpreter files deeper state other) :
    Within interpreter files depth state other := by
  induction h with
  | refl => exact .refl
  | tail _ hnext ih => exact ih.tail ⟨Nat.lt_of_le_of_lt hle hnext.1, hnext.2⟩

/-- A state with no more texts than so many to which these steps lead is the only one. -/
theorem Within.unique {depth : Nat} {first second : Evaluator}
    (hfirst : Within interpreter files depth state first)
    (hsecond : Within interpreter files depth state second) (hf : first.frames.length ≤ depth)
    (hs : second.frames.length ≤ depth) : first = second := by
  induction hfirst using Relation.ReflTransGen.head_induction_on with
  | refl =>
    obtain rfl | ⟨next, hnext, -⟩ := hsecond.cases_head
    · rfl
    · exact absurd hnext.1 (Nat.not_lt.2 hf)
  | head hstep _ ih =>
    obtain rfl | ⟨next, hnext, hrest⟩ := hsecond.cases_head
    · exact absurd hstep.1 (Nat.not_lt.2 hs)
    · obtain rfl := Option.some.inj (hstep.2.symm.trans hnext.2)
      exact ih hrest

/-- Every step begins with a text. -/
theorem Reaches.within_zero (h : Reaches interpreter files state other) :
    Within interpreter files 0 state other := by
  induction h with
  | refl => exact .refl
  | tail _ hnext ih =>
    refine ih.tail ⟨List.length_pos_iff.2 ?_, hnext⟩
    intro hframes
    simp [advance, hframes] at hnext

/-! ## Texts that are left -/

variable {active : List Identity} {below : List Frame} {nested : TextEvaluation}

/-- How the files that a text includes are evaluated while these are open is what the evaluator
does: a file that is opened is left with its result. -/
def Evaluates (interpreter : Interpreter) (files : FileTree) (active : List Identity)
    (nested : TextEvaluation) : Prop :=
  ∀ (path : String) (identity : Identity) (text : String) (frames : List Frame) (session : Session),
    active.length < interpreter.maxIncludeDepth → files.openText path = .ok (identity, text) →
      Within interpreter files frames.length
        ⟨active ++ [identity], .ofFile identity path text :: frames, session, none⟩
        ⟨active, frames, (nested (active ++ [identity]) path text session).2,
          errorOf (nested (active ++ [identity]) path text session).1⟩

theorem errorOf_map {α β : Type} (f : α → β) (result : Except Error α) :
    errorOf (result.map f) = errorOf result := by cases result <;> rfl

theorem errorOf_injective : Function.Injective (@errorOf Unit) := by
  rintro (error | value) (other | value') h
  · rw [Option.some.inj h]
  · cases h
  · cases h
  · rfl

theorem scan_of_entered {frame : Frame} {mode : Mode} {lexer : Lexer} {path text : String}
    {identity : Identity} {continuation : Continuation}
    (h : interpreter.entered? files state.active frame.source mode lexer =
      some ((path, identity, text), continuation)) :
    state.scan interpreter files frame below mode lexer =
      { state with
        active := state.active ++ [identity]
        frames := .ofFile identity path text :: { frame with next := continuation } :: below } := by
  rw [scan, h]

theorem scan_of_not_entered {frame : Frame} {mode : Mode} {lexer : Lexer}
    (h : interpreter.entered? files state.active frame.source mode lexer = none)
    (nested : TextEvaluation) :
    state.scan interpreter files frame below mode lexer =
      match Lexer.step (interpreter.scope files nested state.active frame.source) mode lexer
          state.session with
      | (.ok continuation, session) =>
        { state with frames := { frame with next := continuation } :: below, session }
      | (.error error, session) => { state with session, error := some error } := by
  rw [scan, h, Interpreter.step_of_not_entered h nested (interpreter.included files 0)]

theorem advance_of_next {frame : Frame} {mode : Mode} {lexer : Lexer}
    (hframes : state.frames = frame :: below) (herror : state.error = none)
    (hnext : frame.next = some (mode, lexer)) :
    advance interpreter files state =
      some (state.scan interpreter files frame below mode lexer) := by
  simp only [advance, hframes, herror, hnext]

theorem advance_of_done {frame : Frame} (hframes : state.frames = frame :: below)
    (hdone : state.error ≠ none ∨ frame.next = none) :
    advance interpreter files state = some (state.leave frame below) := by
  simp only [advance, hframes]
  split
  · next herror hnext => simp_all
  · rfl

/-- The ways in which an evaluation goes on. -/
inductive Move (interpreter : Interpreter) (files : FileTree) (state : Evaluator) :
    Evaluator → Prop
  /-- The innermost text has ended, or there is an error. -/
  | leave {frame : Frame} {below : List Frame} (hframes : state.frames = frame :: below)
    (hdone : state.error ≠ none ∨ frame.next = none) :
    Move interpreter files state (state.leave frame below)
  /-- A directive opens a file. -/
  | enter {frame : Frame} {below : List Frame} {mode : Mode} {lexer : Lexer} {path text : String}
    {identity : Identity} {continuation : Continuation} (hframes : state.frames = frame :: below)
    (herror : state.error = none) (hnext : frame.next = some (mode, lexer))
    (hentered : interpreter.entered? files state.active frame.source mode lexer =
      some ((path, identity, text), continuation)) :
    Move interpreter files state { state with
      active := state.active ++ [identity]
      frames := .ofFile identity path text :: { frame with next := continuation } :: below }
  /-- The scan of the innermost text goes on. -/
  | goOn {frame : Frame} {below : List Frame} {mode : Mode} {lexer : Lexer}
    {continuation : Continuation} {session : Session} (hframes : state.frames = frame :: below)
    (herror : state.error = none) (hnext : frame.next = some (mode, lexer))
    (hentered : interpreter.entered? files state.active frame.source mode lexer = none)
    (hstep : Lexer.step
      (interpreter.scope files (interpreter.included files 0) state.active frame.source) mode lexer
      state.session = (.ok continuation, session)) :
    Move interpreter files state
      { state with frames := { frame with next := continuation } :: below, session }
  /-- The scan of the innermost text fails. -/
  | fail {frame : Frame} {below : List Frame} {mode : Mode} {lexer : Lexer} {error : Error}
    {session : Session} (hframes : state.frames = frame :: below)
    (herror : state.error = none) (hnext : frame.next = some (mode, lexer))
    (hentered : interpreter.entered? files state.active frame.source mode lexer = none)
    (hstep : Lexer.step
      (interpreter.scope files (interpreter.included files 0) state.active frame.source) mode lexer
      state.session = (.error error, session)) :
    Move interpreter files state { state with session, error := some error }

theorem move_of_advance (h : advance interpreter files state = some next) :
    Move interpreter files state next := by
  unfold advance at h
  split at h
  · cases h
  · next frame below hframes =>
    split at h
    · next mode lexer herror hnext =>
      obtain rfl := Option.some.inj h
      cases hentered : interpreter.entered? files state.active frame.source mode lexer with
      | some found =>
        obtain ⟨⟨path, identity, text⟩, continuation⟩ := found
        rw [scan_of_entered hentered]
        exact .enter hframes herror hnext hentered
      | none =>
        rw [scan_of_not_entered hentered (interpreter.included files 0)]
        split
        · next hstep => exact .goOn hframes herror hnext hentered hstep
        · next hstep => exact .fail hframes herror hnext hentered hstep
    · next hdone =>
      obtain rfl := Option.some.inj h
      refine .leave hframes ?_
      cases herror : state.error with
      | some error => exact .inl (by simp)
      | none =>
        cases hnext : frame.next with
        | none => exact .inr rfl
        | some found => exact (hdone found.1 found.2 herror hnext).elim

/-- The evaluator takes the steps of the interpreter's scan, which can include whole files. -/
theorem within_step (hnested : Evaluates interpreter files active nested) {frame : Frame}
    {scope : Scope} (hscope : interpreter.scope files nested active frame.source = scope)
    (below : List Frame) {mode : Mode} {lexer : Lexer} (hnext : frame.next = some (mode, lexer))
    (session : Session) :
    ∃ next, Within interpreter files below.length ⟨active, frame :: below, session, none⟩
        ⟨active, { frame with next } :: below, (Lexer.step scope mode lexer session).2,
          errorOf (Lexer.step scope mode lexer session).1⟩ ∧
      ∀ continuation, (Lexer.step scope mode lexer session).1 = .ok continuation →
        next = continuation := by
  have hfirst : advance interpreter files ⟨active, frame :: below, session, none⟩ = some
      (scan interpreter files ⟨active, frame :: below, session, none⟩ frame below mode lexer) :=
    advance_of_next rfl rfl hnext
  have hdepth : below.length < (frame :: below).length := Nat.lt_succ_self _
  cases hentered : interpreter.entered? files active frame.source mode lexer with
  | none =>
    rw [scan_of_not_entered hentered nested, hscope] at hfirst
    rcases hstep : Lexer.step scope mode lexer session with ⟨error | continuation, last⟩
    · have hsame : { frame with next := some (mode, lexer) } = frame := by rw [← hnext]
      simp only [hstep] at hfirst
      refine ⟨some (mode, lexer), ?_, fun _ h => nomatch h⟩
      rw [hsame]
      exact .single ⟨hdepth, hfirst⟩
    · simp only [hstep] at hfirst
      exact ⟨continuation, .single ⟨hdepth, hfirst⟩, fun _ h => Except.ok.inj h⟩
  | some found =>
    obtain ⟨⟨path, file, contents⟩, continuation⟩ := found
    obtain ⟨ended, call, -, -, hopened⟩ := Interpreter.entered?_eq_some hentered
    obtain ⟨argument, -, -, hlimit, -, hopen⟩ := Interpreter.opened?_eq_some hopened
    -- The one step of the scan is all the steps of the file that it includes.
    rw [scan_of_entered hentered] at hfirst
    rw [← hscope, Interpreter.step_of_entered hentered nested session, Evaluation.map]
    have hcall := hnested path file contents ({ frame with next := continuation } :: below) session
      hlimit hopen
    rcases hresult : nested (active ++ [file]) path contents session with ⟨result, last⟩
    rw [hresult] at hcall
    refine ⟨continuation, ?_, ?_⟩
    · rw [errorOf_map]
      exact .head ⟨hdepth, hfirst⟩ (hcall.mono (Nat.le_succ _))
    · intro found hfound
      cases result with
      | error error => cases hfound
      | ok value => exact Except.ok.inj hfound

/-- A text is left with the result of its scan, and its own file off the stack. -/
theorem within_run (hnested : Evaluates interpreter files active nested) (frame : Frame)
    {scope : Scope} (hscope : interpreter.scope files nested active frame.source = scope)
    (below : List Frame) {mode : Mode} {lexer : Lexer} (hnext : frame.next = some (mode, lexer))
    (session : Session) :
    Within interpreter files below.length ⟨active, frame :: below, session, none⟩
      ⟨closed active frame.identity, below, (Lexer.run scope mode lexer session).2,
        errorOf (Lexer.run scope mode lexer session).1⟩ := by
  have hdepth (frame : Frame) : below.length < (frame :: below).length := Nat.lt_succ_self _
  fun_induction Lexer.run scope mode lexer session generalizing frame with
  | case1 mode lexer session next after middle hstep ih =>
    obtain ⟨found, hwithin, hfound⟩ := within_step hnested hscope below hnext session
    rw [hstep] at hwithin hfound
    obtain rfl := hfound _ rfl
    -- The frame of the text goes on where this step has come to.
    exact hwithin.trans (ih _ hscope rfl)
  | case2 mode lexer session middle hstep =>
    obtain ⟨found, hwithin, hfound⟩ := within_step hnested hscope below hnext session
    rw [hstep] at hwithin hfound
    obtain rfl := hfound _ rfl
    exact hwithin.tail ⟨hdepth _, rfl⟩
  | case3 mode lexer session error middle hstep =>
    obtain ⟨found, hwithin, -⟩ := within_step hnested hscope below hnext session
    rw [hstep] at hwithin
    exact hwithin.tail ⟨hdepth _, rfl⟩

/-- The interpreter's bound for the files that can still be opened is never met: where it is used
up, the limit is reached. -/
theorem evaluates_included (interpreter : Interpreter) {number : Nat}
    (hnumber : interpreter.maxIncludeDepth ≤ number + active.length) :
    Evaluates interpreter files active (interpreter.included files number) := by
  induction number generalizing active with
  | zero =>
    intro path identity text frames session hdepth hopen
    omega
  | succ number ih =>
    intro path identity text frames session hdepth hopen
    have hfewer : interpreter.maxIncludeDepth ≤ number + (active ++ [identity]).length := by
      rw [List.length_append, List.length_singleton]
      omega
    have hnested := ih hfewer
    have hrun := within_run hnested (.ofFile identity path text) rfl frames rfl session
    have hleft : closed (active ++ [identity]) (some identity) = active := List.dropLast_concat
    have hidentity : (Frame.ofFile identity path text).identity = some identity := rfl
    rw [hidentity, hleft] at hrun
    rw [Interpreter.included, Interpreter.evaluate_eq]
    exact hrun

/-- Beyond what the limit asks for, the bound makes no difference. -/
theorem evaluate_eq_of_le (interpreter : Interpreter) (files : FileTree) {number other : Nat}
    (hnumber : interpreter.maxIncludeDepth ≤ number + active.length)
    (hother : interpreter.maxIncludeDepth ≤ other + active.length) :
    interpreter.evaluate files number active = interpreter.evaluate files other active := by
  funext source text session
  have hfirst : Evaluates interpreter files active (interpreter.included files number) :=
    evaluates_included interpreter hnumber
  have hsecond : Evaluates interpreter files active (interpreter.included files other) :=
    evaluates_included interpreter hother
  have hsame := Within.unique (within_run hfirst (.ofText source text) rfl [] rfl session)
    (within_run hsecond (.ofText source text) rfl [] rfl session) (Nat.le_refl _) (Nat.le_refl _)
  obtain ⟨-, -, hsession, herror⟩ := Evaluator.mk.inj hsame
  rw [Interpreter.evaluate_eq, Interpreter.evaluate_eq]
  exact Prod.ext (errorOf_injective herror) hsession

/-- A file that is included is evaluated like any other text. -/
theorem included_eq_evaluate (interpreter : Interpreter) (files : FileTree)
    (active : List Identity) {number : Nat}
    (hnumber : interpreter.maxIncludeDepth ≤ number + active.length)
    (hdepth : active.length < interpreter.maxIncludeDepth) (identity : Identity) :
    interpreter.included files number (active ++ [identity]) =
      interpreter.evaluate files interpreter.maxIncludeDepth (active ++ [identity]) := by
  obtain ⟨fewer, rfl⟩ := Nat.exists_eq_add_of_le' (show 1 ≤ number by omega)
  refine evaluate_eq_of_le interpreter files ?_ (Nat.le_add_right _ _)
  rw [List.length_append, List.length_singleton]
  omega

theorem exists_within (interpreter : Interpreter) (files : FileTree) (active : List Identity)
    (frame : Frame) (below : List Frame) {mode : Mode} {lexer : Lexer}
    (hnext : frame.next = some (mode, lexer)) (session : Session) :
    ∃ last error, Within interpreter files below.length ⟨active, frame :: below, session, none⟩
      ⟨closed active frame.identity, below, last, error⟩ :=
  ⟨_, _, within_run (evaluates_included interpreter (Nat.le_add_right _ _)) frame rfl below hnext
    session⟩

end

end Evaluator

/-! ## Whole evaluations -/

/-- What a whole evaluation begins with. -/
inductive Entry where
  /-- A text under a name. -/
  | text (source text : String)
  /-- A file. -/
  | file (path : String)

/-- The warnings of a whole evaluation, or its error, and the configuration that it leaves. -/
def Interpreter.answer (interpreter : Interpreter) (files : FileTree) (entry : Entry)
    (config : Config) : Except Error (List Warning) × Config :=
  match entry with
  | .text source text => interpreter.evalNamed files source text config
  | .file path => interpreter.load files path config

namespace Evaluator

/-- The state in which a whole evaluation begins. -/
def start (files : FileTree) (config : Config) : Entry → Evaluator
  | .text source text => ⟨[], [.ofText source text], .ofConfig config, none⟩
  | .file path =>
    match files.openText path with
    | .ok (identity, text) => ⟨[identity], [.ofFile identity path text], .ofConfig config, none⟩
    | .error fault => ⟨[], [], .ofConfig config, some (.file path none fault)⟩

def answer (state : Evaluator) : Except Error (List Warning) × Config :=
  match state.error with
  | none => (.ok state.session.warnings, state.session.config)
  | some error => (.error error, state.session.config)

theorem error_of_answer {state : Evaluator} {error : Error} {after : Config}
    (h : state.answer = (.error error, after)) : state.error = some error := by
  unfold answer at h
  cases hstate : state.error with
  | none => rw [hstate] at h; cases (Prod.mk.inj h).1
  | some found =>
    rw [hstate] at h
    rw [Except.error.inj (Prod.mk.inj h).1]

theorem warnings_of_answer {state : Evaluator} {warnings : List Warning} {after : Config}
    (h : state.answer = (.ok warnings, after)) : state.session.warnings = warnings := by
  unfold answer at h
  cases hstate : state.error with
  | none =>
    rw [hstate] at h
    exact Except.ok.inj (Prod.mk.inj h).1
  | some found => rw [hstate] at h; cases (Prod.mk.inj h).1

theorem answer_eq_outcome (evaluation : Evaluation Unit) (config : Config) :
    answer ⟨[], [], (evaluation (.ofConfig config)).2, errorOf (evaluation (.ofConfig config)).1⟩ =
      Interpreter.outcome evaluation config := by
  unfold answer Interpreter.outcome
  rcases evaluation (.ofConfig config) with ⟨error | value, session⟩ <;> rfl

/-- Every evaluation ends, with the answer of the interpreter and no file open. -/
theorem reaches_answer (interpreter : Interpreter) (files : FileTree) (entry : Entry)
    (config : Config) :
    ∃ last, Reaches interpreter files (start files config entry) last ∧ last.frames = [] ∧
      last.active = [] ∧ last.answer = interpreter.answer files entry config := by
  have hdepth (active : List Identity) : Evaluates interpreter files active
      (interpreter.included files interpreter.maxIncludeDepth) :=
    evaluates_included interpreter (Nat.le_add_right _ _)
  cases entry with
  | text source text =>
    have hrun := within_run (hdepth []) (.ofText source text) rfl [] rfl (.ofConfig config)
    refine ⟨_, hrun.reaches, rfl, rfl, ?_⟩
    rw [Interpreter.answer, Interpreter.evalNamed, Interpreter.evaluate_eq]
    exact answer_eq_outcome _ config
  | file path =>
    rw [Interpreter.answer, Interpreter.load, start]
    cases hopen : files.openText path with
    | error fault =>
      refine ⟨_, .refl, rfl, rfl, ?_⟩
      rw [← answer_eq_outcome]
      simp only [Interpreter.openFile, hopen]
      rfl
    | ok found =>
      obtain ⟨identity, text⟩ := found
      have hrun := within_run (hdepth [identity]) (.ofFile identity path text) rfl [] rfl
        (.ofConfig config)
      refine ⟨_, hrun.reaches, rfl, rfl, ?_⟩
      rw [← answer_eq_outcome]
      simp only [Interpreter.openFile, hopen]
      rw [Interpreter.evaluate_eq]
      rfl

/-- A state in which an evaluation ends has the answer of the interpreter. -/
theorem answer_of_reaches {interpreter : Interpreter} {files : FileTree} {entry : Entry}
    {config : Config} {last : Evaluator}
    (h : Reaches interpreter files (start files config entry) last) (hframes : last.frames = []) :
    last.answer = interpreter.answer files entry config := by
  obtain ⟨found, hreaches, hended, -, hanswer⟩ := reaches_answer interpreter files entry config
  have hsame : last = found := h.within_zero.unique hreaches.within_zero (by simp [hframes])
    (by simp [hended])
  rw [hsame, hanswer]

end Evaluator
end ShellConfig
