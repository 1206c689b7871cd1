import ShellConfig.Proofs.Interpreter.Composition
import ShellConfig.Proofs.Lexer.Ends

/-!
Files that directives open. A directive opens a file (`Interpreter.opened?`), which is then
evaluated in its stead (`perform_of_opened`), or has nothing to do with how files are evaluated, and
then warns of nothing and fails at its own place (`exists_outcome_of_not_opened`).
-/

set_option autoImplicit false

namespace ShellConfig

namespace FileTree

theorem openText_eq_ok_iff {files : FileTree} {path text : String} {identity : Identity} :
    files.openText path = .ok (identity, text) ↔ identity = files.identity path ∧
      ∃ place, files.locate path = .ok place ∧ files.textAt place = .ok text := by
  unfold openText
  cases files.locate path with
  | error fault => simp
  | ok place =>
    cases htext : files.textAt place with
    | error fault => simp [htext]
    | ok found => simp [htext, eq_comm]

theorem identity_of_openText {files : FileTree} {path text : String} {identity : Identity}
    (h : files.openText path = .ok (identity, text)) : files.identity path = identity :=
  (openText_eq_ok_iff.1 h).1.symm

end FileTree

/-! ## Directives that open files -/

namespace Interpreter
variable (interpreter : Interpreter) (files : FileTree)

theorem isActive_iff {files : FileTree} {active : List Identity} {path : String} :
    isActive files active path = true ↔ files.identity path ∈ active := decide_eq_true_iff

theorem isActive_eq_false_iff {files : FileTree} {active : List Identity} {path : String} :
    isActive files active path = false ↔ files.identity path ∉ active := decide_eq_false_iff_not

/-- The file that a directive opens while some files are open: its path, by what it is known, and
its text. -/
def opened? (active : List Identity) (source : String) (call : DirectiveCall) :
    Option (String × Identity × String) :=
  match call.arguments with
  | [argument] =>
    if call.name = DirectiveCall.includeName ∧ active.length < interpreter.maxIncludeDepth ∧
        isActive files active (Path.resolve source argument) = false then
      match files.openText (Path.resolve source argument) with
      | .ok (identity, text) => some (Path.resolve source argument, identity, text)
      | .error _ => none
    else none
  | _ => none

/-- The file that is opened where a line ends in this mode, and how the scan goes on after it. -/
def entered? (active : List Identity) (source : String) (mode : Mode) (lexer : Lexer) :
    Option ((String × Identity × String) × Continuation) :=
  (lexer.ended? mode).bind fun found =>
    found.1.called?.bind fun call =>
      (interpreter.opened? files active source call).map fun file => (file, found.2)

section
variable {interpreter files} {active : List Identity} {source path text : String}
  {identity : Identity} {call : DirectiveCall} {mode : Mode} {lexer : Lexer}
  {continuation : Continuation}

theorem opened?_eq_some
    (h : interpreter.opened? files active source call = some (path, identity, text)) :
    ∃ argument, call = ⟨DirectiveCall.includeName, [argument]⟩ ∧
      path = Path.resolve source argument ∧ active.length < interpreter.maxIncludeDepth ∧
      isActive files active path = false ∧ files.openText path = .ok (identity, text) := by
  unfold opened? at h
  split at h
  · next argument harguments =>
    split at h
    · next hopens =>
      split at h
      · next found contents hopen =>
        obtain ⟨rfl, hfile⟩ := Prod.mk.inj (Option.some.inj h)
        obtain ⟨rfl, rfl⟩ := Prod.mk.inj hfile
        obtain ⟨hname, hdepth, hactive⟩ := hopens
        refine ⟨argument, ?_, rfl, hdepth, hactive, hopen⟩
        rw [← hname, ← harguments]
      · cases h
    · cases h
  · cases h

theorem opened?_include (active : List Identity) (source argument : String) :
    interpreter.opened? files active source ⟨DirectiveCall.includeName, [argument]⟩ =
      if active.length < interpreter.maxIncludeDepth ∧
          isActive files active (Path.resolve source argument) = false then
        match files.openText (Path.resolve source argument) with
        | .ok (identity, text) => some (Path.resolve source argument, identity, text)
        | .error _ => none
      else none := by
  simp only [opened?, true_and]

theorem perform_include (nested : TextEvaluation) (active : List Identity)
    (source argument : String) :
    interpreter.perform files nested active source ⟨DirectiveCall.includeName, [argument]⟩ =
      interpreter.includeFile files nested active (Path.resolve source argument) := by
  funext location session
  rw [perform, if_pos rfl]

theorem perform_of_opened
    (h : interpreter.opened? files active source call = some (path, identity, text))
    (nested : TextEvaluation) (location : Location) (session : Session) :
    interpreter.perform files nested active source call location session =
      nested (active ++ [identity]) path text session := by
  obtain ⟨argument, rfl, rfl, hdepth, hactive, hopen⟩ := opened?_eq_some h
  unfold perform includeFile openFile
  simp only [if_true, if_neg (Nat.not_le.2 hdepth), hactive, hopen]
  rfl

/-- The error of a directive, which belongs to the place of its line. -/
def FailsAt (location : Location) (error : Error) : Prop :=
  (∃ fault, error = .directive fault location) ∨
    ∃ path fault, error = .file path (some location) fault

/-- A directive that opens no file does the same however files are evaluated. It warns of nothing,
and its error belongs to its place. -/
theorem exists_outcome_of_not_opened (h : interpreter.opened? files active source call = none)
    (location : Location) (session : Session) :
    ∃ outcome : Outcome Unit, outcome.2.warnings = session.warnings ∧
      (∀ error, outcome.1 = .error error → FailsAt location error) ∧
      ∀ nested, interpreter.perform files nested active source call location session = outcome := by
  have hfault {fault : DirectiveFault} {error : Error}
      (h : (.error (.directive fault location) : Except Error Unit) = .error error) :
      FailsAt location error := .inl ⟨fault, (Except.error.inj h).symm⟩
  unfold perform
  split
  · next hname =>
    split
    · next argument harguments =>
      have hcall : call = ⟨DirectiveCall.includeName, [argument]⟩ := by rw [← hname, ← harguments]
      unfold includeFile
      split
      · exact ⟨_, rfl, fun _ h => hfault h, fun _ => rfl⟩
      · next hdepth =>
        split
        · exact ⟨_, rfl, fun _ h => hfault h, fun _ => rfl⟩
        · next hactive =>
          -- Nothing but the file itself is left that can keep it from being opened.
          rw [hcall, opened?_include, if_pos ⟨Nat.not_le.1 hdepth, by simpa using hactive⟩] at h
          unfold openFile
          cases hopen : files.openText (Path.resolve source argument) with
          | error fault =>
            exact ⟨_, rfl, fun _ h => .inr ⟨_, fault, (Except.error.inj h).symm⟩, fun _ => rfl⟩
          | ok found => rw [hopen] at h; cases h
    · exact ⟨_, rfl, fun _ h => hfault h, fun _ => rfl⟩
  · split
    · exact ⟨_, rfl, fun _ h => hfault h, fun _ => rfl⟩
    · split
      · exact ⟨_, rfl, fun _ h => (by cases h), fun _ => rfl⟩
      · exact ⟨_, rfl, fun _ h => hfault h, fun _ => rfl⟩

theorem perform_of_not_opened (h : interpreter.opened? files active source call = none)
    (nested other : TextEvaluation) (location : Location) (session : Session) :
    interpreter.perform files nested active source call location session =
      interpreter.perform files other active source call location session := by
  obtain ⟨outcome, -, -, houtcome⟩ := exists_outcome_of_not_opened h location session
  rw [houtcome nested, houtcome other]

theorem perform_of_not_opened_cases
    (h : interpreter.opened? files active source call = none) (nested : TextEvaluation)
    (location : Location) (session : Session) :
    (interpreter.perform files nested active source call location session).2.warnings =
        session.warnings ∧
      ∀ error, (interpreter.perform files nested active source call location session).1 =
        .error error → FailsAt location error := by
  obtain ⟨outcome, hwarnings, herror, houtcome⟩ := exists_outcome_of_not_opened h location session
  rw [houtcome nested]
  exact ⟨hwarnings, herror⟩

theorem entered?_eq_some
    (h : interpreter.entered? files active source mode lexer =
      some ((path, identity, text), continuation)) :
    ∃ ended call, lexer.ended? mode = some (ended, continuation) ∧ ended.called? = some call ∧
      interpreter.opened? files active source call = some (path, identity, text) := by
  obtain ⟨⟨ended, found⟩, hended, h⟩ := Option.bind_eq_some_iff.1 h
  obtain ⟨call, hcall, h⟩ := Option.bind_eq_some_iff.1 h
  obtain ⟨file, hfile, h⟩ := Option.map_eq_some_iff.1 h
  obtain ⟨rfl, rfl⟩ := Prod.mk.inj h
  exact ⟨ended, call, hended, hcall, hfile⟩

theorem step_of_entered
    (h : interpreter.entered? files active source mode lexer =
      some ((path, identity, text), continuation))
    (nested : TextEvaluation) (session : Session) :
    Lexer.step (interpreter.scope files nested active source) mode lexer session =
      Evaluation.map (fun _ => continuation) (nested (active ++ [identity]) path text) session := by
  obtain ⟨ended, call, hended, hcall, hopened⟩ := entered?_eq_some h
  rw [Lexer.step_of_called hended hcall, Evaluation.map, Evaluation.map, perform_scope,
    perform_of_opened hopened]

theorem opened?_of_not_entered {ended : Lexer}
    (hended : lexer.ended? mode = some (ended, continuation))
    (hcall : ended.called? = some call)
    (h : interpreter.entered? files active source mode lexer = none) :
    interpreter.opened? files active source call = none := by
  rw [entered?, hended, Option.bind_some, hcall, Option.bind_some, Option.map_eq_none_iff] at h
  exact h

theorem step_of_not_entered (h : interpreter.entered? files active source mode lexer = none)
    (nested other : TextEvaluation) (session : Session) :
    Lexer.step (interpreter.scope files nested active source) mode lexer session =
      Lexer.step (interpreter.scope files other active source) mode lexer session := by
  cases hended : lexer.ended? mode with
  | none =>
    exact Lexer.step_of_not_ended hended (interpreter.perform files other active source)
  | some found =>
    obtain ⟨ended, continuation⟩ := found
    cases hcall : ended.called? with
    | none => rw [Lexer.step_of_applied hended hcall, Lexer.step_of_applied hended hcall]
    | some call =>
      have hopened := opened?_of_not_entered hended hcall h
      have hplace : ended.locate (interpreter.scope files nested active source) ended.lineOffset =
          ended.locate (interpreter.scope files other active source) ended.lineOffset := rfl
      rw [Lexer.step_of_called hended hcall, Lexer.step_of_called hended hcall, Evaluation.map,
        Evaluation.map, perform_scope, perform_scope, perform_of_not_opened hopened nested other,
        hplace]

end

end Interpreter

end ShellConfig
