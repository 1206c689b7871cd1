import ShellConfig.Proofs.Interpreter.Opening
import ShellConfig.Proofs.Lexer.Coupling

/-!
Two interpreters side by side, on stacks of open files that differ. As long as they refuse the same
files (`Coupling.Joins`), the evaluations of a text follow each other (`Coupling.Joins.scope`), and so
do those of all the files that it includes (`Coupling.Joins.included`).
-/

set_option autoImplicit false

namespace ShellConfig

/-! ## Files that are refused -/

namespace Interpreter
variable (interpreter : Interpreter) (files : FileTree) (active : List Identity) (path : String)

/-- Why a file may not be included while some files are open, if there is a reason. -/
def refused? : Option DirectiveFault :=
  if interpreter.maxIncludeDepth ≤ active.length then
    some (.includeDepthExceeded interpreter.maxIncludeDepth)
  else if isActive files active path then some (.includeCycle path)
  else none

theorem includeFile_eq (nested : TextEvaluation) (location : Location) (session : Session) :
    interpreter.includeFile files nested active path location session =
      match interpreter.refused? files active path with
      | some fault => (.error (.directive fault location), session)
      | none => openFile files nested active path (some location) session := by
  unfold includeFile refused?
  split
  · rfl
  · split <;> rfl

theorem refused?_eq_none_iff : interpreter.refused? files active path = none ↔
    active.length < interpreter.maxIncludeDepth ∧ isActive files active path = false := by
  unfold refused?
  split
  · next hdepth => simp [Nat.not_lt.2 hdepth]
  · next hdepth =>
    split
    · next hactive => simp [hactive]
    · next hactive => simp [Nat.not_le.1 hdepth, hactive]

end Interpreter

/-! ## Evaluations that follow each other -/

namespace Coupling

/-- The evaluations of a text follow each other where the stacks of open files belong together. -/
def Nests (coupling : Coupling) (stacked : List Identity → List Identity → Prop)
    (left right : TextEvaluation) : Prop :=
  ∀ active opened source text s t, stacked active opened → coupling.sessions s t →
    coupling.Follows (fun _ _ => True) (left active source text s) (right opened source text t)

/-- On stacks that belong together the left interpreter refuses a file for a reason that is excused,
or both do so with errors that belong together, or both open it. -/
structure Joins (coupling : Coupling) (files : FileTree)
    (stacked : List Identity → List Identity → Prop) (here there : Interpreter) : Prop where
  undefined : here.undefined = there.undefined
  directives : here.directives = there.directives
  push : ∀ {active opened : List Identity} (identity : Identity), stacked active opened →
    stacked (active ++ [identity]) (opened ++ [identity])
  refused : ∀ {active opened : List Identity} {path : String} {fault : DirectiveFault}
    {left right : Location}, stacked active opened → coupling.places left right →
      here.refused? files active path = some fault →
        coupling.excused (.directive fault left) ∨
          ∃ other, there.refused? files opened path = some other ∧
            coupling.errors (.directive fault left) (.directive other right)
  accepted : ∀ {active opened : List Identity} {path : String}, stacked active opened →
    here.refused? files active path = none → there.refused? files opened path = none

/-- An interpreter joins itself on equal stacks, if one fault at places that belong together gives
errors that do. -/
theorem joins_self (coupling : Coupling)
    (h : ∀ fault {here there : Location}, coupling.places here there →
      coupling.errors (.directive fault here) (.directive fault there))
    (interpreter : Interpreter) (files : FileTree) :
    coupling.Joins files Eq interpreter interpreter where
  undefined := rfl
  directives := rfl
  push identity hstacks := congrArg (· ++ [identity]) hstacks
  refused := by
    rintro active _ path fault left right rfl hplaces hrefused
    exact .inr ⟨fault, hrefused, h fault hplaces⟩
  accepted := by
    rintro active _ path rfl hrefused
    exact hrefused

section
variable {coupling : Coupling} {files : FileTree} {stacked : List Identity → List Identity → Prop}
  {here there : Interpreter} (h : coupling.Joins files stacked here there)
include h

section
variable {nested other : TextEvaluation} (hnested : coupling.Nests stacked nested other)
  {active opened : List Identity} (hstacks : stacked active opened)
include hnested hstacks

theorem Joins.includeFile (path : String) {left right : Location} {s t : Session}
    (hplaces : coupling.places left right) (hs : coupling.sessions s t) :
    coupling.Follows (fun _ _ => True) (here.includeFile files nested active path left s)
      (there.includeFile files other opened path right t) := by
  rw [Interpreter.includeFile_eq, Interpreter.includeFile_eq]
  cases hrefused : here.refused? files active path with
  | some fault =>
    obtain hexcused | ⟨reason, hreason, herrors⟩ := h.refused hstacks hplaces hrefused
    · exact .inl ⟨_, rfl, hexcused⟩
    · rw [hreason]
      exact .inr ⟨herrors, hs⟩
  | none =>
    simp only [h.accepted hstacks hrefused, Interpreter.openFile]
    cases files.openText path with
    | error fault => exact .inr ⟨coupling.file path fault hplaces, hs⟩
    | ok found => exact hnested _ _ path found.2 s t (h.push found.1 hstacks) hs

theorem Joins.perform {source origin : String}
    (hresolve : ∀ argument, Path.resolve source argument = Path.resolve origin argument)
    (call : DirectiveCall) {left right : Location} {s t : Session}
    (hplaces : coupling.places left right) (hs : coupling.sessions s t) :
    coupling.Follows (fun _ _ => True) (here.perform files nested active source call left s)
      (there.perform files other opened origin call right t) := by
  unfold Interpreter.perform
  split
  · split
    · rw [hresolve]
      exact h.includeFile hnested hstacks _ hplaces hs
    · exact .inr ⟨coupling.directive _ nofun hplaces, hs⟩
  · rw [h.directives]
    cases there.directives.find? call.name with
    | none => exact .inr ⟨coupling.directive _ nofun hplaces, hs⟩
    | some handler =>
      simp only [coupling.config_eq hs]
      rcases handler t.config call.name call.arguments with ⟨config, _ | cause⟩
      · exact .inr ⟨trivial, coupling.update config hs⟩
      · exact .inr ⟨coupling.directive _ nofun hplaces, coupling.update config hs⟩

/-- A text under two names that mean the same directory is evaluated likewise, if the places in it
belong together. -/
theorem Joins.scope {source origin : String}
    (hresolve : ∀ argument, Path.resolve source argument = Path.resolve origin argument)
    (hplaces : ∀ text offset, coupling.places (Location.ofOffset source text offset)
      (Location.ofOffset origin text offset)) :
    coupling.Surrounds (here.scope files nested active source)
      (there.scope files other opened origin) where
  undefined := h.undefined
  places := hplaces
  perform call _ _ _ _ hplaces hs := h.perform hnested hstacks hresolve call hplaces hs

end

theorem Joins.included (number : Nat) :
    coupling.Nests stacked (here.included files number) (there.included files number) := by
  induction number with
  | zero => exact fun _ _ _ _ _ _ _ hs => .inr ⟨trivial, hs⟩
  | succ number ih =>
    intro active opened source text s t hstacks hs
    rw [Interpreter.included, Interpreter.included, Interpreter.evaluate_eq,
      Interpreter.evaluate_eq]
    exact follows_evaluate (h.scope ih hstacks (fun _ => rfl) fun _ _ => coupling.places_refl _) hs
      text

end

end Coupling

end ShellConfig
