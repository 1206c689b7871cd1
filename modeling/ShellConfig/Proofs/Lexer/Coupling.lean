import ShellConfig.Proofs.Correspondence
import ShellConfig.Proofs.Lexer.Ends

/-!
One text in two scopes. The scans of a text into equal configurations go through the same states, so
two evaluations of it can differ only in what surrounds them: in the places that they report and in
how directives are carried out. A coupling says how far they may differ; main statement:
`Coupling.follows_evaluate`.
-/

set_option autoImplicit false

namespace ShellConfig
open Correspondence

/-- A correspondence between evaluations of the same texts. Their configurations are equal; errors
of the left one that are excused are followed by nothing. -/
structure Coupling extends Correspondence where
  /-- Which places of the two evaluations belong together. -/
  places : Location → Location → Prop
  /-- The errors of the left evaluation after which nothing is asked of the right one. -/
  excused : Error → Prop
  places_refl : ∀ location, places location location
  config_eq : ∀ {s t : Session}, sessions s t → s.config = t.config
  update : ∀ {s t : Session} (config : Config), sessions s t →
    sessions { s with config } { t with config }
  warn : ∀ {s t : Session} {here there : Location} (name : String), sessions s t →
    places here there → sessions (s.warn ⟨name, here⟩) (t.warn ⟨name, there⟩)
  lexical : ∀ {here there : Location} (fault : LexFault), places here there →
    errors (.lexical fault here) (.lexical fault there)
  /-- The limit of an interpreter is told in one fault only. -/
  directive : ∀ {here there : Location} (fault : DirectiveFault),
    (∀ limit, fault ≠ .includeDepthExceeded limit) → places here there →
      errors (.directive fault here) (.directive fault there)
  file : ∀ {here there : Location} (path : String) (fault : FileFault), places here there →
    errors (.file path (some here) fault) (.file path (some there) fault)

namespace Coupling

/-- The right evaluation does as the left one, unless that is excused. -/
def Follows {α β : Type} (coupling : Coupling) (values : α → β → Prop) :
    Outcome α → Outcome β → Prop :=
  coupling.toCorrespondence.RelatesUnless coupling.excused values

theorem Follows.exists_ok {α β : Type} {coupling : Coupling} {values : α → β → Prop} {value : α}
    {s : Session} {right : Outcome β} (h : coupling.Follows values (.ok value, s) right) :
    ∃ other t, right = (.ok other, t) ∧ values value other ∧ coupling.sessions s t := by
  obtain ⟨error, herror, -⟩ | hrelates := h
  · cases herror
  · rcases right with ⟨error | other, t⟩
    · exact hrelates.elim
    · exact ⟨other, t, rfl, hrelates⟩

/-- A text at a place of the left scope is at such a place in the right one, and a directive of it
is carried out likewise. -/
structure Surrounds (coupling : Coupling) (here there : Scope) : Prop where
  undefined : here.undefined = there.undefined
  places : ∀ text offset, coupling.places (Location.ofOffset here.source text offset)
    (Location.ofOffset there.source text offset)
  perform : ∀ call left right s t, coupling.places left right → coupling.sessions s t →
    coupling.Follows (fun _ _ => True) (here.perform call left s) (there.perform call right t)

section
variable {coupling : Coupling} {here there : Scope} (h : coupling.Surrounds here there)
  {lexer : Lexer} {mode : Mode} {s t : Session} (hs : coupling.sessions s t)
include h

theorem Surrounds.errors (cursor : Cursor) (failure : LexFailure) :
    coupling.errors (here.lexError cursor failure) (there.lexError cursor failure) :=
  coupling.lexical failure.fault (h.places cursor.text failure.offset)

include hs

theorem Surrounds.readReference :
    coupling.Relates Eq (lexer.readReference here s) (lexer.readReference there t) := by
  rw [Lexer.readReference_eq, Lexer.readReference_eq, coupling.config_eq hs]
  cases Token.reference lexer.cursor.rest with
  | none => exact ⟨h.errors _ _, hs⟩
  | some found =>
    simp only
    cases t.config.expand found.value lexer.inQuotes with
    | joined text => exact ⟨rfl, hs⟩
    | words values => exact ⟨rfl, hs⟩
    | undefined =>
      have hplaces := h.places lexer.cursor.text lexer.cursor.start
      have hunset : coupling.RelatesUnits
          (here.undefinedVariable found.value.name (lexer.locate here lexer.cursor.start) s)
          (there.undefinedVariable found.value.name (lexer.locate there lexer.cursor.start) t) := by
        unfold Scope.undefinedVariable
        rw [h.undefined]
        cases there.undefined with
        | warn => exact ⟨trivial, coupling.warn _ hs hplaces⟩
        | refuse => exact ⟨coupling.lexical _ hplaces, hs⟩
      exact hunset.map fun _ _ _ => rfl

/-- A step in one scope is followed by the same one in the other. Only where a line ends with a
directive can they come apart. -/
theorem Surrounds.step :
    coupling.Follows (Continues fun _ => Eq) (Lexer.step here mode lexer s)
      (Lexer.step there mode lexer t) := by
  cases hended : lexer.ended? mode with
  | some found =>
    obtain ⟨ended, continuation⟩ := found
    cases hcall : ended.called? with
    | none =>
      rw [Lexer.step_of_applied hended hcall, Lexer.step_of_applied hended hcall,
        coupling.config_eq hs]
      exact .inr ⟨continues_rfl _, coupling.update _ hs⟩
    | some call =>
      rw [Lexer.step_of_called hended hcall, Lexer.step_of_called hended hcall]
      have hplaces := h.places ended.cursor.text ended.lineOffset
      have hperform := h.perform call _ _ s t hplaces hs
      exact RelatesUnless.map hperform fun _ _ _ => continues_rfl _
  | none =>
    right
    by_cases hmode : mode = .reference
    · subst hmode
      exact (h.readReference hs).map fun _ _ hnext => ⟨rfl, hnext⟩
    · obtain ⟨result, hstep⟩ := Lexer.step_of_text hended hmode
      rw [hstep, hstep]
      cases result with
      | ok continuation => exact ⟨continues_rfl _, hs⟩
      | error failure => exact ⟨h.errors _ _, hs⟩

/-- The evaluation of a text in one scope is followed by that in the other. -/
theorem follows_evaluate (text : String) :
    coupling.Follows (fun _ _ => True) (here.evaluate text s) (there.evaluate text t) := by
  have hstep : ∀ mode left right s t, left = right → coupling.sessions s t →
      coupling.Follows (Continues fun _ => Eq) (Lexer.step here mode left s)
        (Lexer.step there mode right t) := by
    rintro mode lexer _ s t rfl hs
    exact h.step hs
  exact @run_relatesUnless _ _ _ _ (fun _ => Eq) hstep _ _ _ _ _ rfl hs

end

end Coupling

end ShellConfig
