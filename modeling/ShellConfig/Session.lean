import ShellConfig.Config.Basic
import ShellConfig.Error

/-!
What an evaluation works on and what it answers. The configuration and the warnings are kept also
when the evaluation fails, so that what was done before stays done.
-/

set_option autoImplicit false

namespace ShellConfig

/-- A configuration that is being filled, and the warnings so far. -/
structure Session where
  /-- The configuration. -/
  config : Config
  /-- The warnings in the order in which they arose. -/
  warnings : List Warning
deriving DecidableEq

/-- A change of a session that gives a value or ends in an error. -/
abbrev Evaluation (α : Type) : Type := Session → Except Error α × Session

/-- The evaluation with another value. -/
def Evaluation.map {α β : Type} (f : α → β) (evaluation : Evaluation α) : Evaluation β :=
  fun session =>
    match evaluation session with
    | (result, after) => (result.map f, after)

theorem Evaluation.map_eq_ok {α β : Type} {f : α → β} {evaluation : Evaluation α}
    {session after : Session} {value : β}
    (h : Evaluation.map f evaluation session = (.ok value, after)) :
    ∃ found, evaluation session = (.ok found, after) ∧ f found = value := by
  unfold Evaluation.map at h
  cases he : evaluation session with
  | mk result last =>
    rw [he] at h
    cases result with
    | error error => simp [Except.map] at h
    | ok found =>
      simp only [Except.map, Prod.mk.injEq, Except.ok.injEq] at h
      exact ⟨found, by rw [h.2], h.1⟩

namespace Session

/-- A session that begins with a configuration. -/
def ofConfig (config : Config) : Session := ⟨config, []⟩

/-- Adds a warning. -/
def warn (session : Session) (warning : Warning) : Session :=
  { session with warnings := session.warnings ++ [warning] }

end Session

/-- What is done about a reference to a variable that is not set. -/
inductive UndefinedPolicy where
  /-- Warn, and put nothing in its place. -/
  | warn
  /-- Give up. -/
  | refuse
deriving DecidableEq

end ShellConfig
