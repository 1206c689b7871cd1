import ShellConfig.Lexer.Run

/-!
Two evaluations side by side. A correspondence says which errors and which sessions belong together;
`run_relates` carries it from the steps of two scans to their runs, as long as they take the same
steps, and `run_relatesUnless` does so where some errors of one of them are left out of view.
`apart earlier` is the correspondence that looks past positions and past the warnings that one of
the two had before; `Outcome.unplaced` is its normal form for no such warnings.
-/

set_option autoImplicit false

namespace ShellConfig

/-! ## Positions left out -/

/-- The source of a location, with the position put to the beginning. -/
def Location.unplaced (location : Location) : Location := ⟨location.source, Position.start⟩

/-- The warning without its position. -/
def Warning.unplaced (warning : Warning) : Warning := ⟨warning.name, warning.location.unplaced⟩

/-- The error without the position at which it is reported. The cause of a directive that gave up is
kept as it is. -/
def Error.unplaced : Error → Error
  | .lexical fault location => .lexical fault location.unplaced
  | .directive fault location => .directive fault location.unplaced
  | .file path location fault => .file path (location.map Location.unplaced) fault

def Session.unplaced (session : Session) : Session :=
  { session with warnings := session.warnings.map Warning.unplaced }

/-- What an evaluation gives and the session that it leaves. -/
abbrev Outcome (α : Type) : Type := Except Error α × Session

def Outcome.unplaced {α : Type} : Outcome α → Outcome α
  | (.ok value, session) => (.ok value, session.unplaced)
  | (.error error, session) => (.error error.unplaced, session.unplaced)

theorem Session.unplaced_eq_iff {left right : Session} :
    left.unplaced = right.unplaced ↔ left.config = right.config ∧
      left.warnings.map Warning.unplaced = right.warnings.map Warning.unplaced := by
  simp [Session.unplaced]

theorem Session.unplaced_warn {left right : Session} {name : String} {here there : Location}
    (hs : left.unplaced = right.unplaced) (hl : here.source = there.source) :
    (left.warn ⟨name, here⟩).unplaced = (right.warn ⟨name, there⟩).unplaced := by
  obtain ⟨hc, hw⟩ := Session.unplaced_eq_iff.1 hs
  simp [Session.unplaced, warn, Warning.unplaced, Location.unplaced, hc, hw, hl]

theorem Outcome.eq_ok_of_unplaced {α : Type} {outcome : Outcome α} {value : α} {session : Session}
    (h : Outcome.unplaced outcome = Outcome.unplaced (.ok value, session)) :
    ∃ last, outcome = (.ok value, last) ∧ last.unplaced = session.unplaced := by
  rcases outcome with ⟨error | found, last⟩ <;>
    simp only [Outcome.unplaced, Prod.mk.injEq] at h
  · cases h.1
  · exact ⟨last, by rw [Except.ok.inj h.1], h.2⟩

/-! ## Correspondences -/

/-- Which errors and which sessions of two evaluations belong together. -/
structure Correspondence where
  errors : Error → Error → Prop
  sessions : Session → Session → Prop

namespace Correspondence

/-- Both evaluations give values that belong together, or both end in such errors; and they leave
sessions that belong together. -/
def Relates {α β : Type} (corr : Correspondence) (values : α → β → Prop) :
    Outcome α → Outcome β → Prop
  | (.ok left, s), (.ok right, t) => values left right ∧ corr.sessions s t
  | (.error left, s), (.error right, t) => corr.errors left right ∧ corr.sessions s t
  | _, _ => False

/-- Nothing is asked of the values of two evaluations that give none. -/
def RelatesUnits (corr : Correspondence) : Outcome Unit → Outcome Unit → Prop :=
  corr.Relates fun _ _ => True

theorem Relates.map {α β γ δ : Type} {corr : Correspondence} {values : α → β → Prop}
    {results : γ → δ → Prop} {f : α → γ} {g : β → δ} {left : Evaluation α}
    {right : Evaluation β} {s t : Session} (h : corr.Relates values (left s) (right t))
    (hfg : ∀ a b, values a b → results (f a) (g b)) :
    corr.Relates results (Evaluation.map f left s) (Evaluation.map g right t) := by
  unfold Evaluation.map
  revert h
  rcases left s with ⟨_ | a, s'⟩ <;> rcases right t with ⟨_ | b, t'⟩ <;> intro h
  · exact h
  · exact h
  · exact h
  · exact ⟨hfg a b h.1, h.2⟩

/-- The left evaluation ends in an error of which nothing is asked, or the two belong together. -/
def RelatesUnless {α β : Type} (corr : Correspondence) (excused : Error → Prop)
    (values : α → β → Prop) (left : Outcome α) (right : Outcome β) : Prop :=
  (∃ error, left.1 = .error error ∧ excused error) ∨ corr.Relates values left right

theorem RelatesUnless.map {α β γ δ : Type} {corr : Correspondence} {excused : Error → Prop}
    {values : α → β → Prop} {results : γ → δ → Prop} {f : α → γ} {g : β → δ}
    {left : Evaluation α} {right : Evaluation β} {s t : Session}
    (h : corr.RelatesUnless excused values (left s) (right t))
    (hfg : ∀ a b, values a b → results (f a) (g b)) :
    corr.RelatesUnless excused results (Evaluation.map f left s) (Evaluation.map g right t) := by
  obtain ⟨error, herror, hexcused⟩ | h := h
  · rcases hleft : left s with ⟨result, last⟩
    rw [hleft] at herror
    refine .inl ⟨error, ?_, hexcused⟩
    rw [Evaluation.map, hleft, show result = .error error from herror]
    rfl
  · exact .inr (h.map hfg)

/-- Both scans stop, or both go on in one mode with states that belong together. -/
def Continues (lexers : Mode → Lexer → Lexer → Prop) : Continuation → Continuation → Prop
  | none, none => True
  | some (mode, left), some (other, right) => mode = other ∧ lexers mode left right
  | _, _ => False

theorem continues_rfl (continuation : Continuation) :
    Continues (fun _ => Eq) continuation continuation := by
  rcases continuation with _ | ⟨mode, lexer⟩
  · trivial
  · exact ⟨rfl, rfl⟩

/-- Scans whose steps correspond do so as a whole, unless the left one ends in an excused error. -/
theorem run_relatesUnless {corr : Correspondence} {excused : Error → Prop} {here there : Scope}
    {lexers : Mode → Lexer → Lexer → Prop}
    (hstep : ∀ mode left right s t, lexers mode left right → corr.sessions s t →
      corr.RelatesUnless excused (Continues lexers) (Lexer.step here mode left s)
        (Lexer.step there mode right t))
    {mode : Mode} {left right : Lexer} {s t : Session} (hl : lexers mode left right)
    (hs : corr.sessions s t) :
    corr.RelatesUnless excused (fun _ _ => True) (Lexer.run here mode left s)
      (Lexer.run there mode right t) := by
  fun_induction Lexer.run here mode left s generalizing right t with
  | case1 mode left s next after last h ih =>
    have hr := hstep mode left right s t hl hs
    rw [h] at hr
    obtain ⟨error, herror, -⟩ | hr := hr
    · cases herror
    cases ht : Lexer.step there mode right t with
    | mk result finish =>
      rw [ht] at hr
      rcases result with _ | _ | ⟨other, found⟩
      · exact hr.elim
      · exact hr.1.elim
      · obtain ⟨⟨rfl, hn⟩, hf⟩ := hr
        rw [Lexer.run_of_step ht]
        exact ih hn hf
  | case2 mode left s last h =>
    have hr := hstep mode left right s t hl hs
    rw [h] at hr
    obtain ⟨error, herror, -⟩ | hr := hr
    · cases herror
    cases ht : Lexer.step there mode right t with
    | mk result finish =>
      rw [ht] at hr
      rcases result with _ | _ | found
      · exact hr.elim
      · rw [Lexer.run_of_step_none ht]
        exact .inr hr
      · exact hr.1.elim
  | case3 mode left s error last h =>
    have hr := hstep mode left right s t hl hs
    rw [h] at hr
    obtain ⟨found, hfound, hexcused⟩ | hr := hr
    · obtain rfl := Except.error.inj hfound
      exact .inl ⟨error, rfl, hexcused⟩
    cases ht : Lexer.step there mode right t with
    | mk result finish =>
      rw [ht] at hr
      rcases result with other | found
      · rw [Lexer.run_of_step_error ht]
        exact .inr hr
      · exact hr.elim

/-- Scans whose steps correspond correspond as a whole. -/
theorem run_relates {corr : Correspondence} {here there : Scope}
    {lexers : Mode → Lexer → Lexer → Prop}
    (hstep : ∀ mode left right s t, lexers mode left right → corr.sessions s t →
      corr.Relates (Continues lexers) (Lexer.step here mode left s)
        (Lexer.step there mode right t))
    {mode : Mode} {left right : Lexer} {s t : Session} (hl : lexers mode left right)
    (hs : corr.sessions s t) :
    corr.RelatesUnits (Lexer.run here mode left s) (Lexer.run there mode right t) := by
  have hrun : corr.RelatesUnless (fun _ => False) (fun _ _ => True) (Lexer.run here mode left s)
      (Lexer.run there mode right t) :=
    run_relatesUnless (fun mode left right s t hl hs => .inr (hstep mode left right s t hl hs)) hl
      hs
  exact hrun.resolve_left fun ⟨_, _, hfalse⟩ => hfalse

/-! ## Looking past positions -/

/-- The left session has some warnings more at the front than the right one; else only positions
differ. -/
def apart (earlier : List Warning) : Correspondence where
  errors left right := left.unplaced = right.unplaced
  sessions left right := left.config = right.config ∧
    left.warnings.map Warning.unplaced = (earlier ++ right.warnings).map Warning.unplaced

theorem sessions_apart_nil {left right : Session} :
    (apart []).sessions left right ↔ left.unplaced = right.unplaced :=
  Session.unplaced_eq_iff.symm

theorem relatesUnits_apart_nil {left right : Outcome Unit} :
    (apart []).RelatesUnits left right ↔ left.unplaced = right.unplaced := by
  obtain ⟨x, s⟩ := left
  obtain ⟨y, t⟩ := right
  cases x <;> cases y <;>
    simp [RelatesUnits, Relates, Outcome.unplaced, apart,
      Session.unplaced_eq_iff]

theorem RelatesUnits.of_unplaced {earlier : List Warning} {left middle right : Outcome Unit}
    (hr : (apart earlier).RelatesUnits middle right) (hl : left.unplaced = middle.unplaced) :
    (apart earlier).RelatesUnits left right := by
  rcases left with ⟨_ | _, s⟩ <;> rcases middle with ⟨_ | _, t⟩ <;>
    rcases right with ⟨_ | _, u⟩ <;>
    simp_all [RelatesUnits, Relates, Outcome.unplaced, apart,
      Session.unplaced_eq_iff]

end Correspondence

end ShellConfig
