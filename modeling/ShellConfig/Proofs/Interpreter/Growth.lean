import ShellConfig.Proofs.Config.Contents
import ShellConfig.Proofs.Interpreter.Evaluator
import ShellConfig.Proofs.Lexer.LineBeginning

/-!
Evaluation only adds to a configuration, unless a directive of its own does otherwise: lines are
appended and have words, names keep their places, and only identifiers get values
(`Config.Grows`). Every step does so (`grows_step`), and therefore every run (`grows_run`) and every
evaluation of an interpreter without directives of its own (`answer_onlyAdds`).
-/

set_option autoImplicit false

namespace ShellConfig

/-! ## Growth of configurations -/

/-- What the text of a configuration language can do to a configuration. -/
structure Config.Grows (old new : Config) : Prop where
  lines : ∃ added, new.lines = old.lines ++ added ∧ ∀ words ∈ added, words ≠ []
  names : old.names <+: new.names
  changed : ∀ name, new.get? name ≠ old.get? name → isIdentifier name

namespace Config

theorem Grows.refl (config : Config) : config.Grows config :=
  ⟨⟨[], by simp, by simp⟩, List.prefix_refl _, fun _ h => absurd rfl h⟩

theorem Grows.trans {first second third : Config} (hfirst : first.Grows second)
    (hsecond : second.Grows third) : first.Grows third := by
  obtain ⟨added, hadded, hwords⟩ := hfirst.lines
  obtain ⟨more, hmore, hmoreWords⟩ := hsecond.lines
  refine ⟨⟨added ++ more, by rw [hmore, hadded, List.append_assoc], ?_⟩,
    hfirst.names.trans hsecond.names, fun name hname => ?_⟩
  · intro words hmem
    exact (List.mem_append.1 hmem).elim (hwords words) (hmoreWords words)
  · by_cases h : second.get? name = first.get? name
    · exact hsecond.changed name (h ▸ hname)
    · exact hfirst.changed name h

theorem grows_set (config : Config) {name : String} (hname : isIdentifier name)
    (values : List String) : config.Grows (config.set name values) := by
  refine ⟨⟨[], by simp, by simp⟩, ?_, fun other hother => ?_⟩
  · have hkeys : (config.set name values).names =
        if name ∈ config.names then config.names else config.names ++ [name] :=
      OrderedMap.keys_insert config.vars name values
    rw [hkeys]
    split
    · exact List.prefix_refl _
    · exact List.prefix_append _ _
  · rw [get?_set] at hother
    by_cases h : other = name
    · exact h ▸ hname
    · rw [if_neg h] at hother
      exact absurd rfl hother

theorem grows_receiveLine (config : Config) {words : List String} (h : words ≠ []) :
    config.Grows (config.receiveLine words) :=
  ⟨⟨[words], rfl, by simpa using h⟩, List.prefix_refl _, fun _ hname => absurd rfl hname⟩

end Config

/-! ## Growth at the end of a line -/

/-- The operation changes no variable but an identifier. -/
def Operation.TargetsIdentifier (operation : Operation) : Prop :=
  ∀ name ∈ operation.target?, isIdentifier name

theorem Operation.target?_assignment (name sign : String) :
    (assignment name sign).target? = some name := by
  unfold assignment
  split
  · rfl
  · split <;> rfl

/-- What changes a variable is no directive, and receives no line. -/
theorem Operation.apply_of_target {operation : Operation} {name : String}
    (h : operation.target? = some name) (words : List String) (config : Config) :
    (operation.apply words config).1.lines = config.lines ∧
      (operation.apply words config).2 = none := by
  cases operation with
  | plain | directive => cases h
  | set | append => exact ⟨rfl, rfl⟩
  | setIfUnset other =>
    rw [apply]
    split <;> exact ⟨rfl, rfl⟩

theorem Operation.grows_apply {operation : Operation} (h : operation.TargetsIdentifier)
    (words : List String) (config : Config) :
    config.Grows (operation.apply words config).1 := by
  cases operation with
  | plain =>
    by_cases hwords : words.isEmpty
    · rw [apply, if_pos hwords]
      exact .refl config
    · rw [apply, if_neg hwords]
      exact config.grows_receiveLine (by simpa using hwords)
  | set name => exact config.grows_set (h name rfl) words
  | append name => exact config.grows_set (h name rfl) _
  | setIfUnset name =>
    rw [apply]
    split
    · exact .refl config
    · exact config.grows_set (h name rfl) words
  | directive => exact .refl config

namespace Lexer

section
variable {scope : Scope} {lexer : Lexer} {session : Session}

theorem targetsIdentifier_beginLine (h : lexer.pending.TargetsIdentifier) :
    lexer.beginLine.pending.TargetsIdentifier := by
  unfold beginLine
  simp only
  split
  · next name sign hvalue =>
    unfold Token.lineBeginning at hvalue
    simp only at hvalue
    split at hvalue
    · next found hfound =>
      have hname := (Token.beginsAssignment_of_eq_some hfound).2
      rw [Option.some.inj hvalue] at hname
      intro target htarget
      rw [Operation.target?_assignment] at htarget
      exact Option.some.inj htarget ▸ hname
    · cases hvalue
  · split
    · intro target htarget
      cases htarget
    · exact h

theorem targetsIdentifier_step {mode next : Mode} {after : Lexer} {last : Session}
    (hstep : step scope mode lexer session = (.ok (some (next, after)), last))
    (h : lexer.pending.TargetsIdentifier) : after.pending.TargetsIdentifier := by
  obtain hpending | hpending | hpending := pending_of_step hstep
  · exact hpending ▸ h
  · exact hpending ▸ targetsIdentifier_beginLine h
  · intro target htarget
    rw [hpending] at htarget
    cases htarget

variable (session)
  (hperform : ∀ (call : DirectiveCall) (location : Location) (session : Session),
    session.config.Grows (scope.perform call location session).2.config)
include hperform

theorem grows_endLine (h : lexer.pending.TargetsIdentifier) :
    session.config.Grows (lexer.endLine scope session).2.config := by
  have happly := Operation.grows_apply h lexer.endWord.line session.config
  unfold endLine
  revert happly
  rcases lexer.pending.apply lexer.endWord.line session.config with ⟨config, _ | words⟩ <;>
    intro happly
  · exact happly
  · simp only
    cases DirectiveCall.ofWords? words with
    | none => exact happly
    | some call => exact happly.trans (hperform call _ { session with config })

/-! ## Growth in steps and runs -/

theorem grows_step (mode : Mode) (h : lexer.pending.TargetsIdentifier) :
    session.config.Grows (step scope mode lexer session).2.config := by
  obtain hsame | ⟨ended, hpending, hend⟩ := session_of_step scope mode lexer session
  · rw [hsame]
    exact .refl _
  · rw [hend]
    exact grows_endLine session hperform (hpending ▸ h)

/-- The run takes steps that add to the configuration, and between them keeps a target that may be
changed. -/
theorem grows_run (mode : Mode) (h : lexer.pending.TargetsIdentifier) :
    session.config.Grows (run scope mode lexer session).2.config := by
  fun_induction run scope mode lexer session with
  | case1 mode lexer session next after last hstep ih =>
    have hgrows := grows_step session hperform mode h
    rw [hstep] at hgrows
    exact hgrows.trans (ih (targetsIdentifier_step hstep h))
  | case2 mode lexer session last hstep =>
    have hgrows := grows_step session hperform mode h
    rw [hstep] at hgrows
    exact hgrows
  | case3 mode lexer session error last hstep =>
    have hgrows := grows_step session hperform mode h
    rw [hstep] at hgrows
    exact hgrows

end

end Lexer

/-! ## Growth of whole evaluations -/

/-- An evaluation of texts that only adds to a configuration. -/
def TextEvaluation.OnlyAdds (evaluation : TextEvaluation) : Prop :=
  ∀ (active : List Identity) (source text : String) (session : Session),
    session.config.Grows (evaluation active source text session).2.config

namespace Interpreter

section
variable {interpreter : Interpreter} {files : FileTree} {nested : TextEvaluation}
  (hnested : nested.OnlyAdds)
include hnested

theorem grows_openFile (active : List Identity) (path : String) (location : Option Location)
    (session : Session) :
    session.config.Grows (openFile files nested active path location session).2.config := by
  unfold openFile
  cases files.openText path with
  | error fault => exact .refl _
  | ok found => exact hnested _ _ _ _

theorem grows_perform (hdirectives : ∀ name, interpreter.directives.find? name = none)
    (active : List Identity) (source : String) (call : DirectiveCall) (location : Location)
    (session : Session) :
    session.config.Grows
      (interpreter.perform files nested active source call location session).2.config := by
  unfold perform
  split
  · split
    · unfold includeFile
      split
      · exact .refl _
      · split
        · exact .refl _
        · exact grows_openFile hnested _ _ _ _
    · exact .refl _
  · rw [hdirectives]
    exact .refl _

theorem onlyAdds_evaluateWith (hdirectives : ∀ name, interpreter.directives.find? name = none) :
    (interpreter.evaluateWith files nested).OnlyAdds := fun active source _ session =>
  Lexer.grows_run session (grows_perform hnested hdirectives active source) .beginOfLine
    fun _ htarget => nomatch htarget

end

theorem onlyAdds_evaluate (interpreter : Interpreter)
    (hdirectives : ∀ name, interpreter.directives.find? name = none) (files : FileTree)
    (closed : Nat) : (interpreter.evaluate files closed).OnlyAdds := by
  induction closed with
  | zero => exact onlyAdds_evaluateWith (fun _ _ _ _ => .refl _) hdirectives
  | succ closed ih => exact onlyAdds_evaluateWith ih hdirectives

/-- The configuration that an evaluation leaves, whether or not it succeeds. -/
theorem config_outcome (evaluation : Evaluation Unit) (config : Config) :
    (outcome evaluation config).2 = (evaluation (.ofConfig config)).2.config := by
  unfold outcome
  rcases evaluation (.ofConfig config) with ⟨error | value, session⟩ <;> rfl

theorem grows_answer (interpreter : Interpreter)
    (hdirectives : ∀ name, interpreter.directives.find? name = none) (files : FileTree)
    (entry : Entry) (config : Config) :
    config.Grows (interpreter.answer files entry config).2 := by
  have hevaluate := onlyAdds_evaluate interpreter hdirectives files interpreter.maxIncludeDepth
  cases entry with
  | text source text =>
    rw [answer, evalNamed, config_outcome]
    exact hevaluate [] source text (.ofConfig config)
  | file path =>
    rw [answer, load, config_outcome]
    exact grows_openFile hevaluate [] path none (.ofConfig config)

/-- Without directives of its own an interpreter only adds to a configuration, also where it fails:
lines that have words, and variables after those that there are. Only identifiers get values. -/
theorem answer_onlyAdds (interpreter : Interpreter)
    (hdirectives : ∀ name, interpreter.directives.find? name = none) (files : FileTree)
    (entry : Entry) (config : Config) :
    let after := (interpreter.answer files entry config).2
    (∃ added, after.lines = config.lines ++ added ∧ ∀ words ∈ added, words ≠ []) ∧
      (∃ added, after.names = config.names ++ added ∧ (config.names ++ added).Nodup) ∧
      ∀ name, after.get? name ≠ config.get? name → isIdentifier name := by
  intro after
  have hgrows : config.Grows after := grows_answer interpreter hdirectives files entry config
  obtain ⟨added, hadded⟩ := hgrows.names
  refine ⟨hgrows.lines, ⟨added, hadded.symm, ?_⟩, hgrows.changed⟩
  rw [hadded]
  exact after.vars.nodup_keys

/-- A file that is loaded includes another one and then fails. The variable whose name is no
identifier and the empty line were there before. -/
theorem answer_onlyAdds_failing :
    let strict : Interpreter := { undefined := .refuse }
    let files := ((FileTree.empty.addDirectory "d").addFile "d/main"
      "A += 1\n.include sub\nC = 2\nD = $UNSET".toUTF8).addFile "d/sub" "B ?= 'x y'\nline\n".toUTF8
    let config := Config.ofLists [("x y", []), ("A", ["0"])] [[]]
    let after := Config.ofLists [("x y", []), ("A", ["0", "1"]), ("B", ["x y"]), ("C", ["2"])]
      [[], ["line"]]
    (∀ name, strict.directives.find? name = none) ∧
      (strict.answer files (.file "d/main") config).2 = after ∧
      (∃ added, after.names = config.names ++ added ∧ (config.names ++ added).Nodup) ∧
      ∀ name, after.get? name ≠ config.get? name → isIdentifier name := by
  intro strict files config after
  have hdirectives (name : String) : strict.directives.find? name = none := rfl
  have hafter : (strict.answer files (.file "d/main") config).2 = after := by decide +kernel
  obtain ⟨-, hnames, hchanged⟩ := answer_onlyAdds strict hdirectives files (.file "d/main") config
  rw [hafter] at hnames hchanged
  exact ⟨hdirectives, hafter, hnames, hchanged⟩

end Interpreter

end ShellConfig
