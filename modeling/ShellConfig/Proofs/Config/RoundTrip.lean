import ShellConfig.Proofs.Config.Contents
import ShellConfig.Proofs.Config.Writable

/-!
Reading back what was written. The text of a configuration that can be written is evaluated piece by
piece (`readLines_intercalate`), into any configuration and by any interpreter
(`evalNamed_serialize`).
-/

set_option autoImplicit false

namespace ShellConfig

/-! ## Pieces of a text -/

/-- A text that is evaluated to its end with a known effect, and does not end in a return. -/
structure Scope.Effects (scope : Scope) (text : List Char) (effect : Config → Config) : Prop where
  noReturn : ¬ ['\r'] <:+ text
  readLines : ∀ session, scope.readLines text session =
    Outcome.unplaced (.ok (), { session with config := effect session.config })

section
variable {scope : Scope} (hscope : scope.IgnoresPositions)
include hscope

/-- A piece that is evaluated to its end comes before the others. -/
theorem Scope.readLines_cons {text : List Char} {session after : Session}
    (hcr : ¬ ['\r'] <:+ text)
    (h : scope.readLines text session = Outcome.unplaced (.ok (), after)) (more : List (List Char)) :
    scope.readLines (['\n'].intercalate (text :: more)) session =
      scope.readLines (['\n'].intercalate more) after := by
  by_cases hnil : more = []
  · rw [hnil, List.intercalate_singleton, List.intercalate_nil, readLines_nil, h]
  · rw [List.intercalate_cons_of_ne_nil hnil, List.append_assoc]
    exact readLines_append hscope hcr h

/-- Pieces of a text, each on lines of its own, have their effects in turn. -/
theorem Scope.readLines_intercalate {pieces : List (List Char × (Config → Config))}
    (h : ∀ piece ∈ pieces, scope.Effects piece.1 piece.2) (more : List (List Char))
    (session : Session) :
    scope.readLines (['\n'].intercalate (pieces.map Prod.fst ++ more)) session =
      scope.readLines (['\n'].intercalate more)
        { session with
          config := pieces.foldl (fun config piece => piece.2 config) session.config } := by
  induction pieces generalizing session with
  | nil => rfl
  | cons piece pieces ih =>
    have hpiece := h piece List.mem_cons_self
    have hrest := ih (fun other hother => h other (List.mem_cons_of_mem _ hother))
      { session with config := piece.2 session.config }
    rw [List.map_cons, List.cons_append, List.foldl_cons, ← hrest]
    exact readLines_cons hscope hpiece.noReturn (hpiece.readLines session) _

/-! ## The pieces of a configuration -/

theorem Scope.effects_assignmentText {name : String} (hname : isIdentifier name)
    (values : List String) :
    scope.Effects (Config.assignmentText name values).toList (·.set name values) := by
  refine ⟨?_, fun session => readLines_assignmentText hscope session hname values⟩
  have htext : (Config.assignmentText name values).toList =
      name.toList ++ [' ', '='] ++ ' ' :: (escapeLine values).toList := by
    simp [Config.assignmentText]
  rw [htext]
  refine not_return_suffix_append _ (by simp) ?_
  rcases values with _ | ⟨value, values⟩
  · rw [Token.return_suffix_iff]
    decide
  · exact not_return_suffix_append [' '] (escapeLine_ne_nil value values)
      (not_return_suffix_escapeLine _)

theorem Scope.effects_escapeLine {words : List String} (h : WritableLine words) :
    scope.Effects (escapeLine words).toList (·.receiveLine words) :=
  ⟨not_return_suffix_escapeLine words, fun session => readLines_escapeLine hscope session h⟩

/-- The texts of variables, before any other lines, set these variables. -/
theorem Scope.readLines_vars {entries : List (String × List String)}
    (hnames : ∀ entry ∈ entries, isIdentifier entry.1) (more : List (List Char))
    (session : Session) :
    scope.readLines (['\n'].intercalate
        (entries.map (fun entry => (Config.assignmentText entry.1 entry.2).toList) ++ more))
        session =
      scope.readLines (['\n'].intercalate more)
        { session with config := session.config.setAll entries } := by
  let pieces : List (List Char × (Config → Config)) := entries.map fun entry =>
    ((Config.assignmentText entry.1 entry.2).toList, (·.set entry.1 entry.2))
  have hpieces : ∀ piece ∈ pieces, scope.Effects piece.1 piece.2 := by
    intro piece hpiece
    obtain ⟨entry, hentry, rfl⟩ := List.mem_map.1 hpiece
    exact effects_assignmentText hscope (hnames entry hentry) entry.2
  have hread := readLines_intercalate hscope hpieces more session
  rw [List.map_map, List.foldl_map] at hread
  exact hread

/-- The texts of lines that can be written, before any other lines, are received. -/
theorem Scope.readLines_lines {lines : List (List String)}
    (hlines : ∀ words ∈ lines, WritableLine words) (more : List (List Char))
    (session : Session) :
    scope.readLines (['\n'].intercalate
        (lines.map (fun words => (escapeLine words).toList) ++ more)) session =
      scope.readLines (['\n'].intercalate more)
        { session with config := session.config.receiveAll lines } := by
  let pieces : List (List Char × (Config → Config)) := lines.map fun words =>
    ((escapeLine words).toList, (·.receiveLine words))
  have hpieces : ∀ piece ∈ pieces, scope.Effects piece.1 piece.2 := by
    intro piece hpiece
    obtain ⟨words, hwords, rfl⟩ := List.mem_map.1 hpiece
    exact effects_escapeLine hscope (hlines words hwords)
  have hread := readLines_intercalate hscope hpieces more session
  rw [List.map_map, List.foldl_map] at hread
  exact hread

end

/-! ## Whole texts -/

theorem Config.toList_serialize (config : Config) :
    config.serialize.toList = ['\n'].intercalate
      (config.sortedVars.map (fun entry => (assignmentText entry.1 entry.2).toList) ++
        config.lines.map (fun words => (escapeLine words).toList)) := by
  simp [serialize, Function.comp_def]

theorem not_return_suffix_intercalate {texts : List (List Char)}
    (h : ∀ text ∈ texts, ¬ ['\r'] <:+ text) : ¬ ['\r'] <:+ ['\n'].intercalate texts := by
  induction texts with
  | nil => simp
  | cons text texts ih =>
    have hrest := ih fun other hother => h other (List.mem_cons_of_mem _ hother)
    by_cases hnil : texts = []
    · rw [hnil, List.intercalate_singleton]
      exact h text List.mem_cons_self
    · rw [List.intercalate_cons_of_ne_nil hnil, List.append_assoc]
      refine not_return_suffix_append text (by simp) ?_
      by_cases hempty : ['\n'].intercalate texts = []
      · rw [hempty, Token.return_suffix_iff]
        decide
      · exact not_return_suffix_append ['\n'] hempty hrest

/-- The text of a configuration that can be written adds its contents to what is there. -/
theorem Scope.effects_serialize {scope : Scope} (hscope : scope.IgnoresPositions)
    {config : Config} (h : config.Writable) :
    scope.Effects config.serialize.toList (·.merge config) := by
  have hnames : ∀ entry ∈ config.sortedVars, isIdentifier entry.1 := fun entry hentry =>
    h.names entry.1 (Config.mem_sortedVars_names hentry)
  refine ⟨?_, fun session => ?_⟩
  · rw [Config.toList_serialize]
    refine not_return_suffix_intercalate fun text htext => ?_
    rcases List.mem_append.1 htext with htext | htext
    · obtain ⟨entry, hentry, rfl⟩ := List.mem_map.1 htext
      exact (effects_assignmentText hscope (hnames entry hentry) entry.2).noReturn
    · obtain ⟨words, hwords, rfl⟩ := List.mem_map.1 htext
      exact not_return_suffix_escapeLine words
  · have hlines := readLines_lines hscope h.lines [] { session with
      config := session.config.setAll config.sortedVars }
    rw [List.append_nil] at hlines
    rw [Config.toList_serialize, readLines_vars hscope hnames, hlines]
    exact readLines_nil scope _

namespace Interpreter

theorem evalNamed_eq_merge {config : Config} (h : config.Writable) (interpreter : Interpreter)
    (files : FileTree) (source : String) {ending : String} (hending : ending = "" ∨ ending = "\n")
    (initial : Config) :
    interpreter.evalNamed files source (config.serialize ++ ending) initial =
      (.ok [], initial.merge config) := by
  obtain ⟨nested, hscope, heval⟩ :=
    evaluate_eq_scope interpreter files interpreter.maxIncludeDepth [] source
  have heffects := Scope.effects_serialize hscope h
  have hread : (interpreter.scope files nested [] source).readLines
      (config.serialize ++ ending).toList (.ofConfig initial) =
      Outcome.unplaced (.ok (), .ofConfig (initial.merge config)) := by
    rcases hending with rfl | rfl
    · rw [String.append_empty]
      exact heffects.readLines (.ofConfig initial)
    · rw [String.toList_append]
      refine (Scope.readLines_append hscope heffects.noReturn
        (heffects.readLines (.ofConfig initial))).trans ?_
      exact Scope.readLines_nil _ _
  have hresult := evalNamed_of_readLines heval (initial.merge config) hread
  rwa [String.ofList_toList] at hresult

theorem parse_serialize {config : Config} (h : config.Writable) (files : FileTree) :
    Config.parse files config.serialize = .ok (Config.empty.merge config) := by
  have hparse := evalNamed_eq_merge h standard files unnamedSource (.inl rfl) .empty
  rw [String.append_empty] at hparse
  rw [Config.parse, eval, hparse]

/-- Evaluating the text of a configuration that can be written, with a line feed at its end or
without, adds exactly its contents to any configuration; and from nothing it makes a configuration
with the same contents. -/
theorem evalNamed_serialize {config : Config} (h : config.Writable) :
    (∀ (interpreter : Interpreter) (files : FileTree) (source ending : String) (initial : Config),
      ending = "" ∨ ending = "\n" →
        ∃ after, interpreter.evalNamed files source (config.serialize ++ ending) initial =
            (.ok [], after) ∧
          (∀ name, after.get? name = (config.get? name).or (initial.get? name)) ∧
          after.lines = initial.lines ++ config.lines) ∧
      ∀ files, ∃ parsed, Config.parse files config.serialize = .ok parsed ∧
        parsed.sameContents config := by
  constructor
  · intro interpreter files source ending initial hending
    exact ⟨_, evalNamed_eq_merge h interpreter files source hending initial,
      Config.get?_merge initial config, Config.lines_merge initial config⟩
  · intro files
    exact ⟨_, parse_serialize h files, Config.sameContents_merge_empty config⟩

/-- A variable without values, values with blanks and quotes, and a line whose second word looks
like a directive. -/
theorem evalNamed_serialize_quotes :
    (Config.ofLists [("B", ["x y", "$1"]), ("A", [])] [["it's", ".x", ""]]).Writable ∧
      ∃ parsed, Config.parse .empty
          (Config.ofLists [("B", ["x y", "$1"]), ("A", [])] [["it's", ".x", ""]]).serialize =
          .ok parsed ∧
        parsed.sameContents
          (Config.ofLists [("B", ["x y", "$1"]), ("A", [])] [["it's", ".x", ""]]) := by
  have hline : WritableLine ["it's", ".x", ""] := by
    refine ⟨by decide, by decide +kernel, ?_⟩
    rw [← Token.assignment_isSome_iff]
    decide +kernel
  have hwritable : (Config.ofLists [("B", ["x y", "$1"]), ("A", [])] [["it's", ".x", ""]]).Writable :=
    ⟨by decide +kernel, by simpa [Config.ofLists] using hline⟩
  exact ⟨hwritable, (evalNamed_serialize hwritable).2 .empty⟩

end Interpreter

end ShellConfig
