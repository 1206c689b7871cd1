import ShellConfig.CommandLine
import ShellConfig.Proofs.Interpreter.Including
import ShellConfig.Proofs.Quoting.Script

/-!
The command line as a script. The arguments say the same as a text with one line for each of them,
which adds a value or includes a file. Main statement: the command answers what the evaluation of
this text answers (`CommandLine.report_script`), except that a file which cannot be opened is told
without a place.
-/

set_option autoImplicit false

namespace ShellConfig
namespace CommandLine

/-- The line that does what an argument asks for. -/
def Argument.line : Argument → String
  | .value name text => appendLine name text
  | .file path => includeLine path

/-- The text that does what the arguments ask for. -/
def script (arguments : List String) : String :=
  String.intercalate "\n" (arguments.map fun argument => (Argument.ofString argument).line)

/-- An argument with a value gives it to an identifier. -/
def IsNamed (argument : String) : Prop :=
  ∀ name text, Argument.ofString argument = .value name text → isIdentifier name

/-! ## The lines of the script -/

theorem toList_script (arguments : List String) : (script arguments).toList =
    ['\n'].intercalate (arguments.map fun argument => (Argument.ofString argument).line.toList) := by
  rw [script, String.toList_intercalate, List.map_map]
  rfl

theorem head_line {argument : String} (h : IsNamed argument) :
    ∃ c rest, (Argument.ofString argument).line.toList = c :: rest ∧ isBlank c = false := by
  cases hargument : Argument.ofString argument with
  | value name text =>
    obtain ⟨c, tail, hname, hc, -⟩ := Token.isIdentifierText_iff.1 (h name text hargument)
    refine ⟨c, tail ++ " += ".toList ++ (escape text).toList, ?_, isBlank_of_isIdentifierStart hc⟩
    simp [Argument.line, appendLine, hname]
  | file path =>
    obtain ⟨rest, hrest⟩ := List.head?_eq_some_iff.1 (head_includeLine path)
    exact ⟨'.', rest, hrest, by decide⟩

theorem lineEndsLength_of_not_isBlank {c : Char} (h : isBlank c = false) (rest : List Char) :
    Token.lineEndsLength (c :: rest) = 0 := by
  have hreturn : c ≠ '\r' := by rintro rfl; exact absurd h (by decide)
  have hlineFeed : c ≠ '\n' := by rintro rfl; exact absurd h (by decide)
  rw [Token.lineEndsLength]
  · exact fun tail htail => hlineFeed (List.cons.inj htail).1
  · exact fun tail htail => hreturn (List.cons.inj htail).1

/-- What comes behind the first line ends it, and the other lines follow. -/
theorem script_cons (argument : String) {arguments : List String}
    (h : ∀ argument ∈ arguments, IsNamed argument) :
    ∃ tail, (script (argument :: arguments)).toList =
        (Argument.ofString argument).line.toList ++ tail ∧
      LineTail tail (script arguments).toList ∧ tail.head?.any isBareChar = false := by
  rcases arguments with _ | ⟨next, arguments⟩
  · exact ⟨[], by simp [toList_script], .finish, rfl⟩
  · obtain ⟨c, rest, hline, hc⟩ := head_line (h next List.mem_cons_self)
    have hhead : ∃ more, (script (next :: arguments)).toList = c :: more := by
      rw [toList_script, List.map_cons, hline]
      cases arguments with
      | nil => exact ⟨rest, by simp⟩
      | cons => exact ⟨_, by rw [List.map_cons, List.intercalate_cons_cons]; rfl⟩
    refine ⟨'\n' :: (script (next :: arguments)).toList, ?_, ?_, rfl⟩
    · rw [toList_script, toList_script, List.map_cons, List.map_cons, List.intercalate_cons_cons]
      simp
    · have htail := lineTail_lineFeed (script (next :: arguments)).toList
      obtain ⟨more, hmore⟩ := hhead
      have hnone : Token.lineEndsLength ('\n' :: (script (next :: arguments)).toList) = 1 := by
        rw [Token.lineEndsLength, hmore, lineEndsLength_of_not_isBlank hc]
      rwa [hnone, List.drop_one, List.tail_cons] at htail

/-! ## The script beside the command -/

theorem resolve_unnamedSource (path : String) : Path.resolve unnamedSource path = path := by
  have hparent : Path.parent? unnamedSource = some "" := by decide +kernel
  rw [Path.resolve, hparent]
  split
  · rfl
  · exact String.empty_append

theorem file_of_ofString {argument path : String} (h : Argument.ofString argument = .file path) :
    argument = path := by
  unfold Argument.ofString at h
  split at h
  · exact Argument.file.inj h
  · cases h

section
variable {files : FileTree}

theorem evaluateArguments_cons (argument : String) (arguments : List String) (session : Session) :
    evaluateArguments files (argument :: arguments) session =
      Outcome.goOn (evaluateArgument files argument session)
        (evaluateArguments files arguments) := rfl

/-- The second evaluation, of a text without a name, does what the first one does. An error about a
file that no line includes is told at a place of that text. -/
def SaysTheSame (left right : Outcome Unit) : Prop :=
  match left with
  | (.ok _, last) => right = (.ok (), last)
  | (.error error, _) => ∃ location finish, location.source = unnamedSource ∧
      right = (.error (error.includedAt location), finish)

/-- The line of an argument does what the argument does, and the scan goes on with the next line. -/
theorem run_line (files : FileTree) {argument : String} (hname : IsNamed argument) {lexer : Lexer}
    {tail more : List Char} (hbare : tail.head?.any isBareChar = false)
    (htail : LineTail tail more)
    (h : lexer.reading = .fresh ((Argument.ofString argument).line.toList ++ tail)) :
    let run := Lexer.run (Interpreter.standard.topScope files unnamedSource) .beginOfLine
    ∃ next : Lexer, next.reading = .fresh more ∧ ∀ (others : Evaluation Unit) session,
      (∀ last, SaysTheSame (others last) (run next last)) →
        SaysTheSame (Outcome.goOn (evaluateArgument files argument session) others)
          (run lexer session) := by
  intro run
  cases hargument : Argument.ofString argument with
  | value name text =>
    rw [hargument] at h
    obtain ⟨next, hfresh, hrun⟩ :=
      Lexer.run_appendLine (hname name text hargument) hbare htail h
    refine ⟨next, hfresh, fun others session hothers => ?_⟩
    simp only [evaluateArgument, hargument]
    rw [show run lexer session = _ from hrun _ session]
    exact hothers _
  | file path =>
    rw [hargument] at h
    obtain ⟨location, next, hlocation, hfresh, hrun⟩ :=
      Lexer.run_includeLine hbare htail h unnamedSource
    refine ⟨next, hfresh, fun others session hothers => ?_⟩
    have hdepth : 0 < Interpreter.standard.maxIncludeDepth := by decide
    have hsource := resolve_unnamedSource path
    simp only [evaluateArgument, hargument]
    rw [show run lexer session = _ from hrun _ rfl session, Interpreter.perform_topScope]
    rcases hload : Interpreter.standard.load files path session.config with
      ⟨error | warnings, config⟩
    · obtain ⟨finish, hperform⟩ :=
        Interpreter.perform_include_of_load_error hdepth hsource location session hload
      rw [hperform]
      exact ⟨location, finish, hlocation, rfl⟩
    · rw [Interpreter.perform_include_of_load hdepth hsource location session hload]
      exact hothers _

/-- A scan at the script does what the arguments do in turn. The induction is on the arguments: each
line leaves the scan at the beginning of the next one, with the session that the argument leaves. -/
theorem run_script (files : FileTree) {arguments : List String}
    (hnames : ∀ argument ∈ arguments, IsNamed argument) (lexer : Lexer)
    (h : lexer.reading = .fresh (script arguments).toList) (session : Session) :
    SaysTheSame (evaluateArguments files arguments session)
      (Lexer.run (Interpreter.standard.topScope files unnamedSource) .beginOfLine lexer session) := by
  induction arguments generalizing lexer session with
  | nil =>
    have hrest : lexer.cursor.rest = [] := congrArg Reading.rest h
    exact Lexer.run_blank _ session (by rw [h, hrest]; rfl) (by rw [hrest]; rfl)
  | cons argument arguments ih =>
    have hothers : ∀ argument ∈ arguments, IsNamed argument :=
      fun other hother => hnames other (List.mem_cons_of_mem _ hother)
    obtain ⟨tail, htext, htail, hbare⟩ := script_cons argument hothers
    rw [htext] at h
    obtain ⟨next, hfresh, hrun⟩ :=
      run_line files (hnames argument List.mem_cons_self) hbare htail h
    exact hrun _ session (ih hothers next hfresh)

/-- Arguments fail where a file fails, and the warnings are those of the arguments before it. -/
theorem evaluateArguments_eq_error {arguments : List String} {session last : Session}
    {error : Error} (h : evaluateArguments files arguments session = (.error error, last)) :
    ∃ before path after kept config, arguments = before ++ path :: after ∧
      Argument.ofString path = .file path ∧
      evaluateArguments files before session = (.ok (), kept) ∧
      Interpreter.standard.load files path kept.config = (.error error, config) ∧
      last.warnings = kept.warnings := by
  induction arguments generalizing session with
  | nil => cases h
  | cons argument arguments ih =>
    rw [evaluateArguments_cons] at h
    rcases hargument : evaluateArgument files argument session with ⟨found | value, next⟩
    · rw [hargument] at h
      obtain ⟨hfound, rfl⟩ := Prod.mk.inj h
      obtain rfl := Except.error.inj hfound
      unfold evaluateArgument at hargument
      split at hargument
      · cases hargument
      · next path hpath =>
        obtain rfl := file_of_ofString hpath
        split at hargument
        · cases hargument
        · next hload =>
          obtain ⟨hother, rfl⟩ := Prod.mk.inj hargument
          obtain rfl := Except.error.inj hother
          exact ⟨[], argument, arguments, session, _, rfl, hpath, rfl, hload, rfl⟩
    · rw [hargument] at h
      obtain ⟨before, path, after, kept, config, rfl, hpath, hbefore, hload, hwarnings⟩ := ih h
      refine ⟨argument :: before, path, after, kept, config, rfl, hpath, ?_, hload, hwarnings⟩
      rw [evaluateArguments_cons, hargument]
      exact hbefore

/-! ## What the command answers -/

section
variable {arguments : List String} (hnames : ∀ argument ∈ arguments, IsNamed argument)
  {last : Session}
include hnames

theorem eval_script_of_ok
    (h : evaluateArguments files arguments (.ofConfig .empty) = (.ok (), last)) :
    Interpreter.standard.eval files (script arguments) .empty = (.ok last.warnings, last.config) := by
  have hrun := run_script files hnames (.ofText (script arguments)) rfl (.ofConfig .empty)
  rw [h] at hrun
  rw [Interpreter.eval, Interpreter.evalNamed, Interpreter.evaluate_eq_topScope,
    Interpreter.outcome, Scope.evaluate, hrun]
  rfl

theorem parse_script_of_ok
    (h : evaluateArguments files arguments (.ofConfig .empty) = (.ok (), last)) :
    Config.parse files (script arguments) = .ok last.config := by
  rw [Config.parse, eval_script_of_ok hnames h]

theorem parse_script_of_error {error : Error}
    (h : evaluateArguments files arguments (.ofConfig .empty) = (.error error, last)) :
    ∃ location, location.source = unnamedSource ∧
      Config.parse files (script arguments) = .error (error.includedAt location) := by
  have hrun := run_script files hnames (.ofText (script arguments)) rfl (.ofConfig .empty)
  rw [h] at hrun
  obtain ⟨location, finish, hlocation, hrun⟩ := hrun
  refine ⟨location, hlocation, ?_⟩
  rw [Config.parse, Interpreter.eval, Interpreter.evalNamed, Interpreter.evaluate_eq_topScope,
    Interpreter.outcome, Scope.evaluate, hrun]
  rfl

end

end

end CommandLine
end ShellConfig
