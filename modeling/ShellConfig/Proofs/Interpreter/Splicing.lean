import ShellConfig.Proofs.File.Siblings
import ShellConfig.Proofs.Interpreter.Coupling
import ShellConfig.Proofs.Interpreter.Evaluator
import ShellConfig.Proofs.Quoting.Directive

/-!
The text of a file in the place of the line that includes it. A file beside the text means the same
files by its own includes, and fewer files are open where its text is part of the text itself, so
what can be included can be spliced (`Interpreter.follows_spliced`). Main statement:
`Interpreter.evalNamed_spliced`.
-/

set_option autoImplicit false

namespace ShellConfig

/-- Evaluations with the same configurations and warnings about the same variables, wherever these
are. Nothing is asked where the left one fails. -/
def Coupling.byName : Coupling where
  errors _ _ := True
  sessions s t := s.config = t.config ∧ s.warnings.map Warning.name = t.warnings.map Warning.name
  places _ _ := True
  excused _ := True
  places_refl _ := trivial
  config_eq hs := hs.1
  update _ hs := ⟨rfl, hs.2⟩
  warn name hs _ := ⟨hs.1, by simp [Session.warn, hs.2]⟩
  lexical _ _ := trivial
  directive _ _ _ := trivial
  file _ _ _ := trivial

theorem Session.names_of_unplaced {s t : Session} (h : s.unplaced = t.unplaced) :
    s.warnings.map Warning.name = t.warnings.map Warning.name := by
  have hnames := congrArg (List.map Warning.name) (Session.unplaced_eq_iff.1 h).2
  rwa [List.map_map, List.map_map] at hnames

namespace Interpreter
variable {interpreter : Interpreter} {files : FileTree}

/-- What may be included while some files are open may be so while fewer are. -/
theorem joins_byName (interpreter : Interpreter) (files : FileTree) :
    Coupling.byName.Joins files
      (fun active opened => opened.length ≤ active.length ∧ opened ⊆ active) interpreter
      interpreter where
  undefined := rfl
  directives := rfl
  push identity hstacks := by
    refine ⟨by simpa using hstacks.1, fun other hother => ?_⟩
    obtain hold | hlast := List.mem_append.1 hother
    · exact List.mem_append_left _ (hstacks.2 hold)
    · exact List.mem_append_right _ hlast
  refused _ _ _ := .inl trivial
  accepted := by
    rintro active opened path ⟨hlength, hsubset⟩ haccepted
    rw [refused?_eq_none_iff] at haccepted ⊢
    obtain ⟨hdepth, hactive⟩ := haccepted
    refine ⟨Nat.lt_of_le_of_lt hlength hdepth, ?_⟩
    rw [isActive_eq_false_iff] at hactive ⊢
    exact fun hopened => hactive (hsubset hopened)

section
variable {source file : String}

/-- An included file in the directory of the text is followed by its text as a part of that text. -/
theorem follows_spliced (interpreter : Interpreter) (files : FileTree) (identity : Identity)
    (source body : String) (hname : Path.IsPlainName file)
    (hdepth : 0 < interpreter.maxIncludeDepth)
    {s t : Session} (hs : Coupling.byName.sessions s t) :
    Coupling.byName.Follows (fun _ _ => True)
      (interpreter.included files interpreter.maxIncludeDepth [identity] (Path.resolve source file)
        body s)
      (interpreter.evaluate files interpreter.maxIncludeDepth [] source body t) := by
  have hevaluate : interpreter.included files interpreter.maxIncludeDepth [identity] =
      interpreter.evaluate files interpreter.maxIncludeDepth [identity] :=
    Evaluator.included_eq_evaluate interpreter files [] (Nat.le_refl _) hdepth identity
  rw [hevaluate, evaluate_eq, evaluate_eq]
  have hjoins := joins_byName interpreter files
  exact Coupling.follows_evaluate
    (hjoins.scope (hjoins.included _) ⟨Nat.zero_le _, List.nil_subset _⟩
      (Path.resolve_sibling hname source) fun _ _ => trivial) hs body

theorem follows_topScope (interpreter : Interpreter) (files : FileTree) (source text : String)
    {s t : Session} (hs : Coupling.byName.sessions s t) :
    Coupling.byName.Follows (fun _ _ => True) ((interpreter.topScope files source).evaluate text s)
      ((interpreter.topScope files source).evaluate text t) := by
  have hjoins := joins_byName interpreter files
  exact Coupling.follows_evaluate
    (hjoins.scope (hjoins.included _) ⟨Nat.le_refl _, List.Subset.refl _⟩ (fun _ => rfl)
      fun _ _ => trivial) hs text

/-- Where a text with the line that includes the file succeeds, so do the file and then what follows
the line. -/
theorem exists_of_includeLine {body : String} {identity : Identity} {second : List Char}
    {s last : Session}
    (hopen : files.openText (Path.resolve source file) = .ok (identity, body))
    (h : (interpreter.topScope files source).readLines
      ((includeLine file).toList ++ '\n' :: second) s = Outcome.unplaced (.ok (), last)) :
    0 < interpreter.maxIncludeDepth ∧ ∃ middle finish,
      interpreter.included files interpreter.maxIncludeDepth [identity] (Path.resolve source file)
        body s = (.ok (), middle) ∧
      (interpreter.topScope files source).evaluate (String.ofList second) middle =
        (.ok (), finish) ∧ finish.unplaced = last.unplaced := by
  have hscope := ignoresPositions_topScope interpreter files source
  have hdot := text_includeLine file ▸ head_includeLine file
  obtain ⟨location, hread⟩ := Scope.readLines_called hscope s hdot (ofWords?_includeLine file)
    (lineTail_lineFeed second)
  rw [text_includeLine, h, perform_topScope, perform_include, includeFile_eq] at hread
  cases hrefused : interpreter.refused? files [] (Path.resolve source file) with
  | some fault =>
    rw [hrefused] at hread
    cases (Prod.mk.inj hread).1
  | none =>
    simp only [hrefused, openFile, hopen, List.nil_append] at hread
    rcases hbody : interpreter.included files interpreter.maxIncludeDepth [identity]
      (Path.resolve source file) body s with ⟨error | value, middle⟩
    · rw [hbody] at hread
      cases (Prod.mk.inj hread).1
    · rw [hbody, Outcome.andThen, Scope.readLines_drop_lineEnds hscope,
        Scope.readLines_lineFeed hscope] at hread
      obtain ⟨finish, hfinish, hlast⟩ := Outcome.eq_ok_of_unplaced hread.symm
      exact ⟨((interpreter.refused?_eq_none_iff _ _ _).1 hrefused).1, middle, finish, rfl, hfinish,
        hlast⟩

end

/-- When a text succeeds that includes a file of its own directory, it does so with the text of the
file in the place of that line: the configuration is the same, and so are the warnings apart from
their places. -/
theorem evalNamed_spliced (interpreter : Interpreter) {files : FileTree}
    {source file first body second : String} {identity : Identity} {config between after : Config}
    {earlier warnings : List Warning} (hname : Path.IsPlainName file)
    (hopen : files.openText (Path.resolve source file) = .ok (identity, body))
    (hfirst : first.toList.getLast? ≠ some '\r') (hbody : body.toList.getLast? ≠ some '\r')
    (hbefore : interpreter.evalNamed files source first config = (.ok earlier, between))
    (h : interpreter.evalNamed files source (first ++ "\n" ++ includeLine file ++ "\n" ++ second)
      config = (.ok warnings, after)) :
    ∃ found, interpreter.evalNamed files source (first ++ "\n" ++ body ++ "\n" ++ second) config =
        (.ok found, after) ∧ found.map Warning.name = warnings.map Warning.name := by
  have hscope := ignoresPositions_topScope interpreter files source
  have hstart := outcome_eq_ok hbefore
  have hjoined := outcome_eq_ok h
  rw [evaluate_eq_topScope] at hstart hjoined
  generalize hbetween : (⟨between, earlier⟩ : Session) = start at hstart
  have htext (line : String) : (first ++ "\n" ++ line ++ "\n" ++ second) =
      String.ofList (first.toList ++ '\n' :: (line.toList ++ '\n' :: second.toList)) := by
    rw [← String.toList_inj]
    simp
  have hbehind (line : String) :
      Outcome.unplaced ((interpreter.topScope files source).evaluate
        (first ++ "\n" ++ line ++ "\n" ++ second) (.ofConfig config)) =
      (interpreter.topScope files source).readLines (line.toList ++ '\n' :: second.toList)
        start := by
    rw [← String.ofList_toList (s := first)] at hstart
    rw [htext]
    exact Scope.evaluate_append_lineFeed _ hscope
      (fun hcr => hfirst (Token.return_suffix_iff.1 hcr)) hstart
  have hincluded : (interpreter.topScope files source).readLines
      ((includeLine file).toList ++ '\n' :: second.toList) start =
      Outcome.unplaced (.ok (), ⟨after, warnings⟩) := by
    rw [← hbehind, hjoined]
  obtain ⟨hdepth, middle, finish, hmiddle, hfinish, hlast⟩ := exists_of_includeLine hopen hincluded
  -- The text of the file, and then what follows it, go as they do behind the line.
  have hfile := follows_spliced interpreter files identity source body hname hdepth
    (s := start) ⟨rfl, rfl⟩
  rw [hmiddle, evaluate_eq_topScope] at hfile
  obtain ⟨_, spliced, hspliced, -, hsame⟩ := hfile.exists_ok
  have hrest := follows_topScope interpreter files source second hsame
  rw [String.ofList_toList] at hfinish
  rw [hfinish] at hrest
  obtain ⟨_, final, hfinal, -, hconfig, hnames⟩ := hrest.exists_ok
  have hread : (interpreter.topScope files source).readLines
      (body.toList ++ '\n' :: second.toList) start = Outcome.unplaced (.ok (), final) := by
    rw [← String.ofList_toList (s := body)] at hspliced
    rw [Scope.evaluate_append_lineFeed _ hscope (fun hcr => hbody (Token.return_suffix_iff.1 hcr))
      hspliced, Scope.readLines, String.ofList_toList, hfinal]
  rw [← hbehind] at hread
  obtain ⟨last, hfound, hunplaced⟩ := Outcome.eq_ok_of_unplaced hread
  refine ⟨last.warnings, ?_, ?_⟩
  · have hafter : last.config = after := by
      rw [(Session.unplaced_eq_iff.1 hunplaced).1, ← hconfig, (Session.unplaced_eq_iff.1 hlast).1]
    rw [evalNamed, outcome, evaluate_eq_topScope, hfound, ← hafter]
    rfl
  · rw [Session.names_of_unplaced hunplaced, ← hnames, Session.names_of_unplaced hlast]

/-- The name of the file has to be quoted. The file includes another one from a directory next to
it, on a line without an end. -/
theorem evalNamed_spliced_nested :
    let body := "B = b $UNSET\n.include deep/leaf"
    let files := ((((FileTree.empty.addDirectory "d").addDirectory "d/deep").addFile "d/it's part"
      body.toUTF8).addFile "d/deep/leaf" "$A leaf".toUTF8)
    let after := Config.ofLists [("A", ["a"]), ("B", ["b"]), ("C", ["b"])] [["a", "leaf"]]
    Path.IsPlainName "it's part" ∧
      standard.evalNamed files "d/main"
          ("A = a" ++ "\n" ++ includeLine "it's part" ++ "\n" ++ "C = $B") .empty =
        (.ok [⟨"UNSET", ⟨"d/it's part", ⟨1, 7, 6⟩⟩⟩], after) ∧
      ∃ found, standard.evalNamed files "d/main"
          ("A = a" ++ "\n" ++ body ++ "\n" ++ "C = $B") .empty = (.ok found, after) ∧
        found.map Warning.name = ["UNSET"] := by
  intro body files after
  have hname : Path.IsPlainName "it's part" :=
    ⟨by decide, by decide +kernel, by decide, by decide⟩
  have hopen : files.openText (Path.resolve "d/main" "it's part") =
      .ok (⟨true, ["private", "work", "d", "it's part"]⟩, body) := by decide +kernel
  have hfirst : standard.evalNamed files "d/main" "A = a" .empty =
      (.ok [], Config.ofLists [("A", ["a"])] []) :=
    eq_ok_of_toOption (by decide +kernel) (by decide +kernel)
  have hincluded : standard.evalNamed files "d/main"
      ("A = a" ++ "\n" ++ includeLine "it's part" ++ "\n" ++ "C = $B") .empty =
      (.ok [⟨"UNSET", ⟨"d/it's part", ⟨1, 7, 6⟩⟩⟩], after) :=
    eq_ok_of_toOption (by decide +kernel) (by decide +kernel)
  exact ⟨hname, hincluded, evalNamed_spliced standard hname hopen (by decide +kernel)
    (by decide +kernel) hfirst hincluded⟩

end Interpreter

end ShellConfig
