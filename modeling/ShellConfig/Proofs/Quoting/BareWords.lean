import ShellConfig.Proofs.Interpreter.Composition
import ShellConfig.Proofs.Lexer.Lengths
import ShellConfig.Proofs.Quoting.Escape

/-!
Words that need no quotes. Bare words are the words that are escaped as they are
(`escape_eq_self_iff`), and those that are read as they are: every other word, written without
quotes, fails, or gives fewer characters or other words. Main statement:
`Interpreter.isBareWord_iff_evalNamed`.
-/

set_option autoImplicit false

namespace ShellConfig

/-! ## Escaping -/

theorem length_le_flatMap_escapeChar (chars : List Char) :
    chars.length ≤ (chars.flatMap escapeChar).length := by
  induction chars with
  | nil => exact Nat.le_refl _
  | cons c chars ih =>
    have hchar : 1 ≤ (escapeChar c).length := by
      unfold escapeChar
      split <;> exact Nat.le_add_left 1 _
    rw [List.flatMap_cons, List.length_append, List.length_cons]
    omega

/-- The quotes make a word longer. -/
theorem escape_eq_self_iff {word : String} : escape word = word ↔ isBareWord word := by
  refine ⟨fun h => ?_, escape_eq_self_of_isBareWord⟩
  unfold escape at h
  split at h
  · next hbare => exact hbare
  · have hle := length_le_flatMap_escapeChar word.toList
    have hlength := congrArg (fun text : String => text.toList.length) h
    simp only [String.toList_ofList, List.cons_append, List.length_cons,
      List.length_append] at hlength
    omega

/-! ## Reading -/

section
variable {scope : Scope} {word name : String} {session last : Session}

theorem read_bareWord (hscope : scope.IgnoresPositions) (hbare : isBareWord word) :
    scope.read ⟨word.toList, false, none, [], .set name⟩ session =
      Outcome.unplaced
        (.ok (), { session with config := session.config.set name [word] }) := by
  obtain ⟨hne, hchars⟩ := isBareWord_iff.1 hbare
  have hread : scope.read ⟨word.toList ++ [], false, none, [], .set name⟩ session =
      scope.read ⟨[], false, Scope.extend none word.toList, [], .set name⟩ session :=
    Scope.read_bare hscope hne hchars
  rw [List.append_nil] at hread
  rw [hread]
  refine Scope.read_nil ?_
  simp [Scope.extend, Operation.apply]

theorem ne_nil_of_read
    (h : scope.read ⟨word.toList, false, none, [], .set name⟩ session =
      Outcome.unplaced (.ok (), last))
    (hvalue : last.config.get? name = some [word]) : word.toList ≠ [] := by
  intro hnil
  have hempty : scope.read ⟨[], false, none, [], .set name⟩ session =
      Outcome.unplaced (.ok (), { session with config := session.config.set name [] }) :=
    Scope.read_nil rfl
  rw [hnil, hempty] at h
  have hconfig : session.config.set name [] = last.config :=
    congrArg (fun outcome : Outcome Unit => outcome.2.config) h
  rw [← hconfig, Config.get?_set, if_pos rfl] at hvalue
  cases Option.some.inj hvalue

/-- A word that is read as it is, is bare: any other piece than bare text loses characters. -/
theorem isBareWord_of_read (hline : '\n' ∉ word.toList)
    (hunset : ∀ name, session.config.get? name = none)
    (h : scope.read ⟨word.toList, false, none, [], .set name⟩ session =
      Outcome.unplaced (.ok (), last))
    (hvalue : last.config.get? name = some [word]) : isBareWord word := by
  have hne := ne_nil_of_read h hvalue
  -- The values have as many characters as the text, so nothing in it can have been lost.
  obtain ⟨finish, hrun, hsession⟩ := Outcome.eq_ok_of_unplaced h
  have hrest : (Reading.lexer ⟨word.toList, false, none, [], .set name⟩).cursor.rest =
      word.toList := Scope.rest_lexer _
  have hfits : (Reading.lexer ⟨word.toList, false, none, [], .set name⟩).Fits .dispatch := trivial
  obtain ⟨values, hconfig, hyields⟩ :=
    Lexer.exists_yields_of_run hfits (by decide) rfl (by rwa [hrest]) hunset hrun
  rw [← (Session.unplaced_eq_iff.1 hsession).1, hconfig, Config.get?_set, if_pos rfl] at hvalue
  obtain rfl := Option.some.inj hvalue
  have hsize : (Reading.lexer ⟨word.toList, false, none, [], .set name⟩).size =
      charCount [word] := by
    rw [charCount_singleton, ← String.length_toList, Lexer.size, hrest]
    exact Nat.zero_add _
  have hbare := hyields.bare hsize.symm rfl
  rw [hrest] at hbare
  exact isBareWord_iff.2 ⟨hne, hbare⟩

end

namespace Interpreter

/-- A word without a line feed is bare exactly when it is escaped as it is, and exactly when it is
read as it is: written without quotes, it becomes the only word of a variable. -/
theorem isBareWord_iff_evalNamed (interpreter : Interpreter) (files : FileTree) (source : String)
    {word : String} (hline : '\n' ∉ word.toList) :
    (isBareWord word ↔ escape word = word) ∧
      (isBareWord word ↔ ∃ warnings after,
        interpreter.evalNamed files source ("W = " ++ word) .empty = (.ok warnings, after) ∧
          after.get? "W" = some [word]) := by
  obtain ⟨nested, hscope, heval⟩ :=
    evaluate_eq_scope interpreter files interpreter.maxIncludeDepth [] source
  have htext : String.ofList ("W = " ++ word).toList = "W = " ++ word := String.ofList_toList
  have hread : (interpreter.scope files nested [] source).readLines ("W = " ++ word).toList
        (.ofConfig .empty) =
      (interpreter.scope files nested [] source).read
        ⟨word.toList, false, none, [], .set "W"⟩ (.ofConfig .empty) := by
    rw [← Scope.readLines_set hscope (by decide), String.ofList_toList]
    rfl
  refine ⟨escape_eq_self_iff.symm, fun hbare => ?_, ?_⟩
  · have hresult := evalNamed_of_readLines heval (Config.empty.set "W" [word])
      (hread.trans (read_bareWord hscope hbare))
    rw [htext] at hresult
    exact ⟨[], _, hresult, by rw [Config.get?_set, if_pos rfl]⟩
  · rintro ⟨warnings, after, hresult, hvalue⟩
    have hevaluate := outcome_eq_ok hresult
    rw [heval] at hevaluate
    rw [Scope.readLines, htext, hevaluate] at hread
    exact isBareWord_of_read hline (fun _ => rfl) hread.symm hvalue

/-- A word that is bare though it holds an equals sign, and one whose end would be a comment. -/
theorem isBareWord_iff_evalNamed_signs :
    ('\n' ∉ "a=b".toList ∧ isBareWord "a=b" ∧
      ∃ warnings after,
        standard.evalNamed .empty "main" ("W = " ++ "a=b") .empty = (.ok warnings, after) ∧
          after.get? "W" = some ["a=b"]) ∧
    ('\n' ∉ "a#b".toList ∧ escape "a#b" ≠ "a#b" ∧
      ¬ ∃ warnings after,
        standard.evalNamed .empty "main" ("W = " ++ "a#b") .empty = (.ok warnings, after) ∧
          after.get? "W" = some ["a#b"]) := by
  have hbare : isBareWord "a=b" := by decide
  have hquoted : ¬ isBareWord "a#b" := by decide
  have hequals : '\n' ∉ "a=b".toList := by decide
  have hhash : '\n' ∉ "a#b".toList := by decide
  obtain ⟨-, hread⟩ := isBareWord_iff_evalNamed standard .empty "main" hequals
  obtain ⟨hescape, hcut⟩ := isBareWord_iff_evalNamed standard .empty "main" hhash
  exact ⟨⟨hequals, hbare, hread.1 hbare⟩,
    ⟨hhash, (not_congr hescape).1 hquoted, (not_congr hcut).1 hquoted⟩⟩

end Interpreter
end ShellConfig
