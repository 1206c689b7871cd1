import ShellConfig.Proofs.File.Identity
import ShellConfig.Proofs.Interpreter.Coupling
import ShellConfig.Proofs.Interpreter.Evaluator
import ShellConfig.Proofs.Quoting.Directive

/-!
Loading a file and evaluating its text under its path. The file itself counts as open in the one
evaluation and not in the other, so they agree when their limits are one apart
(`Interpreter.loadsOneLevelApart`), and a chain of includes can be one file longer where only its
text is evaluated (`IncludeChain.tooDeep_iff`). Main statement: `Interpreter.load_oneLevelDeeper`.
-/

set_option autoImplicit false

namespace ShellConfig
open Correspondence

/-- The error with another limit in it, if it tells one. -/
def Error.withLimit (limit : Nat) : Error → Error
  | .directive (.includeDepthExceeded _) location =>
    .directive (.includeDepthExceeded limit) location
  | error => error

theorem Error.withLimit_directive {fault : DirectiveFault}
    (h : ∀ limit, fault ≠ .includeDepthExceeded limit) (limit : Nat) (location : Location) :
    (Error.directive fault location).withLimit limit = .directive fault location := by
  cases fault with
  | includeDepthExceeded other => exact absurd rfl (h other)
  | includeArity | unknown | failed | includeCycle => rfl

/-! ## One level apart -/

/-- Equal evaluations, but for the limit in their errors, which is one greater on the left. A file
that is open on the left only may be refused there. -/
def Coupling.oneLevelApart (files : FileTree) (identity : Identity) (limit : Nat) : Coupling where
  errors left right := ∃ error : Error,
    left = error.withLimit (limit + 1) ∧ right = error.withLimit limit
  sessions := Eq
  places := Eq
  excused error := ∃ path location, error = .directive (.includeCycle path) location ∧
    files.identity path = identity
  places_refl _ := rfl
  config_eq hs := congrArg Session.config hs
  update config hs := congrArg (fun session : Session => { session with config }) hs
  warn name hs hplaces := by rw [hs, hplaces]
  lexical fault hplaces := ⟨.lexical fault _, rfl, by rw [← hplaces]; rfl⟩
  directive fault hfault hplaces := by
    refine ⟨.directive fault _, (Error.withLimit_directive hfault _ _).symm, ?_⟩
    rw [Error.withLimit_directive hfault, hplaces]
  file path fault hplaces := ⟨.file path _ fault, rfl, by rw [← hplaces]; rfl⟩

namespace Interpreter

/-- The interpreter with a limit of its own for open files. -/
def withMaxIncludeDepth (interpreter : Interpreter) (maxIncludeDepth : Nat) : Interpreter :=
  { interpreter with maxIncludeDepth }

variable (interpreter : Interpreter) (files : FileTree)

/-- With one more file open the greater limit refuses what the smaller one does, and that file. -/
theorem joins_oneLevelApart (identity : Identity) (limit : Nat) :
    (Coupling.oneLevelApart files identity limit).Joins files
      (fun active opened => active = identity :: opened)
      (interpreter.withMaxIncludeDepth (limit + 1)) (interpreter.withMaxIncludeDepth limit) where
  undefined := rfl
  directives := rfl
  push other hstacks := by rw [hstacks, List.cons_append]
  refused := by
    rintro active opened path fault left _ rfl rfl hrefused
    unfold refused? withMaxIncludeDepth at *
    simp only [List.length_cons, Nat.add_le_add_iff_right] at *
    split at hrefused
    · next hdepth =>
      obtain rfl := Option.some.inj hrefused
      rw [if_pos hdepth]
      exact .inr ⟨_, rfl, .directive (.includeDepthExceeded limit) left, rfl, rfl⟩
    · next hdepth =>
      split at hrefused
      · next hactive =>
        obtain rfl := Option.some.inj hrefused
        obtain hsame | hopened := List.mem_cons.1 (isActive_iff.1 hactive)
        · exact .inl ⟨path, left, rfl, hsame⟩
        · rw [if_neg hdepth, if_pos (isActive_iff.2 hopened)]
          exact .inr ⟨_, rfl, .directive (.includeCycle path) left, rfl, rfl⟩
      · cases hrefused
  accepted := by
    rintro active opened path rfl haccepted
    rw [refused?_eq_none_iff] at haccepted ⊢
    obtain ⟨hdepth, hactive⟩ := haccepted
    refine ⟨Nat.lt_of_succ_lt_succ hdepth, ?_⟩
    rw [isActive_eq_false_iff] at hactive ⊢
    exact fun hopened => hactive (List.mem_cons_of_mem _ hopened)

/-- Loading a file ends with the refusal to include that file again, or it answers what evaluating
its text under its path answers with a limit that is one smaller, but for that limit. -/
def LoadsOneLevelApart (path text : String) (identity : Identity) (limit : Nat) (config : Config) :
    Prop :=
  (∃ cyclic location after, files.identity cyclic = identity ∧
    (interpreter.withMaxIncludeDepth (limit + 1)).load files path config =
      (.error (.directive (.includeCycle cyclic) location), after)) ∨
  ∃ (result : Except Error (List Warning)) (after : Config),
    (interpreter.withMaxIncludeDepth (limit + 1)).load files path config =
      (result.mapError (Error.withLimit (limit + 1)), after) ∧
    (interpreter.withMaxIncludeDepth limit).evalNamed files path text config =
      (result.mapError (Error.withLimit limit), after)

section
variable {interpreter files} {path text : String} {identity : Identity}
  (hopen : files.openText path = .ok (identity, text))
include hopen

theorem load_eq (config : Config) : interpreter.load files path config =
    outcome (interpreter.evaluate files interpreter.maxIncludeDepth [identity] path text)
      config := by
  have hfile : openFile files (interpreter.evaluate files interpreter.maxIncludeDepth) [] path
      none = interpreter.evaluate files interpreter.maxIncludeDepth [identity] path text := by
    funext session
    simp only [openFile, hopen, List.nil_append]
  rw [load, hfile]

theorem loadsOneLevelApart (limit : Nat) (config : Config) :
    LoadsOneLevelApart interpreter files path text identity limit config := by
  have hfollows : (Coupling.oneLevelApart files identity limit).Follows (fun _ _ => True)
      ((interpreter.withMaxIncludeDepth (limit + 1)).evaluate files (limit + 1) [identity] path text
        (.ofConfig config))
      ((interpreter.withMaxIncludeDepth limit).evaluate files (limit + 1) [] path text
        (.ofConfig config)) :=
    (joins_oneLevelApart interpreter files identity limit).included (limit + 1 + 1) _ _ _ _ _ _
      rfl rfl
  -- The text alone is evaluated with a smaller bound for the files that can still be opened.
  have hbound : (interpreter.withMaxIncludeDepth limit).evaluate files (limit + 1) [] =
      (interpreter.withMaxIncludeDepth limit).evaluate files limit [] :=
    Evaluator.evaluate_eq_of_le _ files (Nat.le_succ limit) (Nat.le_refl limit)
  have hlimit (limit : Nat) : (interpreter.withMaxIncludeDepth limit).maxIncludeDepth = limit := rfl
  rw [hbound] at hfollows
  unfold LoadsOneLevelApart
  rw [load_eq hopen, evalNamed, outcome, outcome, hlimit, hlimit]
  generalize (interpreter.withMaxIncludeDepth (limit + 1)).evaluate files (limit + 1) [identity]
    path text (.ofConfig config) = left at hfollows
  generalize (interpreter.withMaxIncludeDepth limit).evaluate files limit [] path text
    (.ofConfig config) = right at hfollows
  obtain ⟨error, herror, cyclic, location, rfl, hsame⟩ | hrelates := hfollows
  · obtain ⟨result, last⟩ := left
    obtain rfl : result = _ := herror
    exact .inl ⟨cyclic, location, last.config, hsame, rfl⟩
  · right
    rcases left with ⟨error | value, s⟩ <;> rcases right with ⟨other | value', t⟩
    · obtain ⟨⟨error, rfl, rfl⟩, rfl⟩ := hrelates
      exact ⟨.error error, s.config, rfl, rfl⟩
    · exact hrelates.elim
    · exact hrelates.elim
    · obtain ⟨-, rfl⟩ := hrelates
      exact ⟨.ok s.warnings, s.config, rfl, rfl⟩

end

end Interpreter

/-! ## Chains of includes -/

/-- The text under a path begins a chain of files at these places: it includes the first of them and
does nothing else, each of them does so with the next, and the last text is empty. -/
inductive IncludeChain (files : FileTree) : String → String → List Place → Prop
  | last {path : String} : IncludeChain files path "" []
  | link {path text argument next : String} {identity : Identity} {place : Place}
    {places : List Place}
    (hcall : IsCall text.toList ⟨DirectiveCall.includeName, [argument]⟩)
    (hopen : files.openText (Path.resolve path argument) = .ok (identity, next))
    (hplace : files.locate (Path.resolve path argument) = .ok place)
    (hnew : place ∉ places) (hrest : IncludeChain files (Path.resolve path argument) next places) :
    IncludeChain files path text (place :: places)

/-- Nothing at these places is known as one of the open files. -/
def FileTree.Closed (files : FileTree) (active : List Identity) (places : List Place) : Prop :=
  ∀ path place, files.locate path = .ok place → place ∈ places → files.identity path ∉ active

theorem FileTree.Closed.push {files : FileTree} {active : List Identity} {places : List Place}
    {path : String} {place : Place} (h : files.Closed active places)
    (hplace : files.locate path = .ok place) (hnew : place ∉ places) :
    files.Closed (active ++ [files.identity path]) places := by
  intro other target htarget hmem hopened
  obtain hold | hlast := List.mem_append.1 hopened
  · exact h other target htarget hmem hold
  · have hsame := eq_of_identity_eq htarget hplace (List.mem_singleton.1 hlast)
    exact hnew (hsame ▸ hmem)

/-- The evaluation of a text that is a call of `include` is that of the file. -/
theorem Interpreter.included_isCall (interpreter : Interpreter) (files : FileTree) (number : Nat)
    (active : List Identity) (path : String) {text argument : String}
    (hcall : IsCall text.toList ⟨DirectiveCall.includeName, [argument]⟩) (session : Session) :
    ∃ location,
      Outcome.unplaced (interpreter.included files (number + 1) active path text session) =
        Outcome.unplaced (interpreter.includeFile files (interpreter.included files number) active
          (Path.resolve path argument) location session) := by
  have hscope := ignoresPositions_scope interpreter files
    (ignoresEarlier_included interpreter files number) active path
  obtain ⟨location, hline⟩ := Scope.readLines_isCall hscope session hcall
  rw [Scope.readLines, String.ofList_toList, perform_scope, perform_include] at hline
  refine ⟨location, ?_⟩
  rw [included, evaluate_eq, hline]

/-- The result is the refusal to have one more file open. -/
def TooDeep {α : Type} (result : Except Error α) : Prop :=
  ∃ limit location, result = .error (.directive (.includeDepthExceeded limit) location)

theorem tooDeep_unplaced (outcome : Outcome Unit) :
    TooDeep (Outcome.unplaced outcome).1 ↔ TooDeep outcome.1 := by
  unfold Outcome.unplaced
  rcases outcome with ⟨error | value, session⟩
  · constructor
    · rintro ⟨limit, location, herror⟩
      rcases error with _ | ⟨fault, place⟩ | _ <;> cases herror
      exact ⟨limit, place, rfl⟩
    · rintro ⟨limit, location, herror⟩
      obtain rfl := Except.error.inj herror
      exact ⟨limit, location.unplaced, rfl⟩
  · exact Iff.rfl

theorem tooDeep_outcome (evaluation : Evaluation Unit) (config : Config) :
    TooDeep (Interpreter.outcome evaluation config).1 ↔
      TooDeep (evaluation (.ofConfig config)).1 := by
  unfold Interpreter.outcome
  rcases evaluation (.ofConfig config) with ⟨error | value, session⟩
  · constructor <;>
    · rintro ⟨limit, location, herror⟩
      obtain rfl := Except.error.inj herror
      exact ⟨limit, location, rfl⟩
  · exact ⟨nofun, nofun⟩

/-- While other files are open, the chain comes to the limit with the last file that it opens. The
induction is on the chain, with each file of it on the stack for the rest. -/
theorem IncludeChain.tooDeep_iff (interpreter : Interpreter) {files : FileTree} {path text : String}
    {places : List Place} (h : IncludeChain files path text places) {active : List Identity}
    (hactive : files.Closed active places) {number : Nat}
    (hnumber : interpreter.maxIncludeDepth ≤ number + active.length) (session : Session) :
    TooDeep (interpreter.included files (number + 1) active path text session).1 ↔
      places ≠ [] ∧ interpreter.maxIncludeDepth < active.length + places.length := by
  induction h generalizing active number session with
  | @last path =>
    have hempty : interpreter.included files (number + 1) active path "" session =
        (.ok (), session) := by
      rw [Interpreter.included, Interpreter.evaluate_eq]
      exact Lexer.run_blank _ session rfl rfl
    rw [hempty]
    constructor
    · rintro ⟨limit, location, herror⟩
      cases herror
    · exact fun h => absurd rfl h.1
  | @link path text argument next identity place places hcall hopen hplace hnew hrest ih =>
    obtain ⟨location, hline⟩ :=
      Interpreter.included_isCall interpreter files number active path hcall session
    rw [← tooDeep_unplaced, hline, tooDeep_unplaced, Interpreter.includeFile_eq]
    rw [List.length_cons]
    by_cases hdepth : interpreter.maxIncludeDepth ≤ active.length
    · have hrefused : interpreter.refused? files active (Path.resolve path argument) =
          some (.includeDepthExceeded interpreter.maxIncludeDepth) := if_pos hdepth
      rw [hrefused]
      exact ⟨fun _ => ⟨List.cons_ne_nil _ _, by omega⟩, fun _ => ⟨_, location, rfl⟩⟩
    · have hclosed := Interpreter.isActive_eq_false_iff.2
        (hactive _ _ hplace (List.mem_cons_self ..))
      have haccepted := (interpreter.refused?_eq_none_iff files active _).2
        ⟨Nat.not_le.1 hdepth, hclosed⟩
      obtain ⟨number, rfl⟩ := Nat.exists_eq_add_of_le' (show 1 ≤ number by omega)
      simp only [haccepted, Interpreter.openFile, hopen]
      have hrest : files.Closed (active ++ [identity]) places := by
        rw [← FileTree.identity_of_openText hopen]
        exact FileTree.Closed.push (fun other target htarget hmem =>
          hactive other target htarget (List.mem_cons_of_mem _ hmem)) hplace hnew
      have hfewer : interpreter.maxIncludeDepth ≤ number + (active ++ [identity]).length := by
        rw [List.length_append, List.length_singleton]
        omega
      rw [ih hrest hfewer, List.length_append, List.length_singleton]
      have hpos : places ≠ [] ↔ 0 < places.length := List.length_pos_iff.symm
      have hcons : place :: places ≠ [] := List.cons_ne_nil _ _
      simp only [hpos, hcons, ne_eq, not_false_eq_true, true_and]
      omega

namespace Interpreter

/-- Loading a file is evaluating its text under its path with the file itself open. So the limit has
to be one greater for the same answer, unless the file is refused as open already. Under one limit a
chain of includes is too deep when it reaches the limit if its first file is loaded, and when it
goes beyond the limit if only the text of that file is evaluated. -/
theorem load_oneLevelDeeper (interpreter : Interpreter) {files : FileTree} {path text : String}
    {identity : Identity} (hopen : files.openText path = .ok (identity, text)) (config : Config) :
    (∀ limit, LoadsOneLevelApart interpreter files path text identity limit config) ∧
      ∀ place places, files.locate path = .ok place → IncludeChain files path text places →
        place ∉ places →
        (TooDeep (interpreter.load files path config).1 ↔
          max interpreter.maxIncludeDepth 1 ≤ places.length) ∧
        (TooDeep (interpreter.evalNamed files path text config).1 ↔
          interpreter.maxIncludeDepth < places.length) := by
  refine ⟨fun limit => loadsOneLevelApart hopen limit config,
    fun place places hplace hchain hnew => ?_⟩
  have hpos : places ≠ [] ↔ 0 < places.length := List.length_pos_iff.symm
  have hclosed : files.Closed [] places := fun _ _ _ _ => List.not_mem_nil
  constructor
  · have hopened : files.Closed [identity] places := by
      rw [← FileTree.identity_of_openText hopen]
      exact hclosed.push hplace hnew
    have hiff := hchain.tooDeep_iff interpreter hopened (Nat.le_add_right _ _) (.ofConfig config)
    rw [load_eq hopen, tooDeep_outcome]
    refine hiff.trans ?_
    rw [hpos, List.length_singleton]
    omega
  · have hiff := hchain.tooDeep_iff interpreter hclosed (Nat.le_add_right _ _) (.ofConfig config)
    rw [evalNamed, tooDeep_outcome]
    refine hiff.trans ?_
    rw [hpos, List.length_nil]
    omega

/-- A chain of two files. Under the limit 1 it can be evaluated, and cannot be loaded. -/
theorem load_oneLevelDeeper_two :
    let files := ((FileTree.empty.addDirectory "d").addFile "d/first"
      (includeLine "second" ++ "\n").toUTF8).addFile "d/second" "".toUTF8
    let shallow : Interpreter := { maxIncludeDepth := 1 }
    let directory := ["private", "work", "d"]
    let first := Identity.ofPlace ⟨directory ++ ["first"]⟩
    files.openText "d/first" = .ok (first, includeLine "second" ++ "\n") ∧
      files.locate "d/first" = .ok ⟨directory ++ ["first"]⟩ ∧
      IncludeChain files "d/first" (includeLine "second" ++ "\n") [⟨directory ++ ["second"]⟩] ∧
      LoadsOneLevelApart shallow files "d/first" (includeLine "second" ++ "\n") first 1 .empty ∧
      TooDeep (shallow.load files "d/first" .empty).1 ∧
      ¬ TooDeep (shallow.evalNamed files "d/first" (includeLine "second" ++ "\n") .empty).1 := by
  intro files shallow directory first
  have hopen : files.openText "d/first" = .ok (first, includeLine "second" ++ "\n") := by
    decide +kernel
  have hplace : files.locate "d/first" = .ok ⟨directory ++ ["first"]⟩ := by decide +kernel
  have hopenNext : files.openText (Path.resolve "d/first" "second") =
      .ok (.ofPlace ⟨directory ++ ["second"]⟩, "") := by decide +kernel
  have hplaceNext : files.locate (Path.resolve "d/first" "second") =
      .ok ⟨directory ++ ["second"]⟩ := by decide +kernel
  have hcall : IsCall (includeLine "second" ++ "\n").toList
      ⟨DirectiveCall.includeName, ["second"]⟩ := by
    rw [String.toList_append]
    exact isCall_includeLine "second" (lineTail_lineFeed []) rfl
  have hchain : IncludeChain files "d/first" (includeLine "second" ++ "\n")
      [⟨directory ++ ["second"]⟩] := .link hcall hopenNext hplaceNext List.not_mem_nil .last
  obtain ⟨hapart, hdeep⟩ := load_oneLevelDeeper shallow hopen .empty
  obtain ⟨hload, heval⟩ := hdeep _ _ hplace hchain (by decide)
  exact ⟨hopen, hplace, hchain, hapart 1, hload.2 (by decide),
    fun h => absurd (heval.1 h) (by decide)⟩

end Interpreter

end ShellConfig
