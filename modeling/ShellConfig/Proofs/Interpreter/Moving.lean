import ShellConfig.Proofs.File.Moving
import ShellConfig.Proofs.Interpreter.IncludeStack
import ShellConfig.Proofs.Lexer.Renaming

/-!
A tree of files loaded from another directory. The evaluation of a file below a directory takes the
steps of its evaluation in the working directory (`Evaluator.advance_under`), with the directory
before every name, as long as the system takes the longer paths. Main statement:
`Interpreter.load_below`. Which files an evaluation includes can be computed
(`Evaluator.mem_of_includes?`).
-/

set_option autoImplicit false

namespace ShellConfig

/-! ## Lines that include a file -/

/-- The path by which the call includes a file, if it does so. -/
def DirectiveCall.path? (call : DirectiveCall) : Option String :=
  match call.arguments with
  | [argument] => if call.name = includeName then some argument else none
  | _ => none

theorem DirectiveCall.eq_of_path? {call : DirectiveCall} {argument : String}
    (h : call.path? = some argument) : call = ⟨includeName, [argument]⟩ := by
  obtain ⟨name, arguments⟩ := call
  unfold path? at h
  split at h
  · next found harguments =>
    split at h
    · next hname =>
      obtain rfl := Option.some.inj h
      exact congrArg₂ DirectiveCall.mk hname harguments
    · cases h
  · cases h

namespace Interpreter

theorem opened?_of_path? {interpreter : Interpreter} {files : FileTree} {active : List Identity}
    {source : String} {call : DirectiveCall} (h : call.path? = none) :
    interpreter.opened? files active source call = none := by
  rw [Option.eq_none_iff_forall_ne_some]
  rintro ⟨path, identity, text⟩ hopened
  obtain ⟨argument, rfl, -⟩ := opened?_eq_some hopened
  cases h

section
variable (interpreter : Interpreter) (names : String → String) (files others : FileTree)
  (nested : TextEvaluation) (active opened : List Identity) (source : String) (session : Session)

/-- What includes no file does the same under other names, whatever the files are. -/
theorem perform_renamed {call : DirectiveCall} (h : call.path? = none) (location : Location) :
    interpreter.perform others nested opened (names source) call (location.renamed names)
        (session.renamed names) =
      Outcome.renamed names
        (interpreter.perform files nested active source call location session) := by
  unfold perform
  split
  · next hname =>
    split
    · next argument harguments =>
      simp [DirectiveCall.path?, hname, harguments] at h
    · rfl
  · cases interpreter.directives.find? call.name with
    | none => rfl
    | some handler =>
      simp only [Session.config_renamed]
      rcases handler session.config call.name call.arguments with ⟨config, _ | cause⟩ <;> rfl

theorem step_renamed {lexer : Lexer} {mode : Mode}
    (h : ∀ ended continuation call, lexer.ended? mode = some (ended, continuation) →
      ended.called? = some call → call.path? = none) :
    Lexer.step (interpreter.scope others nested opened (names source)) mode lexer
        (session.renamed names) =
      Outcome.renamed names
        (Lexer.step (interpreter.scope files nested active source) mode lexer session) := by
  have hundefined : (interpreter.scope others nested opened (names source)).undefined =
      (interpreter.scope files nested active source).undefined := rfl
  exact Lexer.step_renamed hundefined rfl fun ended continuation call hended hcall =>
    perform_renamed interpreter names files others nested active opened source session
      (h ended continuation call hended hcall)

end

end Interpreter

namespace Evaluator

/-- The text whose line is about to include a file, and the path by which it does so. -/
def include? (state : Evaluator) : Option (String × String) :=
  match state.error, state.frames with
  | none, frame :: _ =>
    frame.next.bind fun next => (next.2.ended? next.1).bind fun found =>
      found.1.called?.bind fun call => call.path?.map fun argument => (frame.source, argument)
  | _, _ => none

end Evaluator

/-! ## States below a directory -/

/-- The text in the directory. Its file is known there by the path below the directory. -/
def Frame.under (files : FileTree) (directory : String) (frame : Frame) : Frame :=
  ⟨frame.identity.map fun _ => (files.under directory).identity (Path.below directory frame.source),
    Path.below directory frame.source, frame.text, frame.next⟩

namespace Evaluator

/-- The state with all files in the directory. -/
def under (files : FileTree) (directory : String) (state : Evaluator) : Evaluator :=
  ⟨identities (state.frames.map (Frame.under files directory)),
    state.frames.map (Frame.under files directory), state.session.renamed (Path.below directory),
    state.error.map (Error.renamed (Path.below directory))⟩

/-- The names of the texts are ordinary, and so is a path by which a file is about to be included,
which fits with the directory before it. -/
structure CanMove (directory : String) (state : Evaluator) : Prop where
  sources : ∀ frame ∈ state.frames, Path.IsOrdinary frame.source
  included : ∀ source argument, state.include? = some (source, argument) →
    Path.IsOrdinary argument ∧ Path.Fits directory (Path.resolve source argument)

section
variable {interpreter : Interpreter} {files : FileTree} {directory : String} {state : Evaluator}

theorem include?_eq_of_frame {frame : Frame} {below : List Frame} {mode : Mode}
    {lexer ended : Lexer} {continuation : Continuation} {call : DirectiveCall}
    (herror : state.error = none) (hframes : state.frames = frame :: below)
    (hnext : frame.next = some (mode, lexer))
    (hended : lexer.ended? mode = some (ended, continuation)) (hcall : ended.called? = some call) :
    state.include? = call.path?.map fun argument => (frame.source, argument) := by
  simp only [include?, herror, hframes, hnext, Option.bind_some, hended, hcall]

theorem include?_eq_some {source argument : String}
    (h : state.include? = some (source, argument)) :
    ∃ frame below mode lexer ended continuation,
      state.error = none ∧ state.frames = frame :: below ∧ frame.source = source ∧
      frame.next = some (mode, lexer) ∧ lexer.ended? mode = some (ended, continuation) ∧
      ended.called? = some ⟨DirectiveCall.includeName, [argument]⟩ := by
  unfold include? at h
  split at h
  · next frame below herror hframes =>
    obtain ⟨⟨mode, lexer⟩, hnext, h⟩ := Option.bind_eq_some_iff.1 h
    obtain ⟨⟨ended, continuation⟩, hended, h⟩ := Option.bind_eq_some_iff.1 h
    obtain ⟨call, hcall, h⟩ := Option.bind_eq_some_iff.1 h
    obtain ⟨found, hpath, hsame⟩ := Option.map_eq_some_iff.1 h
    obtain ⟨hsource, rfl⟩ := Prod.mk.inj hsame
    rw [DirectiveCall.eq_of_path? hpath] at hcall
    exact ⟨frame, below, mode, lexer, ended, continuation, herror, hframes, hsource, hnext, hended,
      hcall⟩
  · cases h

theorem entered?_eq_none (h : state.include? = none) {frame : Frame} {below : List Frame}
    {mode : Mode} {lexer : Lexer} (herror : state.error = none)
    (hframes : state.frames = frame :: below) (hnext : frame.next = some (mode, lexer))
    (interpreter : Interpreter) (files : FileTree) (active : List Identity) (source : String) :
    interpreter.entered? files active source mode lexer = none := by
  rw [Option.eq_none_iff_forall_ne_some]
  rintro ⟨⟨path, identity, text⟩, continuation⟩ hentered
  obtain ⟨ended, call, hended, hcall, hopened⟩ := Interpreter.entered?_eq_some hentered
  rw [include?_eq_of_frame herror hframes hnext hended hcall, Option.map_eq_none_iff] at h
  rw [Interpreter.opened?_of_path? h] at hopened
  cases hopened

theorem length_identities (frames : List Frame) :
    (identities (frames.map (Frame.under files directory))).length =
      (identities frames).length := by
  simp [identities, List.length_filterMap_eq_countP, Frame.under, Function.comp_def]

/-- Ordinary paths are known apart, so a file is open in the directory when it is open. -/
theorem isActive_below {limit : Nat} (h : Sound files limit state)
    (hsources : ∀ frame ∈ state.frames, Path.IsOrdinary frame.source)
    (hdirectory : Path.IsOrdinary directory) {path : String} (hpath : Path.IsOrdinary path) :
    Interpreter.isActive (files.under directory) (state.under files directory).active
      (Path.below directory path) = Interpreter.isActive files state.active path := by
  rw [Bool.eq_iff_iff, Interpreter.isActive_iff, Interpreter.isActive_iff, h.mem_active_iff, under,
    mem_identities_iff]
  simp only [List.mem_map, exists_exists_and_eq_and]
  refine exists_congr fun frame => and_congr_right fun hframe => ?_
  have hsource := hsources frame hframe
  rw [files.identity_eq_iff hsource hpath, ← (Path.below_injective directory).eq_iff,
    ← (files.under directory).identity_eq_iff (hdirectory.below hsource) (hdirectory.below hpath)]
  cases hidentity : frame.identity <;> simp [Frame.under, hidentity]

/-- A line that includes a file does so from the directory too. -/
theorem exists_including {source argument : String} (h : state.include? = some (source, argument))
    (files : FileTree) (directory : String) :
    ∃ location resumed, state.Including (Path.resolve source argument) location resumed ∧
      (state.under files directory).Including
        (Path.resolve (Path.below directory source) argument)
        (location.renamed (Path.below directory)) (resumed.map (Frame.under files directory)) ∧
      (state.under files directory).active =
        identities (resumed.map (Frame.under files directory)) := by
  obtain ⟨frame, below, mode, lexer, ended, continuation, herror, hframes, rfl, hnext, hended,
    hcall⟩ := include?_eq_some h
  refine ⟨_, _, ⟨frame, below, mode, lexer, ended, continuation, argument, herror, hframes, hnext,
      hended, hcall, rfl, rfl, rfl⟩,
    ⟨frame.under files directory, below.map (Frame.under files directory), mode, lexer, ended,
      continuation, argument, ?_, ?_, hnext, hended, hcall, rfl, rfl, rfl⟩, ?_⟩
  · rw [under, herror]
    rfl
  · rw [under, hframes]
    rfl
  · rw [under, hframes, List.map_cons, List.map_cons, identities_cons, identities_cons]
    rfl

/-! ## Steps -/

/-- A step that includes no file does not look at the files. -/
theorem scan_under (h : state.include? = none) {frame : Frame} {below : List Frame} {mode : Mode}
    {lexer : Lexer} (herror : state.error = none) (hframes : state.frames = frame :: below)
    (hnext : frame.next = some (mode, lexer)) (interpreter : Interpreter)
    (files : FileTree) (directory : String) :
    (state.under files directory).scan interpreter (files.under directory)
        (frame.under files directory) (below.map (Frame.under files directory)) mode lexer =
      (state.scan interpreter files frame below mode lexer).under files directory := by
  have hentered := entered?_eq_none h herror hframes hnext interpreter
  have hstep : Lexer.step (interpreter.scope (files.under directory)
        (interpreter.included files 0) (state.under files directory).active
        (frame.under files directory).source) mode lexer (state.under files directory).session =
      Outcome.renamed (Path.below directory)
        (Lexer.step (interpreter.scope files (interpreter.included files 0) state.active
          frame.source) mode lexer state.session) := by
    refine interpreter.step_renamed _ files _ _ state.active _ _ state.session ?_
    intro ended continuation call hended hcall
    rwa [include?_eq_of_frame herror hframes hnext hended hcall, Option.map_eq_none_iff] at h
  rw [scan_of_not_entered (hentered files _ _) (interpreter.included files 0),
    scan_of_not_entered (hentered (files.under directory) _ _) (interpreter.included files 0),
    hstep]
  rcases Lexer.step _ mode lexer state.session with ⟨error | continuation, session⟩
  · rfl
  · have hactive : (state.under files directory).active =
        identities (({ frame with next := continuation } :: below).map
          (Frame.under files directory)) := by
      rw [under, hframes, List.map_cons, List.map_cons, identities_cons, identities_cons]
      rfl
    exact congrArg (Evaluator.mk · _ _ _) hactive

theorem leave_under (files : FileTree) {frame : Frame} {below : List Frame}
    (hframes : state.frames = frame :: below) (directory : String) :
    (state.under files directory).leave (frame.under files directory)
        (below.map (Frame.under files directory)) =
      (state.leave frame below).under files directory := by
  simp only [leave, under, hframes, List.map_cons, closed_identities]

variable (hdirectory : Path.IsOrdinary directory) (hpossible : Path.IsPossible directory)
include hdirectory hpossible

/-- A line that includes a file comes to the same decision. -/
theorem advance_under_of_include {limit : Nat} (hsound : Sound files limit state)
    (hsources : ∀ frame ∈ state.frames, Path.IsOrdinary frame.source) {source argument : String}
    (h : state.include? = some (source, argument)) (hsource : Path.IsOrdinary source)
    (hargument : Path.IsOrdinary argument)
    (hfits : Path.Fits directory (Path.resolve source argument)) (interpreter : Interpreter) :
    advance interpreter (files.under directory) (state.under files directory) =
      (advance interpreter files state).map (Evaluator.under files directory) := by
  obtain ⟨location, resumed, hincluding, hmoved, hresumed⟩ := exists_including h files directory
  have hpath := Path.isOrdinary_resolve hsource hargument
  rw [Path.resolve_below hsource hargument hdirectory] at hmoved
  generalize Path.resolve source argument = path at *
  have hlength : (state.under files directory).active.length = state.active.length := by
    rw [hsound.active_eq]
    exact length_identities state.frames
  rw [advance_including interpreter _ hmoved, advance_including interpreter _ hincluding, hlength,
    isActive_below hsound hsources hdirectory hpath,
    FileTree.openText_below hdirectory hpossible hpath hfits]
  split
  · rfl
  · split
    · rfl
    · cases files.openText path with
      | error fault => rfl
      | ok found =>
        simp only [Except.map, Option.map_some, enter, hresumed]
        simp [under, identities_cons, Frame.ofFile, Frame.under]

omit hdirectory hpossible in
/-- Where no file is included a text is left, or its scan goes on or fails. -/
theorem advance_under_of_not_include (h : state.include? = none) (interpreter : Interpreter)
    (files : FileTree) (directory : String) :
    advance interpreter (files.under directory) (state.under files directory) =
      (advance interpreter files state).map (Evaluator.under files directory) := by
  cases hframes : state.frames with
  | nil => simp [advance, under, hframes]
  | cons frame below =>
    have hmoved : (state.under files directory).frames =
        frame.under files directory :: below.map (Frame.under files directory) := by
      rw [under, hframes]
      rfl
    by_cases hdone : state.error ≠ none ∨ frame.next = none
    · have hmovedDone : (state.under files directory).error ≠ none ∨
          (frame.under files directory).next = none := by
        simpa [under, Frame.under] using hdone
      rw [advance_of_done hmoved hmovedDone, advance_of_done hframes hdone, leave_under _ hframes]
      rfl
    · obtain ⟨herror, hgoes⟩ := not_or.1 hdone
      rw [not_ne_iff] at herror
      obtain ⟨⟨mode, lexer⟩, hnext⟩ := Option.ne_none_iff_exists'.1 hgoes
      have hmovedError : (state.under files directory).error = none := by
        rw [under, herror]
        rfl
      have hmovedNext : (frame.under files directory).next = some (mode, lexer) := hnext
      rw [advance_of_next hmoved hmovedError hmovedNext, advance_of_next hframes herror hnext,
        scan_under h herror hframes hnext interpreter files]
      rfl

omit hdirectory hpossible in
theorem CanMove.sources_of_frames (h : state.CanMove directory) {frame : Frame}
    {below : List Frame} (hframes : state.frames = frame :: below) :
    Path.IsOrdinary frame.source ∧ ∀ other ∈ below, Path.IsOrdinary other.source := by
  have hsources := h.sources
  rw [hframes] at hsources
  exact List.forall_mem_cons.1 hsources

/-- A step in the directory is the step in the working directory. -/
theorem advance_under {limit : Nat} (hsound : Sound files limit state) (h : state.CanMove directory)
    (interpreter : Interpreter) :
    advance interpreter (files.under directory) (state.under files directory) =
      (advance interpreter files state).map (Evaluator.under files directory) := by
  cases hincludes : state.include? with
  | some found =>
    obtain ⟨source, argument⟩ := found
    obtain ⟨frame, below, -, -, -, -, -, hframes, rfl, -⟩ := include?_eq_some hincludes
    obtain ⟨hargument, hfits⟩ := h.included _ _ hincludes
    exact advance_under_of_include hdirectory hpossible hsound h.sources hincludes
      (h.sources_of_frames hframes).1 hargument hfits interpreter
  | none => exact advance_under_of_not_include hincludes interpreter files directory

/-! ## Whole evaluations -/

omit hdirectory hpossible in
/-- The names of the texts stay ordinary. -/
theorem sources_of_advance {next : Evaluator} (h : state.CanMove directory)
    (hnext : advance interpreter files state = some next) :
    ∀ frame ∈ next.frames, Path.IsOrdinary frame.source := by
  cases move_of_advance hnext with
  | leave hframes _ => exact (h.sources_of_frames hframes).2
  | @enter frame below mode lexer path text identity continuation hframes herror hgoes hentered =>
    obtain ⟨ended, call, hended, hcall, hopened⟩ := Interpreter.entered?_eq_some hentered
    obtain ⟨argument, rfl, rfl, -⟩ := Interpreter.opened?_eq_some hopened
    obtain ⟨hsource, hbelow⟩ := h.sources_of_frames hframes
    have hargument := (h.included frame.source argument
      (include?_eq_of_frame herror hframes hgoes hended hcall)).1
    have hpath := Path.isOrdinary_resolve hsource hargument
    exact List.forall_mem_cons.2 ⟨hpath, List.forall_mem_cons.2 ⟨hsource, hbelow⟩⟩
  | goOn hframes =>
    obtain ⟨hsource, hbelow⟩ := h.sources_of_frames hframes
    exact List.forall_mem_cons.2 ⟨hsource, hbelow⟩
  | fail => exact h.sources

/-- An evaluation is followed step by step in the directory, as long as what it includes allows
it. -/
theorem reaches_under {config : Config} {entry : Entry} {last : Evaluator}
    (hstart : ∀ frame ∈ (start files config entry).frames, Path.IsOrdinary frame.source)
    (hincludes : ∀ state source argument,
      Reaches interpreter files (start files config entry) state →
        state.include? = some (source, argument) →
          Path.IsOrdinary argument ∧ Path.Fits directory (Path.resolve source argument))
    (h : Reaches interpreter files (start files config entry) last) :
    Reaches interpreter (files.under directory) ((start files config entry).under files directory)
        (last.under files directory) ∧
      ∀ frame ∈ last.frames, Path.IsOrdinary frame.source := by
  induction h with
  | refl => exact ⟨.refl, hstart⟩
  | tail hreaches hnext ih =>
    obtain ⟨hfollows, hsources⟩ := ih
    have hmoves : CanMove directory _ :=
      ⟨hsources, fun source argument => hincludes _ source argument hreaches⟩
    refine ⟨hfollows.tail ?_, sources_of_advance hmoves hnext⟩
    rw [advance_under hdirectory hpossible (sound_of_reaches hreaches) hmoves, hnext]
    rfl

end

/-! ## Includes that are computed -/

/-- The includes of an evaluation that ends within so many steps, each one with its text. -/
def includes? (interpreter : Interpreter) (files : FileTree) :
    Nat → Evaluator → Option (List (String × String))
  | 0, _ => none
  | steps + 1, state =>
    match advance interpreter files state with
    | none => some state.include?.toList
    | some next => (includes? interpreter files steps next).map (state.include?.toList ++ ·)

theorem mem_of_includes? {interpreter : Interpreter} {files : FileTree} {steps : Nat}
    {state other : Evaluator} {found : List (String × String)} {pair : String × String}
    (h : includes? interpreter files steps state = some found)
    (hreaches : Reaches interpreter files state other) (hother : other.include? = some pair) :
    pair ∈ found := by
  induction hreaches using Relation.ReflTransGen.head_induction_on generalizing steps found with
  | refl =>
    cases steps with
    | zero => cases h
    | succ steps =>
      rw [includes?] at h
      split at h
      · rw [← Option.some.inj h, hother]
        exact List.mem_singleton_self _
      · obtain ⟨rest, -, rfl⟩ := Option.map_eq_some_iff.1 h
        exact List.mem_append_left _ (by simp [hother])
  | head hnext _ ih =>
    cases steps with
    | zero => cases h
    | succ steps =>
      rw [includes?, hnext] at h
      obtain ⟨rest, hrest, rfl⟩ := Option.map_eq_some_iff.1 h
      exact List.mem_append_right _ (ih hrest)

end Evaluator

/-- The answer with other names of texts and paths of files in its warnings or its error. -/
def Interpreter.renamedAnswer (names : String → String)
    (answer : Except Error (List Warning) × Config) : Except Error (List Warning) × Config :=
  ((answer.1.mapError (Error.renamed names)).map (List.map (Warning.renamed names)), answer.2)

theorem Evaluator.answer_under (files : FileTree) (directory : String) (state : Evaluator) :
    (state.under files directory).answer =
      Interpreter.renamedAnswer (Path.below directory) state.answer := by
  obtain ⟨active, frames, session, error⟩ := state
  cases error <;> rfl

namespace Interpreter
open Evaluator (Reaches start)

/-- A file of a tree that is moved below a directory is loaded as the file was: the configuration is
the same, and in the warnings or the error every name of a text and every path of a file has the
directory before it. -/
theorem load_below (interpreter : Interpreter) (files : FileTree) {directory entry : String}
    (config : Config) (hdirectory : Path.IsOrdinary directory)
    (hpossible : Path.IsPossible directory) (hentry : Path.IsOrdinary entry)
    (hfits : Path.Fits directory entry)
    (hincludes : ∀ state source argument,
      Reaches interpreter files (start files config (.file entry)) state →
        state.include? = some (source, argument) →
          Path.IsOrdinary argument ∧ Path.Fits directory (Path.resolve source argument)) :
    interpreter.load (files.under directory) (Path.below directory entry) config =
      renamedAnswer (Path.below directory) (interpreter.load files entry config) := by
  have hstart : start (files.under directory) config (.file (Path.below directory entry)) =
      (start files config (.file entry)).under files directory := by
    rw [start, start, FileTree.openText_below hdirectory hpossible hentry hfits]
    cases files.openText entry <;> rfl
  have hsources : ∀ frame ∈ (start files config (.file entry)).frames,
      Path.IsOrdinary frame.source := by
    rw [start]
    cases files.openText entry with
    | error fault => simp
    | ok found => simpa [Frame.ofFile] using hentry
  obtain ⟨last, hreaches, hframes, -, hanswer⟩ :=
    Evaluator.reaches_answer interpreter files (.file entry) config
  have hmoved := (Evaluator.reaches_under hdirectory hpossible hsources hincludes hreaches).1
  rw [← hstart] at hmoved
  have hended : (last.under files directory).frames = [] := by
    rw [Evaluator.under, hframes]
    rfl
  have hfinal := Evaluator.answer_of_reaches hmoved hended
  rw [Evaluator.answer_under, hanswer] at hfinal
  exact hfinal.symm

/-- The file includes one from a directory, which includes another one next to it. Both the first and
the last one refer to a variable that is not set. -/
theorem load_below_nested :
    let files := (((FileTree.empty.addFile "main" "A = a $UNSET\n.include parts/one".toUTF8).addFile
      "parts/one" "B = b\n.include two".toUTF8).addFile "parts/two" "A += $GONE".toUTF8)
    let after := Config.ofLists [("A", ["a"]), ("B", ["b"])] []
    Path.IsOrdinary "etc/app" ∧ Path.IsPossible "etc/app" ∧ Path.IsOrdinary "main" ∧
      Path.Fits "etc/app" "main" ∧
      (∀ state source argument,
        Reaches standard files (start files .empty (.file "main")) state →
          state.include? = some (source, argument) → Path.IsOrdinary argument ∧
            Path.Fits "etc/app" (Path.resolve source argument)) ∧
      standard.load (files.under "etc/app") (Path.below "etc/app" "main") .empty =
        (.ok [⟨"UNSET", ⟨"etc/app/main", ⟨1, 7, 6⟩⟩⟩, ⟨"GONE", ⟨"etc/app/parts/two", ⟨1, 6, 5⟩⟩⟩],
          after) := by
  intro files after
  have hdirectory : Path.IsOrdinary "etc/app" := by decide +kernel
  have hpossible : Path.IsPossible "etc/app" := ⟨by decide +kernel, by decide +kernel⟩
  have hentry : Path.IsOrdinary "main" := by decide +kernel
  have hfits : Path.Fits "etc/app" "main" := by decide +kernel
  have hcomputed : Evaluator.includes? standard files 50 (start files .empty (.file "main")) =
      some [("main", "parts/one"), ("parts/one", "two")] := by decide +kernel
  have hincludes : ∀ state source argument,
      Reaches standard files (start files .empty (.file "main")) state →
        state.include? = some (source, argument) → Path.IsOrdinary argument ∧
          Path.Fits "etc/app" (Path.resolve source argument) := by
    intro state source argument hreaches hincluded
    have hmem := Evaluator.mem_of_includes? hcomputed hreaches hincluded
    have hall : ∀ pair ∈ [("main", "parts/one"), ("parts/one", "two")],
        Path.IsOrdinary pair.2 ∧ Path.Fits "etc/app" (Path.resolve pair.1 pair.2) := by
      decide +kernel
    exact hall (source, argument) hmem
  have hloaded : standard.load files "main" .empty =
      (.ok [⟨"UNSET", ⟨"main", ⟨1, 7, 6⟩⟩⟩, ⟨"GONE", ⟨"parts/two", ⟨1, 6, 5⟩⟩⟩], after) :=
    eq_ok_of_toOption (by decide +kernel) (by decide +kernel)
  refine ⟨hdirectory, hpossible, hentry, hfits, hincludes, ?_⟩
  rw [load_below standard files .empty hdirectory hpossible hentry hfits hincludes, hloaded]
  exact eq_ok_of_toOption (by decide +kernel) rfl

/-! ## Beyond the limits of the system -/

theorem load_of_fault {interpreter : Interpreter} {files : FileTree} {path : String}
    {fault : FileFault} (h : files.openText path = .error fault) (config : Config) :
    interpreter.load files path config = (.error (.file path none fault), config) := by
  simp only [load, outcome, openFile, h]
  rfl

/-- Beyond the limits of the system there is no file: the path of a directory can be too long, and
so can its name, or hold a character that no name can have. -/
theorem load_below_beyond :
    let files := FileTree.empty.addFile "m" "A = a".toUTF8
    let fails (directory : String) (fault : FileFault) := Path.IsOrdinary directory ∧
      standard.load (files.under directory) (Path.below directory "m") .empty =
        (.error (.file (Path.below directory "m") none fault), .empty)
    Path.IsOrdinary "m" ∧
      (∀ state source argument, Reaches standard files (start files .empty (.file "m")) state →
        state.include? = some (source, argument) → Path.IsOrdinary argument) ∧
      standard.load files "m" .empty = (.ok [], Config.empty.set "A" ["a"]) ∧
      fails (Path.ofSegments (List.replicate 2049 "d")) .nameTooLong ∧
      fails (String.ofList (List.replicate 256 'd')) .nameTooLong ∧
      fails "\x00" .nulInName := by
  intro files fails
  have hm : Path.IsOrdinary "m" := by decide +kernel
  have hd : Path.IsPlainName "d" := by decide +kernel
  have hincludes : Evaluator.includes? standard files 10 (start files .empty (.file "m")) =
      some [] := by decide +kernel
  have hloaded : standard.load files "m" .empty = (.ok [], Config.empty.set "A" ["a"]) :=
    eq_ok_of_toOption (by decide +kernel) (by decide +kernel)
  have hdeep : Path.IsOrdinary (Path.ofSegments (List.replicate 2049 "d")) :=
    Path.isOrdinary_ofSegments (List.cons_ne_nil _ _) fun name hname =>
      List.eq_of_mem_replicate hname ▸ hd
  have hbeyond : FileTree.maxNameBytes < 256 := by decide
  have hlong := Path.isPlainName_replicate (show 2 < 256 by decide)
  refine ⟨hm, ?_, hloaded, ⟨hdeep, load_of_fault (FileTree.openText_of_deep _ (by decide)) _⟩,
    ⟨hlong.isOrdinary, load_of_fault (FileTree.openText_of_long _ hbeyond (by decide)) _⟩,
    by decide +kernel, load_of_fault (by decide +kernel) _⟩
  intro state source argument hreaches hincluded
  cases Evaluator.mem_of_includes? hincludes hreaches hincluded

end Interpreter
end ShellConfig
