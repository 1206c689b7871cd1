import ShellConfig.Proofs.File.Identity
import ShellConfig.Proofs.Interpreter.Evaluator

/-!
The stack of the open files. At every point of an evaluation it tells by what the open files are
known, each of them once, and is no longer than the interpreter's limit (`sound_of_reaches`). Each
file is left again, with the stack as it was (`exists_return`), and what becomes of an `include`
line depends on nothing but the limit, the stack and the file (`advance_including`). Where the
system finds the canonical paths the stack holds different files, and a file is open under all
spellings of its path or under none (`active_eq_openPlaces`, `identity_mem_active_iff`). Main
statement: `stackSafe`. Where it does not find them a file can be opened in itself
(`opens_twice_beyond`).
-/

set_option autoImplicit false

namespace ShellConfig

/-- The greatest number of files that may be open at once. A whole evaluation of a file opens that
one whatever the interpreter's limit is. -/
def Entry.limit (interpreter : Interpreter) : Entry → Nat
  | .text _ _ => interpreter.maxIncludeDepth
  | .file _ => max interpreter.maxIncludeDepth 1

namespace Frame

/-- The place of the file that holds the text, if one does. -/
def place? (files : FileTree) (frame : Frame) : Option Place :=
  frame.identity.bind fun _ => (files.locate frame.source).toOption

/-- The text is that of a file at its path, which is known as it has been found to be. -/
structure IsOpened (files : FileTree) (frame : Frame) (identity : Identity) : Prop where
  identity_eq : files.identity frame.source = identity
  exists_place : ∃ place, files.locate frame.source = .ok place ∧ files.isFile place = true

theorem isOpened_ofFile {files : FileTree} {path text : String} {identity : Identity}
    (h : files.openText path = .ok (identity, text)) :
    (ofFile identity path text).IsOpened files identity := by
  obtain ⟨hidentity, place, hplace, htext⟩ := FileTree.openText_eq_ok_iff.1 h
  exact ⟨hidentity.symm, place, hplace, FileTree.isFile_of_textAt htext⟩

theorem IsOpened.goOn {files : FileTree} {frame : Frame} {identity : Identity}
    (h : frame.IsOpened files identity) (next : Continuation) :
    { frame with next }.IsOpened files identity := ⟨h.identity_eq, h.exists_place⟩

end Frame

namespace Evaluator

/-- By what the files are known that hold the texts, the innermost last. -/
def identities (frames : List Frame) : List Identity := (frames.filterMap Frame.identity).reverse

theorem identities_cons (frame : Frame) (below : List Frame) :
    identities (frame :: below) = identities below ++ frame.identity.toList := by
  unfold identities
  cases hidentity : frame.identity with
  | none => simp [List.filterMap_cons_none hidentity]
  | some identity => simp [List.filterMap_cons_some hidentity]

theorem mem_identities_iff {frames : List Frame} {identity : Identity} :
    identity ∈ identities frames ↔ ∃ frame ∈ frames, frame.identity = some identity := by
  rw [identities, List.mem_reverse, List.mem_filterMap]

/-- The places of the open files, the innermost last. -/
def openPlaces (files : FileTree) (state : Evaluator) : List Place :=
  (state.frames.filterMap (Frame.place? files)).reverse

/-- The system finds the canonical paths of the open files. -/
def IsCanonical (files : FileTree) (state : Evaluator) : Prop :=
  ∀ frame ∈ state.frames, frame.identity.isSome → (files.canonical? frame.source).isSome

/-- What holds of the stack at every point of an evaluation. -/
structure Sound (files : FileTree) (limit : Nat) (state : Evaluator) : Prop where
  active_eq : state.active = identities state.frames
  opened : ∀ frame ∈ state.frames, ∀ identity ∈ frame.identity, frame.IsOpened files identity
  nodup : state.active.Nodup
  length_le : state.active.length ≤ limit

section
variable {interpreter : Interpreter} {files : FileTree} {config : Config} {entry : Entry}
  {state next : Evaluator} {limit : Nat} {path : String} {place : Place}

theorem closed_sublist (active : List Identity) (identity : Option Identity) :
    (closed active identity).Sublist active := by
  cases identity with
  | none => exact .refl _
  | some identity => exact List.dropLast_sublist _

theorem closed_identities (frame : Frame) (below : List Frame) :
    closed (identities (frame :: below)) frame.identity = identities below := by
  rw [identities_cons]
  cases frame.identity with
  | none => exact List.append_nil _
  | some identity => exact List.dropLast_concat

theorem sound_of_move (hlimit : interpreter.maxIncludeDepth ≤ limit) (h : Sound files limit state)
    (hmove : Move interpreter files state next) : Sound files limit next := by
  have hactive := h.active_eq
  have hopened := h.opened
  cases hmove with
  | @leave frame below hframes hdone =>
    rw [hframes] at hactive hopened
    have hsublist := closed_sublist state.active frame.identity
    refine ⟨?_, (List.forall_mem_cons.1 hopened).2, h.nodup.sublist hsublist,
      Nat.le_trans hsublist.length_le h.length_le⟩
    rw [leave, hactive, closed_identities]
  | @enter frame below mode lexer path text identity continuation hframes herror hnext hentered =>
    obtain ⟨ended, call, -, -, hcalled⟩ := Interpreter.entered?_eq_some hentered
    obtain ⟨argument, -, -, hdepth, hclosed, hopen⟩ := Interpreter.opened?_eq_some hcalled
    have hnew : identity ∉ state.active := by
      rw [← FileTree.identity_of_openText hopen]
      exact Interpreter.isActive_eq_false_iff.1 hclosed
    rw [hframes] at hactive hopened
    refine ⟨?_, ?_, ?_, ?_⟩
    · rw [identities_cons, hactive, identities_cons, identities_cons]
      rfl
    · obtain ⟨hframe, hbelow⟩ := List.forall_mem_cons.1 hopened
      refine List.forall_mem_cons.2 ⟨fun other hother => ?_, List.forall_mem_cons.2
        ⟨fun other hother => (hframe other hother).goOn _, hbelow⟩⟩
      obtain rfl := Option.some.inj hother
      exact Frame.isOpened_ofFile hopen
    · exact h.nodup.append (List.nodup_singleton _) (by simpa using hnew)
    · rw [List.length_append, List.length_singleton]
      omega
  | @goOn frame below mode lexer continuation session hframes herror hnext hentered hstep =>
    rw [hframes] at hactive hopened
    obtain ⟨hframe, hbelow⟩ := List.forall_mem_cons.1 hopened
    rw [identities_cons] at hactive
    exact ⟨by rw [identities_cons, hactive], List.forall_mem_cons.2
      ⟨fun other hother => (hframe other hother).goOn _, hbelow⟩, h.nodup, h.length_le⟩
  | fail => exact ⟨hactive, hopened, h.nodup, h.length_le⟩

theorem sound_start (interpreter : Interpreter) (files : FileTree) (config : Config)
    (entry : Entry) : Sound files (entry.limit interpreter) (start files config entry) := by
  cases entry with
  | text source text => exact ⟨rfl, by simp [start, Frame.ofText], .nil, Nat.zero_le _⟩
  | file path =>
    rw [start]
    cases hopen : files.openText path with
    | ok found =>
      refine ⟨rfl, ?_, List.nodup_singleton _, Nat.le_max_right _ _⟩
      rintro frame hframe identity hidentity
      obtain rfl := List.mem_singleton.1 hframe
      obtain rfl := Option.some.inj hidentity
      exact Frame.isOpened_ofFile hopen
    | error fault => exact ⟨rfl, by simp, .nil, Nat.zero_le _⟩

theorem sound_of_reaches (h : Reaches interpreter files (start files config entry) state) :
    Sound files (entry.limit interpreter) state := by
  have hlimit : interpreter.maxIncludeDepth ≤ entry.limit interpreter := by
    cases entry with
    | text source text => exact Nat.le_refl _
    | file path => exact Nat.le_max_left _ _
  induction h with
  | refl => exact sound_start interpreter files config entry
  | tail _ hnext ih => exact sound_of_move hlimit ih (move_of_advance hnext)

/-! ## Open files and their places -/

theorem mem_openPlaces_iff : place ∈ state.openPlaces files ↔
    ∃ frame ∈ state.frames, frame.identity.isSome ∧ files.locate frame.source = .ok place := by
  have hplace (frame : Frame) : frame.place? files = some place ↔
      frame.identity.isSome ∧ files.locate frame.source = .ok place := by
    unfold Frame.place?
    cases frame.identity <;> cases files.locate frame.source <;> simp [Except.toOption]
  simp only [openPlaces, List.mem_reverse, List.mem_filterMap, hplace]

section
variable (h : Sound files limit state)
include h

theorem Sound.mem_active_iff {identity : Identity} : identity ∈ state.active ↔
    ∃ frame ∈ state.frames, frame.identity.isSome ∧ files.identity frame.source = identity := by
  rw [h.active_eq, mem_identities_iff]
  constructor
  · rintro ⟨frame, hframe, hidentity⟩
    exact ⟨frame, hframe, by rw [hidentity]; rfl, (h.opened frame hframe _ hidentity).identity_eq⟩
  · rintro ⟨frame, hframe, hopened, rfl⟩
    obtain ⟨identity, hidentity⟩ := Option.isSome_iff_exists.1 hopened
    rw [(h.opened frame hframe _ hidentity).identity_eq]
    exact ⟨frame, hframe, hidentity⟩

theorem Sound.isFile_of_mem_openPlaces (hplace : place ∈ state.openPlaces files) :
    files.isFile place = true := by
  obtain ⟨frame, hframe, hopened, hlocate⟩ := mem_openPlaces_iff.1 hplace
  obtain ⟨identity, hidentity⟩ := Option.isSome_iff_exists.1 hopened
  obtain ⟨found, hfound, hfile⟩ := (h.opened frame hframe _ hidentity).exists_place
  rw [Except.ok.inj (hlocate.symm.trans hfound)]
  exact hfile

/-- A path that is known as an open file leads to one. -/
theorem Sound.mem_openPlaces (hplace : files.locate path = .ok place)
    (hactive : files.identity path ∈ state.active) : place ∈ state.openPlaces files := by
  obtain ⟨frame, hframe, hopened, hidentity⟩ := h.mem_active_iff.1 hactive
  obtain ⟨identity, hsome⟩ := Option.isSome_iff_exists.1 hopened
  obtain ⟨found, hfound, -⟩ := (h.opened frame hframe _ hsome).exists_place
  obtain rfl := FileTree.eq_of_identity_eq hfound hplace hidentity
  exact mem_openPlaces_iff.2 ⟨frame, hframe, hopened, hfound⟩

variable (hcanonical : state.IsCanonical files)
include hcanonical

/-- With canonical paths the stack tells which files are open. -/
theorem Sound.active_eq_openPlaces : state.active = (state.openPlaces files).map .ofPlace := by
  have hidentity : ∀ frame ∈ state.frames,
      frame.identity = (frame.place? files).map Identity.ofPlace := by
    intro frame hframe
    cases hopened : frame.identity with
    | none => simp [Frame.place?, hopened]
    | some identity =>
      obtain ⟨hsame, place, hplace, -⟩ := h.opened frame hframe _ hopened
      obtain ⟨target, htarget⟩ := Option.isSome_iff_exists.1
        (hcanonical frame hframe (by rw [hopened]; rfl))
      rw [FileTree.identity_of_canonical? htarget, FileTree.eq_of_canonical? hplace htarget]
        at hsame
      simp [Frame.place?, hopened, hplace, hsame, Except.toOption]
  rw [h.active_eq, identities, openPlaces, List.map_reverse, List.map_filterMap]
  exact congrArg List.reverse (List.filterMap_congr hidentity)

/-- Under all spellings that have canonical paths a file is open, or under none. -/
theorem Sound.identity_mem_active_iff (hplace : files.locate path = .ok place)
    (hpath : (files.canonical? path).isSome) :
    files.identity path ∈ state.active ↔ place ∈ state.openPlaces files := by
  refine ⟨h.mem_openPlaces hplace, fun hopen => ?_⟩
  obtain ⟨target, htarget⟩ := Option.isSome_iff_exists.1 hpath
  rw [h.active_eq_openPlaces hcanonical, FileTree.identity_of_canonical? htarget,
    FileTree.eq_of_canonical? hplace htarget]
  exact List.mem_map_of_mem hopen

theorem Sound.nodup_openPlaces : (state.openPlaces files).Nodup :=
  .of_map Identity.ofPlace (h.active_eq_openPlaces hcanonical ▸ h.nodup)

/-- Different files are open, so no more of them than there are. -/
theorem Sound.length_le_files : state.active.length ≤ files.filePlaces.length := by
  rw [h.active_eq_openPlaces hcanonical, List.length_map]
  exact FileTree.length_le_of_nodup (h.nodup_openPlaces hcanonical) fun _ =>
    h.isFile_of_mem_openPlaces

end

/-! ## Files that are left -/

/-- Where a file is opened, the evaluation comes back to the texts that include it. At that point
the stack is as it was before. -/
theorem exists_return (hnext : advance interpreter files state = some next)
    (hopens : state.frames.length < next.frames.length) :
    ∃ identity back, next.active = state.active ++ [identity] ∧ identity ∉ state.active ∧
      Within interpreter files state.frames.length next back ∧
      back.frames.length = state.frames.length ∧ back.active = state.active := by
  cases move_of_advance hnext with
  | @leave frame below hframes hdone =>
    rw [hframes] at hopens
    exact absurd hopens (Nat.not_lt.2 (Nat.le_succ _))
  | @enter frame below mode lexer path text identity continuation hframes herror _ hentered =>
    obtain ⟨ended, call, -, -, hcalled⟩ := Interpreter.entered?_eq_some hentered
    obtain ⟨argument, -, -, -, hclosed, hopen⟩ := Interpreter.opened?_eq_some hcalled
    obtain ⟨last, error, hwithin⟩ := exists_within interpreter files (state.active ++ [identity])
      (.ofFile identity path text) ({ frame with next := continuation } :: below) rfl state.session
    have hleft : closed (state.active ++ [identity]) (some identity) = state.active :=
      List.dropLast_concat
    have hlength : state.frames.length = below.length + 1 := by rw [hframes]; rfl
    have hnew : identity ∉ state.active := by
      rw [← FileTree.identity_of_openText hopen]
      exact Interpreter.isActive_eq_false_iff.1 hclosed
    refine ⟨identity, ⟨closed (state.active ++ [identity]) (some identity),
      { frame with next := continuation } :: below, last, error⟩, rfl, hnew, ?_, ?_, hleft⟩
    · rw [hlength, herror]
      exact hwithin
    · rw [hlength]
      rfl
  | @goOn frame below mode lexer continuation session hframes =>
    rw [hframes] at hopens
    exact absurd hopens (Nat.lt_irrefl _)
  | fail => exact absurd hopens (Nat.lt_irrefl _)

/-! ## Lines that include a file -/

/-- The state is at the end of a line that includes a file by one path. The path is taken as the
text means it, the line is at the location, and these texts go on after it. -/
def Including (state : Evaluator) (path : String) (location : Location) (resumed : List Frame) :
    Prop :=
  ∃ frame below mode lexer ended continuation argument,
    state.error = none ∧ state.frames = frame :: below ∧ frame.next = some (mode, lexer) ∧
    lexer.ended? mode = some (ended, continuation) ∧
    ended.called? = some ⟨DirectiveCall.includeName, [argument]⟩ ∧
    path = Path.resolve frame.source argument ∧
    location = Location.ofOffset frame.source ended.cursor.text ended.lineOffset ∧
    resumed = { frame with next := continuation } :: below

def refuse (state : Evaluator) (error : Error) : Evaluator := { state with error := some error }

def enter (state : Evaluator) (identity : Identity) (path text : String) (resumed : List Frame) :
    Evaluator :=
  ⟨state.active ++ [identity], .ofFile identity path text :: resumed, state.session, none⟩

variable {location : Location} {resumed : List Frame}

theorem advance_including (interpreter : Interpreter) (files : FileTree)
    (h : state.Including path location resumed) :
    advance interpreter files state = some (
      if interpreter.maxIncludeDepth ≤ state.active.length then
        state.refuse (.directive (.includeDepthExceeded interpreter.maxIncludeDepth) location)
      else if Interpreter.isActive files state.active path then
        state.refuse (.directive (.includeCycle path) location)
      else match files.openText path with
        | .error fault => state.refuse (.file path (some location) fault)
        | .ok (identity, text) => state.enter identity path text resumed) := by
  obtain ⟨frame, below, mode, lexer, ended, continuation, argument, herror, hframes, hnext, hended,
    hcall, rfl, rfl, rfl⟩ := h
  have hrefuse {error : Error}
      (hopened : interpreter.opened? files state.active frame.source
        ⟨DirectiveCall.includeName, [argument]⟩ = none)
      (hinclude : interpreter.includeFile files (interpreter.included files 0) state.active
        (Path.resolve frame.source argument)
        (Location.ofOffset frame.source ended.cursor.text ended.lineOffset) state.session =
          (.error error, state.session)) :
      state.scan interpreter files frame below mode lexer = state.refuse error := by
    have hentered : interpreter.entered? files state.active frame.source mode lexer = none := by
      rw [Interpreter.entered?, hended, Option.bind_some, hcall, Option.bind_some, hopened]
      rfl
    generalize hscope : interpreter.scope files (interpreter.included files 0) state.active
      frame.source = scope
    have hperform : scope.perform ⟨DirectiveCall.includeName, [argument]⟩
        (ended.locate scope ended.lineOffset) state.session = (.error error, state.session) := by
      rw [← hscope, Interpreter.perform_scope, Interpreter.perform_include]
      exact hinclude
    have hstep : Lexer.step scope mode lexer state.session = (.error error, state.session) := by
      rw [Lexer.step_of_called hended hcall, Evaluation.map, hperform]
      rfl
    rw [scan_of_not_entered hentered (interpreter.included files 0), hscope, hstep]
    rfl
  rw [advance_of_next hframes herror hnext]
  congr 1
  split
  · next hdepth =>
    refine hrefuse ?_ ?_
    · rw [Interpreter.opened?_include, if_neg fun h => Nat.not_lt.2 hdepth h.1]
    · rw [Interpreter.includeFile, if_pos hdepth]
  · next hdepth =>
    split
    · next hactive =>
      refine hrefuse ?_ ?_
      · rw [Interpreter.opened?_include, if_neg fun h => by rw [hactive] at h; cases h.2]
      · rw [Interpreter.includeFile, if_neg hdepth, if_pos hactive]
    · next hactive =>
      have hopens : state.active.length < interpreter.maxIncludeDepth ∧
          Interpreter.isActive files state.active (Path.resolve frame.source argument) = false :=
        ⟨Nat.not_le.1 hdepth, by simpa using hactive⟩
      cases hopen : files.openText (Path.resolve frame.source argument) with
      | error fault =>
        refine hrefuse ?_ ?_
        · rw [Interpreter.opened?_include, if_pos hopens, hopen]
        · rw [Interpreter.includeFile, if_neg hdepth, if_neg hactive, Interpreter.openFile, hopen]
      | ok found =>
        have hentered : interpreter.entered? files state.active frame.source mode lexer =
            some ((Path.resolve frame.source argument, found), continuation) := by
          rw [Interpreter.entered?, hended, Option.bind_some, hcall, Option.bind_some,
            Interpreter.opened?_include, if_pos hopens, hopen]
          rfl
        rw [scan_of_entered hentered, herror]
        rfl

@[simp] theorem refuse_eq_refuse {error other : Error} :
    state.refuse error = state.refuse other ↔ error = other :=
  ⟨fun h => Option.some.inj (congrArg Evaluator.error h), fun h => by rw [h]⟩

@[simp] theorem refuse_ne_enter {error : Error} {identity : Identity} {text : String} :
    state.refuse error ≠ state.enter identity path text resumed := fun h =>
  nomatch congrArg Evaluator.error h

@[simp] theorem enter_ne_refuse {error : Error} {identity : Identity} {text : String} :
    state.enter identity path text resumed ≠ state.refuse error := refuse_ne_enter.symm

@[simp] theorem enter_eq_enter {identity other : Identity} {text more : String} :
    state.enter identity path text resumed = state.enter other path more resumed ↔
      identity = other ∧ text = more := by
  refine ⟨fun h => ?_, fun h => by rw [h.1, h.2]⟩
  have hframe := (List.cons.inj (congrArg Evaluator.frames h)).1
  exact ⟨Option.some.inj (congrArg Frame.identity hframe), congrArg Frame.text hframe⟩

/-- What becomes of a line that includes a file. -/
structure Decides (interpreter : Interpreter) (files : FileTree) (state : Evaluator) (path : String)
    (location : Location) (resumed : List Frame) : Prop where
  depth : advance interpreter files state = some (state.refuse
      (.directive (.includeDepthExceeded interpreter.maxIncludeDepth) location)) ↔
    interpreter.maxIncludeDepth ≤ state.active.length
  cycle : advance interpreter files state =
      some (state.refuse (.directive (.includeCycle path) location)) ↔
    state.active.length < interpreter.maxIncludeDepth ∧ files.identity path ∈ state.active
  unreadable : ∀ fault, advance interpreter files state =
      some (state.refuse (.file path (some location) fault)) ↔
    state.active.length < interpreter.maxIncludeDepth ∧ files.identity path ∉ state.active ∧
      files.openText path = .error fault
  opens : ∀ identity text, advance interpreter files state =
      some (state.enter identity path text resumed) ↔
    state.active.length < interpreter.maxIncludeDepth ∧ files.identity path ∉ state.active ∧
      files.openText path = .ok (identity, text)

theorem decides_of_including (h : state.Including path location resumed) :
    Decides interpreter files state path location resumed := by
  have hadvance := advance_including interpreter files h
  by_cases hdepth : interpreter.maxIncludeDepth ≤ state.active.length
  · rw [if_pos hdepth] at hadvance
    have hnot : ¬ state.active.length < interpreter.maxIncludeDepth := Nat.not_lt.2 hdepth
    constructor <;> simp [hadvance, hdepth, hnot]
  · rw [if_neg hdepth] at hadvance
    have hlt := Nat.not_le.1 hdepth
    by_cases hopen : files.identity path ∈ state.active
    · rw [if_pos (Interpreter.isActive_iff.2 hopen)] at hadvance
      constructor <;> simp [hadvance, hdepth, hlt, hopen]
    · rw [if_neg fun h => hopen (Interpreter.isActive_iff.1 h)] at hadvance
      cases hfile : files.openText path with
      | error fault =>
        rw [hfile] at hadvance
        constructor <;> simp [hadvance, hdepth, hlt, hopen, hfile]
      | ok found =>
        rw [hfile] at hadvance
        constructor <;> simp [hadvance, hdepth, hlt, hopen, hfile, Prod.ext_iff]

end

/-! ## Whole evaluations -/

section
variable (interpreter : Interpreter) (files : FileTree) (entry : Entry) (config : Config)

/-- The stack of the open files at every point of a whole evaluation. -/
structure StackSafe : Prop where
  /-- The open files are known apart, and are not too many. -/
  stack : ∀ state, Reaches interpreter files (start files config entry) state →
    state.active.Nodup ∧ state.active.length ≤ entry.limit interpreter ∧
      ∀ identity, identity ∈ state.active ↔ ∃ frame ∈ state.frames, frame.identity.isSome ∧
        files.identity frame.source = identity
  /-- Where they have canonical paths the stack consists of these. So they are different ones, and
  no more than there are. -/
  canonical : ∀ state, Reaches interpreter files (start files config entry) state →
    state.IsCanonical files →
      state.active = (state.openPlaces files).map .ofPlace ∧ (state.openPlaces files).Nodup ∧
        (∀ place ∈ state.openPlaces files, files.isFile place = true) ∧
        state.active.length ≤ files.filePlaces.length
  /-- Every file that is opened is left, with a result or an error, and the stack is then as it was
  before. -/
  returns : ∀ state next, Reaches interpreter files (start files config entry) state →
    advance interpreter files state = some next → state.frames.length < next.frames.length →
      (∃ back, Within interpreter files state.frames.length next back ∧
        back.frames.length = state.frames.length) ∧
      ∀ back, Within interpreter files state.frames.length next back →
        back.frames.length = state.frames.length →
          back.active = state.active ∧
            ∃ identity, next.active = back.active ++ [identity] ∧ identity ∉ back.active
  /-- A line that includes a file by one path is refused for one of three reasons, each of which
  leaves everything else as it is, or opens the file. -/
  decides : ∀ state path location resumed,
    Reaches interpreter files (start files config entry) state →
    state.Including path location resumed →
      Decides interpreter files state path location resumed
  /-- Only an open file is refused as open, and with canonical paths every one is, however its path
  is spelled. -/
  spellings : ∀ state path location resumed place,
    Reaches interpreter files (start files config entry) state →
    state.Including path location resumed → files.locate path = .ok place →
      let refused := advance interpreter files state =
        some (state.refuse (.directive (.includeCycle path) location))
      (refused → place ∈ state.openPlaces files) ∧
        (state.IsCanonical files → (files.canonical? path).isSome →
          (refused ↔ state.active.length < interpreter.maxIncludeDepth ∧
            place ∈ state.openPlaces files))
  /-- A file that is not open now can be opened, whether or not it has been open before. -/
  reopens : ∀ state path location resumed place identity text,
    Reaches interpreter files (start files config entry) state →
    state.Including path location resumed →
    state.active.length < interpreter.maxIncludeDepth →
    files.openText path = .ok (identity, text) → files.locate path = .ok place →
    place ∉ state.openPlaces files →
      advance interpreter files state = some (state.enter identity path text resumed)
  /-- The evaluation ends, with the answer of the interpreter. -/
  ends : ∃ last, Reaches interpreter files (start files config entry) last ∧
    advance interpreter files last = none ∧ last.active = [] ∧
      last.answer = interpreter.answer files entry config

theorem stackSafe : StackSafe interpreter files entry config where
  stack state h := by
    have hsound := sound_of_reaches h
    exact ⟨hsound.nodup, hsound.length_le, fun identity => hsound.mem_active_iff⟩
  canonical state h hcanonical := by
    have hsound := sound_of_reaches h
    exact ⟨hsound.active_eq_openPlaces hcanonical, hsound.nodup_openPlaces hcanonical,
      fun _ => hsound.isFile_of_mem_openPlaces, hsound.length_le_files hcanonical⟩
  returns state next _ hnext hopens := by
    obtain ⟨identity, found, hactive, hnew, hwithin, hlength, hfound⟩ := exists_return hnext hopens
    refine ⟨⟨found, hwithin, hlength⟩, fun back hback hsame => ?_⟩
    -- The evaluation comes back but once.
    obtain rfl := hback.unique hwithin (Nat.le_of_eq hsame) (Nat.le_of_eq hlength)
    exact ⟨hfound, identity, by rw [hactive, hfound], hfound ▸ hnew⟩
  decides state path location resumed _ hincluding := decides_of_including hincluding
  spellings state path location resumed place h hincluding hplace := by
    have hsound := sound_of_reaches h
    have hdecides : Decides interpreter files state path location resumed :=
      decides_of_including hincluding
    have hcycle := hdecides.cycle
    refine ⟨fun hrefused => hsound.mem_openPlaces hplace (hcycle.1 hrefused).2,
      fun hcanonical hpath => ?_⟩
    rw [← hsound.identity_mem_active_iff hcanonical hplace hpath]
    exact hcycle
  reopens state path location resumed place identity text h hincluding hdepth hopen hplace
      hnew := by
    have hclosed : files.identity path ∉ state.active := fun hactive =>
      hnew ((sound_of_reaches h).mem_openPlaces hplace hactive)
    exact ((decides_of_including hincluding).opens identity text).2 ⟨hdepth, hclosed, hopen⟩
  ends := by
    obtain ⟨last, hreaches, hframes, hactive, hanswer⟩ :=
      reaches_answer interpreter files entry config
    exact ⟨last, hreaches, by rw [advance, hframes], hactive, hanswer⟩

end

/-- A file that is open is not opened again, however its path is spelled. -/
example :
    let includes (spelling : String) := (FileTree.empty.addDirectory "b").addFile "a"
      ("X = 1\n.include " ++ spelling).toUTF8
    ∀ spelling ∈ ["b/../a", "../work/a", "/private/work/a", "/private/../private/work//a"],
      (Interpreter.standard.load (includes spelling) "a" .empty).1 matches
        .error (.directive (.includeCycle _) ⟨"a", ⟨2, 1, 6⟩⟩) := by decide +kernel

/-! ## Beyond the longest canonical path -/

/-- The state after so many steps, if the evaluation takes them. -/
def after? (interpreter : Interpreter) (files : FileTree) : Nat → Evaluator → Option Evaluator
  | 0, state => some state
  | steps + 1, state => (after? interpreter files steps state).bind (advance interpreter files)

theorem reaches_of_after? {interpreter : Interpreter} {files : FileTree} {steps : Nat}
    {state next : Evaluator} (h : after? interpreter files steps state = some next) :
    Reaches interpreter files state next := by
  induction steps generalizing next with
  | zero => exact Option.some.inj h ▸ .refl
  | succ steps ih =>
    obtain ⟨middle, hmiddle, hnext⟩ := Option.bind_eq_some_iff.1 h
    exact (ih hmiddle).tail hnext

/-- Below so many directories the file has no canonical path that the system can look up.
Two spellings of its path then lead to it, and it is known by both of them. So it is opened in
itself while no limit is reached, and the stack holds it twice. -/
theorem opens_twice_beyond :
    let name := "deep-and-deeper"
    let again := "../deep-and-deeper/deep-and-deeper"
    let directory : FileTree :=
      ⟨[], ⟨List.replicate 255 name⟩, fun _ h => List.eq_of_mem_replicate h ▸ rfl⟩
    let files := directory.addFile name (".include " ++ again).toUTF8
    let interpreter : Interpreter := { maxIncludeDepth := 2 }
    let place : Place := ⟨List.replicate 256 name⟩
    files.locate name = .ok place ∧ files.locate again = .ok place ∧
      (∃ state next, Reaches interpreter files (start files .empty (.file name)) state ∧
        advance interpreter files state = some next ∧ state.openPlaces files = [place] ∧
        next.openPlaces files = [place, place]) ∧
      (interpreter.load files name .empty).1 matches
        .error (.directive (.includeDepthExceeded 2) ⟨_, ⟨1, 1, 0⟩⟩) := by
  intro name again directory files interpreter place
  have hfirst : ((after? interpreter files 8 (start files .empty (.file name))).map
      (openPlaces files)) = some [place] := by decide +kernel
  have hsecond : ((after? interpreter files 9 (start files .empty (.file name))).map
      (openPlaces files)) = some [place, place] := by decide +kernel
  obtain ⟨next, hnext, htwice⟩ := Option.map_eq_some_iff.1 hsecond
  obtain ⟨state, hstate, hadvance⟩ := Option.bind_eq_some_iff.1 hnext
  rw [hstate] at hfirst
  exact ⟨by decide +kernel, by decide +kernel, ⟨state, next, reaches_of_after? hstate, hadvance,
    Option.some.inj hfirst, htwice⟩, by decide +kernel⟩

end Evaluator
end ShellConfig
