import ShellConfig.File.Tree
import Mathlib.Data.List.Dedup
import Mathlib.Data.List.Perm.Subperm

/-!
By what files are known. The canonical path of a path that leads somewhere names the place
(`FileTree.eq_of_canonical?`). Paths by which files are known alike lead to one file, also where
there is no canonical path and the paths themselves have to do (`FileTree.eq_of_identity_eq`). The
converse needs canonical paths (`FileTree.identity_of_canonical?`).
-/

set_option autoImplicit false

namespace ShellConfig

theorem Identity.ofPlace_injective : Function.Injective ofPlace := fun ⟨_⟩ ⟨_⟩ h =>
  congrArg Place.mk (Identity.mk.inj h).2

namespace Path

theorem isIdle_of_isName {piece : String} (h : isName piece = true) : isIdle piece = false := by
  unfold isName at h
  simp_all

/-- The pieces by which a path is told from others are, but for a dot at the front, those that lead
on. -/
theorem filter_components (path : String) :
    (components path).filter (fun piece => !isIdle piece) =
      (segments path).filter fun piece => !isIdle piece := by
  have hdot : isIdle "." = true := by decide
  unfold components
  split <;> simp [hdot]

end Path

namespace Place

theorem enter_of_isIdle {piece : String} (h : Path.isIdle piece = true) (place : Place) :
    place.enter piece = place := if_pos h

theorem enter_of_isName {piece : String} (h : Path.isName piece = true) (place : Place) :
    place.enter piece = place.child piece := by
  have hidle := Path.isIdle_of_isName h
  unfold Path.isName at h
  rw [enter, if_neg (by simp [hidle]), if_neg (by simp_all)]

/-- Wherever a piece leads there are names only. -/
theorem isName_of_mem_enter {place : Place} {piece name : String}
    (hplace : ∀ name ∈ place.names, Path.isName name = true)
    (h : name ∈ (place.enter piece).names) : Path.isName name = true := by
  unfold enter at h
  split at h
  · exact hplace name h
  · next hidle =>
    split at h
    · exact hplace name (List.dropLast_subset _ h)
    · next hparent =>
      obtain hold | hlast := List.mem_append.1 h
      · exact hplace name hold
      · rw [List.mem_singleton.1 hlast, Path.isName]
        simp [hidle, hparent]

end Place

namespace FileTree
variable {files : FileTree} {fits : Place → Bool} {path other : String} {place target last : Place}

/-! ## Paths that are followed -/

/-- A path is followed from a directory, piece by piece. -/
theorem walk_cons_eq_ok_iff {piece : String} {rest : List String} :
    files.walk fits place (piece :: rest) = .ok last ↔
      files.node? place = some .directory ∧
        (Path.isName piece = true → piece.utf8ByteSize ≤ maxNameBytes ∧
          fits (place.child piece) = true ∧ (files.node? (place.child piece)).isNone = false) ∧
        files.walk fits (place.enter piece) rest = .ok last := by
  rw [walk]
  cases files.node? place with
  | none => simp
  | some node =>
    cases node with
    | file contents => simp
    | directory =>
      by_cases hname : Path.isName piece = true
      · rw [Place.enter_of_isName hname]
        simp only [hname, Bool.not_true, Bool.false_eq_true, if_false]
        split
        · next hlong => grind
        · next hshort =>
          split
          · next hmissing => grind
          · next hthere => grind
      · simp [hname]

theorem follow_of_walk {pieces : List String} (h : files.walk fits place pieces = .ok last) :
    files.follow place pieces = .ok last := by
  induction pieces generalizing place with
  | nil => exact h
  | cons piece rest ih =>
    obtain ⟨hnode, hname, hrest⟩ := walk_cons_eq_ok_iff.1 h
    exact walk_cons_eq_ok_iff.2
      ⟨hnode, fun h => ⟨(hname h).1, rfl, (hname h).2.2⟩, ih hrest⟩

/-- Idle pieces can be left out. -/
theorem follow_filter {pieces : List String} (h : files.follow place pieces = .ok last) :
    files.follow place (pieces.filter fun piece => !Path.isIdle piece) = .ok last := by
  induction pieces generalizing place with
  | nil => exact h
  | cons piece rest ih =>
    obtain ⟨hnode, hname, hrest⟩ := walk_cons_eq_ok_iff.1 h
    by_cases hidle : Path.isIdle piece = true
    · rw [List.filter_cons_of_neg (by simp [hidle])]
      rw [Place.enter_of_isIdle hidle] at hrest
      exact ih hrest
    · rw [List.filter_cons_of_pos (by simp [hidle])]
      exact walk_cons_eq_ok_iff.2 ⟨hnode, hname, ih hrest⟩

/-- Names lead to the place that they name. -/
theorem names_of_follow {names : List String} (hnames : ∀ name ∈ names, Path.isName name = true)
    (h : files.follow place names = .ok last) : last.names = place.names ++ names := by
  induction names generalizing place with
  | nil => rw [Except.ok.inj h, List.append_nil]
  | cons name rest ih =>
    obtain ⟨hname, hrest⟩ := List.forall_mem_cons.1 hnames
    obtain ⟨-, -, hwalk⟩ := walk_cons_eq_ok_iff.1 h
    rw [Place.enter_of_isName hname] at hwalk
    rw [ih hrest hwalk]
    exact List.append_assoc ..

theorem isName_of_walk {pieces : List String}
    (hplace : ∀ name ∈ place.names, Path.isName name = true)
    (h : files.walk fits place pieces = .ok last) :
    ∀ name ∈ last.names, Path.isName name = true := by
  induction pieces generalizing place with
  | nil => exact Except.ok.inj h ▸ hplace
  | cons piece rest ih =>
    exact ih (fun _ hname => Place.isName_of_mem_enter hplace hname) (walk_cons_eq_ok_iff.1 h).2.2

theorem isName_of_mem_origin (files : FileTree) (path : String) :
    ∀ name ∈ (files.origin path).names, Path.isName name = true := by
  unfold origin
  split
  · simp [Place.root]
  · exact files.named

/-! ## Canonical paths -/

theorem follow_of_locate (h : files.locate path = .ok place) :
    files.follow (files.origin path) (Path.segments path) = .ok place := by
  unfold locate at h
  split at h
  · cases h
  · exact h

theorem walk_of_canonical? (h : files.canonical? path = some place) :
    files.walk (fun place => place.bytes ≤ maxPathBytes) (files.origin path)
      (Path.segments path) = .ok place := by
  unfold canonical? at h
  split at h
  · cases h
  · cases hwalk : files.walk (fun place => place.bytes ≤ maxPathBytes) (files.origin path)
      (Path.segments path) with
    | error fault =>
      rw [hwalk] at h
      cases h
    | ok found =>
      rw [hwalk] at h
      rw [Option.some.inj h]

/-- The canonical path names the place to which the path leads. -/
theorem eq_of_canonical? (hplace : files.locate path = .ok place)
    (h : files.canonical? path = some target) : target = place :=
  Except.ok.inj ((follow_of_walk (walk_of_canonical? h)).symm.trans (follow_of_locate hplace))

theorem identity_of_canonical? (h : files.canonical? path = some place) :
    files.identity path = .ofPlace place := by
  rw [identity, h]

theorem identity_of_not_canonical? (h : files.canonical? path = none) :
    files.identity path = ⟨Path.isAbsolute path, Path.components path⟩ := by
  rw [identity, h]

/-- A path from the root that is known as a canonical path leads where that one does. -/
theorem eq_of_ofPlace_eq_identity (htarget : files.canonical? path = some place)
    (h : files.locate other = .ok target) (hother : files.canonical? other = none)
    (hsame : Identity.ofPlace place = files.identity other) : place = target := by
  have hnames := isName_of_walk (files.isName_of_mem_origin path) (walk_of_canonical? htarget)
  rw [identity_of_not_canonical? hother] at hsame
  obtain ⟨habsolute, hpieces⟩ := Identity.mk.inj hsame
  have hroot : files.origin other = .root := if_pos habsolute.symm
  have hfilter : (Path.segments other).filter (fun piece => !Path.isIdle piece) = place.names := by
    rw [← Path.filter_components, ← hpieces, List.filter_eq_self]
    exact fun name hname => by rw [Path.isIdle_of_isName (hnames name hname), Bool.not_false]
  have hfollow := follow_filter (follow_of_locate h)
  rw [hroot, hfilter] at hfollow
  exact congrArg Place.mk (names_of_follow hnames hfollow).symm

/-- Paths by which files are known alike lead to one file. -/
theorem eq_of_identity_eq (hplace : files.locate path = .ok place)
    (htarget : files.locate other = .ok target)
    (h : files.identity path = files.identity other) : place = target := by
  cases hleft : files.canonical? path with
  | some left =>
    obtain rfl := eq_of_canonical? hplace hleft
    rw [identity_of_canonical? hleft] at h
    cases hright : files.canonical? other with
    | some right =>
      obtain rfl := eq_of_canonical? htarget hright
      rw [identity_of_canonical? hright] at h
      exact Identity.ofPlace_injective h
    | none => exact eq_of_ofPlace_eq_identity hleft htarget hright h
  | none =>
    cases hright : files.canonical? other with
    | some right =>
      obtain rfl := eq_of_canonical? htarget hright
      rw [identity_of_canonical? hright] at h
      exact (eq_of_ofPlace_eq_identity hright hplace hleft h.symm).symm
    | none =>
      -- Both paths have to do, so they begin in one directory and have the same pieces.
      rw [identity_of_not_canonical? hleft, identity_of_not_canonical? hright] at h
      obtain ⟨habsolute, hpieces⟩ := Identity.mk.inj h
      have horigin : files.origin path = files.origin other := by
        rw [origin, origin, habsolute]
      have hfollow := follow_filter (follow_of_locate hplace)
      rw [horigin, ← Path.filter_components, hpieces, Path.filter_components] at hfollow
      exact Except.ok.inj (hfollow.symm.trans (follow_filter (follow_of_locate htarget)))

/-! ## The number of files -/

/-- Whether there is a file at the place. -/
def isFile (files : FileTree) (place : Place) : Bool :=
  match files.node? place with
  | some (.file _) => true
  | _ => false

/-- The places of the files, each one once. -/
def filePlaces (files : FileTree) : List Place :=
  (files.entries.map (·.1)).dedup.filter files.isFile

theorem mem_filePlaces_iff : place ∈ files.filePlaces ↔ files.isFile place = true := by
  rw [filePlaces, List.mem_filter, List.mem_dedup, and_iff_right_iff_imp]
  intro h
  unfold isFile node? at h
  split at h
  · next contents hnode =>
    split at hnode
    · cases hnode
    · obtain ⟨before, after, hentries, -⟩ := List.lookup_eq_some_iff.1 hnode
      rw [hentries]
      simp
  · cases h

theorem isFile_of_textAt {text : String} (h : files.textAt place = .ok text) :
    files.isFile place = true := by
  unfold textAt at h
  unfold isFile
  split at h
  · cases h
  · cases h
  · next hnode => rw [hnode]

/-- Different files are no more than there are. -/
theorem length_le_of_nodup {places : List Place} (hnodup : places.Nodup)
    (hfiles : ∀ place ∈ places, files.isFile place = true) :
    places.length ≤ files.filePlaces.length := by
  have hsubset : places ⊆ files.filePlaces := fun place hplace =>
    mem_filePlaces_iff.2 (hfiles place hplace)
  exact (List.subperm_of_subset hnodup hsubset).length_le

end FileTree
end ShellConfig
