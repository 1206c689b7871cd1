import ShellConfig.Proofs.File.Identity
import ShellConfig.Proofs.File.Siblings
import ShellConfig.Proofs.Source.Positions
import Mathlib.Data.List.Infix

/-!
A tree of files moved below a directory. A path of ordinary names leads from there to the place that
has moved along (`FileTree.locate_below`), so the same files can be opened. Ordinary paths are known
apart in either tree (`FileTree.identity_eq_iff`). This goes as far as the system does, which takes
no path beyond a length: a path must still fit with the directory before it (`Path.Fits`).
-/

set_option autoImplicit false

namespace ShellConfig
namespace Path

/-! ## Paths of ordinary names -/

/-- A relative path of plain names. -/
def IsOrdinary (path : String) : Prop := ∀ name ∈ segments path, IsPlainName name

/-- The path below a directory. -/
def below (directory path : String) : String := directory ++ "/" ++ path

theorem below_injective (directory : String) : Function.Injective (below directory) := by
  intro path other h
  have htext := congrArg String.toList h
  simp only [below, String.toList_append] at htext
  exact String.toList_inj.1 (List.append_cancel_left htext)

/-- A directory can have this path: the system allows its names. -/
structure IsPossible (directory : String) : Prop where
  noNul : '\x00' ∉ directory.toList
  short : ∀ name ∈ segments directory, name.utf8ByteSize ≤ FileTree.maxNameBytes

/-- The directory before the path does not make it too long for the system. -/
def Fits (directory path : String) : Prop :=
  path.utf8ByteSize ≤ FileTree.maxPathBytes →
    (below directory path).utf8ByteSize ≤ FileTree.maxPathBytes

instance (name : String) : Decidable (IsPlainName name) :=
  decidable_of_iff (name ≠ "" ∧ '/' ∉ name.toList ∧ name ≠ "." ∧ name ≠ "..")
    ⟨fun h => ⟨h.1, h.2.1, h.2.2.1, h.2.2.2⟩,
      fun h => ⟨h.nonempty, h.noSlash, h.notHere, h.notAbove⟩⟩

instance (path : String) : Decidable (IsOrdinary path) :=
  inferInstanceAs (Decidable (∀ name ∈ segments path, IsPlainName name))

instance (directory path : String) : Decidable (Fits directory path) :=
  inferInstanceAs (Decidable (_ → _))

theorem splitSlashes_ne_nil (text : List Char) : splitSlashes text ≠ [] := by
  rw [splitSlashes_eq]
  exact List.splitOn_ne_nil _ _

theorem segments_ne_nil (path : String) : segments path ≠ [] := by
  simpa [segments] using splitSlashes_ne_nil path.toList

theorem splitSlashes_append (front back : List Char) :
    splitSlashes (front ++ '/' :: back) = splitSlashes front ++ splitSlashes back := by
  induction front with
  | nil => simp [splitSlashes]
  | cons c front ih =>
    rw [List.cons_append, splitSlashes, splitSlashes, ih]
    split
    · rfl
    · cases hsplit : splitSlashes front with
      | nil => exact absurd hsplit (splitSlashes_ne_nil front)
      | cons piece more => rfl

theorem segments_below (directory path : String) :
    segments (below directory path) = segments directory ++ segments path := by
  have htext : (below directory path).toList = directory.toList ++ '/' :: path.toList := by
    simp [below]
  rw [segments, htext, splitSlashes_append, List.map_append]
  rfl

theorem ofSegments_segments (path : String) : ofSegments (segments path) = path := by
  have hpieces : (segments path).map String.toList = path.toList.splitOn '/' := by
    rw [segments, List.map_map, ← splitSlashes_eq]
    simp [Function.comp_def]
  rw [← String.toList_inj, ofSegments, String.toList_intercalate, hpieces]
  exact List.intercalate_splitOn '/'

theorem ofSegments_append {front back : List String} (hfront : front ≠ []) (hback : back ≠ []) :
    ofSegments (front ++ back) = below (ofSegments front) (ofSegments back) := by
  induction front with
  | nil => exact absurd rfl hfront
  | cons first rest ih =>
    rw [List.cons_append, ofSegments_cons (by simp [hback])]
    by_cases hrest : rest = []
    · rw [hrest, ofSegments_singleton]
      rfl
    · rw [ih hrest, ofSegments_cons hrest]
      simp only [below, String.append_assoc]

/-! ## What a text means by a path -/

theorem IsOrdinary.ne_empty {path : String} (h : IsOrdinary path) : path ≠ "" := by
  rintro rfl
  exact (h "" (by decide)).nonempty rfl

theorem IsOrdinary.isAbsolute_eq_false {path : String} (h : IsOrdinary path) :
    isAbsolute path = false := by
  rw [isAbsolute, decide_eq_false_iff_not]
  intro hhead
  obtain ⟨rest, hrest⟩ := List.head?_eq_some_iff.1 hhead
  have hempty : "" ∈ segments path := by
    rw [segments, hrest, splitSlashes, if_pos rfl]
    exact List.mem_cons_self
  exact (h "" hempty).nonempty rfl

theorem IsOrdinary.components_eq {path : String} (h : IsOrdinary path) :
    components path = segments path := by
  have hdot : (segments path).head? ≠ some "." := fun hhead =>
    (h _ (List.mem_of_mem_head? hhead)).notHere rfl
  rw [components, if_neg hdot, List.nil_append, List.filter_eq_self]
  exact fun name hname => by rw [(h name hname).not_isIdle, Bool.not_false]

theorem isOrdinary_ofSegments {pieces : List String} (hne : pieces ≠ [])
    (hplain : ∀ name ∈ pieces, IsPlainName name) : IsOrdinary (ofSegments pieces) := by
  intro piece hpiece
  rw [segments_ofSegments hne fun name hname => (hplain name hname).noSlash] at hpiece
  exact hplain piece hpiece

/-- Pieces that are plain names are those of a directory. -/
theorem isDirectory_of_plain {pieces : List String} (hne : pieces ≠ [])
    (hplain : ∀ name ∈ pieces, IsPlainName name) : IsDirectory pieces := by
  refine ⟨hne, ?_, fun name hname => (hplain name hname).noSlash⟩
  obtain ⟨front, last, rfl⟩ := (List.eq_nil_or_concat' pieces).resolve_left hne
  exact trimIdle_concat (hplain last (by simp)).not_isIdle front

/-- In the text at a path of plain names a path counts from all of them but the last one. -/
theorem resolve_ofSegments {pieces : List String} {name argument : String}
    (hplain : ∀ piece ∈ pieces, IsPlainName piece) (hname : IsPlainName name)
    (hargument : IsOrdinary argument) :
    resolve (ofSegments (pieces ++ [name])) argument = ofSegments (pieces ++ [argument]) := by
  rw [resolve, if_neg (by simp [hargument.isAbsolute_eq_false])]
  by_cases hpieces : pieces = []
  · rw [hpieces, List.nil_append, List.nil_append, ofSegments_singleton, ofSegments_singleton,
      parent?_plain hname]
    exact String.empty_append
  · have hdirectory := isDirectory_of_plain hpieces hplain
    rw [parent?_ofSegments hname hdirectory]
    exact hdirectory.join argument

/-- The pieces of an ordinary path, the last one apart. -/
theorem IsOrdinary.exists_ofSegments {path : String} (h : IsOrdinary path) :
    ∃ pieces name, path = ofSegments (pieces ++ [name]) ∧ (∀ piece ∈ pieces, IsPlainName piece) ∧
      IsPlainName name := by
  obtain ⟨pieces, name, hpieces⟩ :=
    (List.eq_nil_or_concat' (segments path)).resolve_left (segments_ne_nil path)
  have hplain : ∀ piece ∈ pieces ++ [name], IsPlainName piece := hpieces ▸ h
  refine ⟨pieces, name, ?_, fun piece hpiece => hplain piece (by simp [hpiece]),
    hplain name (by simp)⟩
  rw [← hpieces, ofSegments_segments]

section
variable {directory path source argument : String} (hsource : IsOrdinary source)
  (hargument : IsOrdinary argument)

theorem IsOrdinary.below (hdirectory : IsOrdinary directory) (hpath : IsOrdinary path) :
    IsOrdinary (below directory path) := by
  intro name hname
  rw [segments_below] at hname
  obtain hfront | hback := List.mem_append.1 hname
  · exact hdirectory name hfront
  · exact hpath name hback

include hsource hargument

theorem isOrdinary_resolve : IsOrdinary (resolve source argument) := by
  obtain ⟨pieces, name, rfl, hplain, hname⟩ := hsource.exists_ofSegments
  rw [resolve_ofSegments hplain hname hargument]
  by_cases hpieces : pieces = []
  · rw [hpieces, List.nil_append, ofSegments_singleton]
    exact hargument
  · rw [ofSegments_concat hpieces]
    exact (isOrdinary_ofSegments hpieces hplain).below hargument

/-- A text below a directory means the path below the directory. -/
theorem resolve_below (hdirectory : IsOrdinary directory) :
    resolve (Path.below directory source) argument =
      Path.below directory (resolve source argument) := by
  obtain ⟨pieces, name, rfl, hplain, hname⟩ := hsource.exists_ofSegments
  have hpieces (last : String) : Path.below directory (ofSegments (pieces ++ [last])) =
      ofSegments (segments directory ++ pieces ++ [last]) := by
    rw [List.append_assoc, ofSegments_append (segments_ne_nil directory) (List.concat_ne_nil _ _),
      ofSegments_segments]
  have hall : ∀ piece ∈ segments directory ++ pieces, IsPlainName piece := by
    intro piece hpiece
    obtain hfront | hback := List.mem_append.1 hpiece
    · exact hdirectory piece hfront
    · exact hplain piece hback
  rw [hpieces, resolve_ofSegments hall hname hargument, resolve_ofSegments hplain hname hargument,
    hpieces]

end

end Path

/-! ## Places below a directory -/

namespace Place

/-- The place to which names lead from the place. -/
def descend (place : Place) (names : List String) : Place := ⟨place.names ++ names⟩

/-- The place in the directory, if it is one in the working directory. -/
def under (working : Place) (directory : String) (place : Place) : Place :=
  if working.names <+: place.names then
    working.descend (Path.segments directory ++ place.names.drop working.names.length)
  else place

variable {working place : Place}

theorem child_descend (place : Place) (names : List String) (name : String) :
    (place.descend names).child name = place.descend (names ++ [name]) :=
  congrArg Place.mk (List.append_assoc ..)

theorem descend_injective (place : Place) : Function.Injective place.descend := fun _ _ h =>
  List.append_cancel_left (Place.mk.inj h)

theorem exists_descend (h : working.names <+: place.names) :
    ∃ names, place = working.descend names := by
  obtain ⟨names, hnames⟩ := h
  exact ⟨names, congrArg Place.mk hnames.symm⟩

theorem under_descend (working : Place) (directory : String) (names : List String) :
    under working directory (working.descend names) =
      working.descend (Path.segments directory ++ names) := by
  have hbelow : working.names <+: (working.descend names).names := List.prefix_append _ _
  rw [under, if_pos hbelow]
  exact congrArg (fun rest => working.descend (Path.segments directory ++ rest)) List.drop_left

theorem under_injective (working : Place) (directory : String) :
    Function.Injective (under working directory) := by
  intro place other h
  by_cases hplace : working.names <+: place.names
  · obtain ⟨names, rfl⟩ := exists_descend hplace
    rw [under_descend] at h
    by_cases hother : working.names <+: other.names
    · obtain ⟨others, rfl⟩ := exists_descend hother
      rw [under_descend] at h
      rw [List.append_cancel_left (descend_injective working h)]
    · rw [under, if_neg hother] at h
      exact absurd (h ▸ List.prefix_append _ _) hother
  · rw [under, if_neg hplace] at h
    by_cases hother : working.names <+: other.names
    · obtain ⟨others, rfl⟩ := exists_descend hother
      rw [under_descend] at h
      exact absurd (h ▸ List.prefix_append _ _) hplace
    · rwa [under, if_neg hother] at h

end Place

/-! ## Trees below a directory -/

namespace FileTree

/-- The directories from the working directory to one of this path, which is the last one. -/
def onWay (working : Place) (directory : String) : List (Place × Node) :=
  (Path.segments directory).inits.map fun names => (working.descend names, .directory)

/-- The tree with all that is in the working directory moved to a directory of this path. -/
def under (directory : String) (files : FileTree) : FileTree :=
  { files with
    entries := onWay files.working directory ++
      files.entries.map fun entry => (.under files.working directory entry.1, entry.2) }

theorem working_under (directory : String) (files : FileTree) :
    (files.under directory).working = files.working := rfl

section
variable {directory path : String} {files : FileTree} {working place : Place}

theorem lookup_onWay {names : List String} (h : names <+: Path.segments directory) :
    (onWay working directory).lookup (working.descend names) = some .directory := by
  have hisSome : ((onWay working directory).lookup (working.descend names)).isSome := by
    rw [List.lookup_isSome_iff]
    exact ⟨_, List.mem_map_of_mem ((List.mem_inits _ _).2 h), beq_self_eq_true _⟩
  obtain ⟨node, hnode⟩ := Option.isSome_iff_exists.1 hisSome
  obtain ⟨before, after, hsplit, -⟩ := List.lookup_eq_some_iff.1 hnode
  have hmem : (working.descend names, node) ∈ onWay working directory := by simp [hsplit]
  obtain ⟨_, -, hentry⟩ := List.mem_map.1 hmem
  rw [hnode, ← (Prod.mk.inj hentry).2]

theorem lookup_onWay_eq_none {names : List String} (h : ¬ names <+: Path.segments directory) :
    (onWay working directory).lookup (working.descend names) = none := by
  rw [List.lookup_eq_none_iff]
  intro entry hentry
  obtain ⟨others, hway, rfl⟩ := List.mem_map.1 hentry
  rw [bne_iff_ne]
  intro hsame
  exact h (Place.descend_injective working hsame ▸ (List.mem_inits _ _).1 hway)

/-- Different places have moved to different ones. -/
theorem lookup_map_under (entries : List (Place × Node)) (place : Place) :
    (entries.map fun entry => (Place.under working directory entry.1, entry.2)).lookup
      (Place.under working directory place) = entries.lookup place := by
  simp [List.lookup_eq_findSome?, List.findSome?_map, Function.comp_def,
    (Place.under_injective working directory).eq_iff]

theorem node?_onWay {names : List String} (h : names <+: Path.segments directory) :
    (files.under directory).node? (files.working.descend names) = some .directory := by
  unfold node?
  split
  · rfl
  · rw [under, List.lookup_append, lookup_onWay h, Option.some_or]

/-- Below the working directory there is what the tree says. -/
theorem node?_descend (files : FileTree) {names : List String} (h : names ≠ []) :
    files.node? (files.working.descend names) =
      files.entries.lookup (files.working.descend names) := by
  have hbelow : ¬ (files.working.names ++ names) <+: files.working.names := fun hprefix =>
    h (List.self_eq_append_right.1
      ((List.prefix_append _ _).eq_of_length_le hprefix.length_le))
  rw [node?, if_neg (by rwa [List.isPrefixOf_iff_prefix])]

/-- What was at a place has moved along. The directories on the way are none of these places, but
the working directory itself has moved to the last one of them. -/
theorem node?_under (files : FileTree) (directory : String) (names : List String) :
    (files.under directory).node? (files.working.descend (Path.segments directory ++ names)) =
      files.node? (files.working.descend names) := by
  by_cases hnames : names = []
  · rw [hnames, List.append_nil, node?_onWay List.prefix_rfl, Place.descend, List.append_nil, node?,
      if_pos (by simp)]
  · have hbelow : ¬ (Path.segments directory ++ names) <+: Path.segments directory := fun hway =>
      hnames (List.self_eq_append_right.1
        ((List.prefix_append _ _).eq_of_length_le hway.length_le))
    have hmoved : Path.segments directory ++ names ≠ [] :=
      List.append_ne_nil_of_right_ne_nil _ hnames
    rw [← working_under directory, node?_descend _ hmoved, working_under, node?_descend _ hnames,
      under, List.lookup_append, lookup_onWay_eq_none hbelow, Option.none_or,
      ← Place.under_descend, lookup_map_under]

/-- A path can be followed piece by piece. -/
theorem follow_append (files : FileTree) (place : Place) (front back : List String) :
    files.follow place (front ++ back) =
      match files.follow place front with
      | .ok middle => files.follow middle back
      | .error fault => .error fault := by
  unfold follow
  induction front generalizing place with
  | nil => rfl
  | cons piece front ih =>
    rw [List.cons_append, walk, walk]
    split
    · rfl
    · rfl
    · split
      · exact ih _
      · split
        · rfl
        · split
          · rfl
          · exact ih _

theorem follow_plain_cons (files : FileTree) (place : Place) {name : String}
    (hname : Path.IsPlainName name) (rest : List String) :
    files.follow place (name :: rest) =
      match files.node? place with
      | none => .error .missing
      | some (.file _) => .error .notDirectory
      | some .directory =>
        if maxNameBytes < name.utf8ByteSize then .error .nameTooLong
        else if (files.node? (place.child name)).isNone then .error .missing
        else files.follow (place.child name) rest := by
  unfold follow
  rw [walk]
  cases files.node? place with
  | none => rfl
  | some node =>
    cases node with
    | file contents => rfl
    | directory => simp [hname.isName]

/-- Plain names lead along with what has moved. -/
theorem follow_under (files : FileTree) (directory : String) {pieces : List String}
    (hplain : ∀ piece ∈ pieces, Path.IsPlainName piece) (names : List String) :
    (files.under directory).follow (files.working.descend (Path.segments directory ++ names))
        pieces =
      (files.follow (files.working.descend names) pieces).map
        (Place.under files.working directory) := by
  induction pieces generalizing names with
  | nil => exact congrArg Except.ok (Place.under_descend ..).symm
  | cons piece rest ih =>
    obtain ⟨hpiece, hrest⟩ := List.forall_mem_cons.1 hplain
    rw [follow_plain_cons _ _ hpiece, follow_plain_cons _ _ hpiece, node?_under,
      Place.child_descend, Place.child_descend, List.append_assoc, node?_under, ih hrest]
    split
    · rfl
    · rfl
    · split
      · rfl
      · split <;> rfl

/-- The names of the directory lead to it. -/
theorem follow_directory (files : FileTree) (hdirectory : Path.IsOrdinary directory)
    (hpossible : Path.IsPossible directory) :
    (files.under directory).follow (files.working.descend []) (Path.segments directory) =
      .ok (files.working.descend (Path.segments directory)) := by
  have hfollow : ∀ front back, front ++ back = Path.segments directory →
      (files.under directory).follow (files.working.descend front) back =
        .ok (files.working.descend (Path.segments directory)) := by
    intro front back hway
    induction back generalizing front with
    | nil =>
      rw [← hway, List.append_nil]
      rfl
    | cons name back ih =>
      have hname : name ∈ Path.segments directory := by simp [← hway]
      have hnext : (front ++ [name]) ++ back = Path.segments directory := by simp [← hway]
      rw [follow_plain_cons _ _ (hdirectory name hname), Place.child_descend, node?_onWay ⟨_, hway⟩,
        node?_onWay ⟨_, hnext⟩]
      simp only [Nat.not_lt.2 (hpossible.short name hname), if_false]
      exact ih (front ++ [name]) hnext
  exact hfollow [] _ rfl

end

/-! ## Paths into a directory -/

theorem origin_of_ordinary (files : FileTree) {path : String} (h : Path.IsOrdinary path) :
    files.origin path = files.working.descend [] := by
  rw [origin, h.isAbsolute_eq_false, Place.descend, List.append_nil]
  rfl

theorem locate_of_ordinary {files : FileTree} {path : String} {place : Place}
    (hpath : Path.IsOrdinary path) (h : files.locate path = .ok place) :
    place = files.working.descend (Path.segments path) := by
  have hfollow := follow_of_locate h
  have hnames := names_of_follow (fun name hname => (hpath name hname).isName) hfollow
  rw [files.origin_of_ordinary hpath, Place.descend, List.append_nil] at hnames
  exact congrArg Place.mk hnames

/-- Ordinary paths are known by their own pieces, in either way. -/
theorem identity_of_ordinary (files : FileTree) {path : String} (hpath : Path.IsOrdinary path) :
    files.identity path = .ofPlace (files.working.descend (Path.segments path)) ∨
      files.identity path = ⟨false, Path.segments path⟩ := by
  cases hcanonical : files.canonical? path with
  | some place =>
    have hfollow := follow_of_walk (walk_of_canonical? hcanonical)
    have hnames := names_of_follow (fun name hname => (hpath name hname).isName) hfollow
    rw [files.origin_of_ordinary hpath, Place.descend, List.append_nil] at hnames
    left
    rw [identity_of_canonical? hcanonical]
    exact congrArg (Identity.mk true) hnames
  | none =>
    right
    rw [identity_of_not_canonical? hcanonical, hpath.isAbsolute_eq_false, hpath.components_eq]

/-- Ordinary paths are known apart. -/
theorem identity_eq_iff (files : FileTree) {path other : String} (hpath : Path.IsOrdinary path)
    (hother : Path.IsOrdinary other) :
    files.identity path = files.identity other ↔ path = other := by
  refine ⟨fun h => ?_, fun h => h ▸ rfl⟩
  suffices hpieces : Path.segments path = Path.segments other by
    rw [← Path.ofSegments_segments path, hpieces, Path.ofSegments_segments]
  obtain hleft | hleft := files.identity_of_ordinary hpath <;>
    obtain hright | hright := files.identity_of_ordinary hother <;> rw [hleft, hright] at h
  · exact Place.descend_injective _ (Identity.ofPlace_injective h)
  · cases (Identity.mk.inj h).1
  · cases (Identity.mk.inj h).1
  · exact (Identity.mk.inj h).2

section
variable {directory path : String} (hdirectory : Path.IsOrdinary directory)
  (hpossible : Path.IsPossible directory) (hpath : Path.IsOrdinary path)
  (hfits : Path.Fits directory path)

include hpossible hpath hfits in
theorem pathFault?_below : pathFault? (Path.below directory path) = pathFault? path := by
  have hnul : '\x00' ∈ (Path.below directory path).toList ↔ '\x00' ∈ path.toList := by
    simp [Path.below, hpossible.noNul]
  have hempty : Path.below directory path ≠ "" := by simp [Path.below, String.append_eq_empty_iff]
  have hlong : maxPathBytes < (Path.below directory path).utf8ByteSize ↔
      maxPathBytes < path.utf8ByteSize := by
    have hlonger : path.utf8ByteSize ≤ (Path.below directory path).utf8ByteSize := by
      simp [Path.below]
    have hroom := hfits
    unfold Path.Fits at hroom
    omega
  simp only [pathFault?, hnul, hempty, hpath.ne_empty, hlong]

include hdirectory hpossible hpath hfits

/-- A path leads to the place that has moved along. -/
theorem locate_below (files : FileTree) :
    (files.under directory).locate (Path.below directory path) =
      (files.locate path).map (Place.under files.working directory) := by
  have horigin := (files.under directory).origin_of_ordinary (hdirectory.below hpath)
  have hfollow := follow_directory files hdirectory hpossible
  have hunder := follow_under files directory hpath []
  rw [List.append_nil] at hunder
  rw [locate, locate, pathFault?_below hpossible hpath hfits]
  split
  · rfl
  · rw [horigin, files.origin_of_ordinary hpath, Path.segments_below, follow_append, working_under,
      hfollow]
    exact hunder

theorem openText_below (files : FileTree) :
    (files.under directory).openText (Path.below directory path) =
      (files.openText path).map fun found =>
        ((files.under directory).identity (Path.below directory path), found.2) := by
  rw [openText, openText, locate_below hdirectory hpossible hpath hfits]
  cases hlocate : files.locate path with
  | error fault => rfl
  | ok place =>
    obtain rfl := locate_of_ordinary hpath hlocate
    simp only [Except.map, Place.under_descend]
    have htext : (files.under directory).textAt
        (files.working.descend (Path.segments directory ++ Path.segments path)) =
          files.textAt (files.working.descend (Path.segments path)) := by
      rw [textAt, textAt, node?_under]
    rw [htext]
    cases files.textAt (files.working.descend (Path.segments path)) <;> rfl

end

end FileTree

/-! ## Beyond the limits of the system -/

namespace Path

theorem utf8ByteSize_ofSegments_replicate (count : Nat) (name : String) :
    (ofSegments (List.replicate (count + 1) name)).utf8ByteSize + 1 =
      (count + 1) * (name.utf8ByteSize + 1) := by
  induction count with
  | zero => simp
  | succ count ih =>
    have hslash : ("/" : String).utf8ByteSize = 1 := rfl
    rw [List.replicate_succ, ofSegments_cons (by simp), String.utf8ByteSize_append,
      String.utf8ByteSize_append, hslash, Nat.succ_mul, ← ih]
    omega

theorem not_mem_ofSegments {pieces : List String} {c : Char} (hc : c ≠ '/')
    (h : ∀ piece ∈ pieces, c ∉ piece.toList) : c ∉ (ofSegments pieces).toList := by
  induction pieces with
  | nil => exact List.not_mem_nil
  | cons first rest ih =>
    by_cases hrest : rest = []
    · rw [hrest, ofSegments_singleton]
      exact h first List.mem_cons_self
    · have hback := ih fun piece hpiece => h piece (List.mem_cons_of_mem _ hpiece)
      simp [ofSegments_cons hrest, hc, h first, hback]

/-- A long name of one letter. -/
theorem utf8ByteSize_replicate (count : Nat) :
    (String.ofList (List.replicate count 'd')).utf8ByteSize = count := by
  induction count with
  | zero => rfl
  | succ count ih =>
    rw [List.replicate_succ, Position.utf8ByteSize_ofList_cons, ih, Nat.add_comm]
    rfl

theorem isPlainName_replicate {count : Nat} (hcount : 2 < count) :
    IsPlainName (String.ofList (List.replicate count 'd')) := by
  have hne {other : String} (h : other.utf8ByteSize ≤ 2) :
      String.ofList (List.replicate count 'd') ≠ other := by
    rintro rfl
    rw [utf8ByteSize_replicate] at h
    omega
  refine ⟨hne (by decide), ?_, hne (by decide), hne (by decide)⟩
  rw [String.toList_ofList]
  intro hslash
  exact absurd (List.eq_of_mem_replicate hslash) (by decide)

theorem IsPlainName.isOrdinary {name : String} (h : IsPlainName name) : IsOrdinary name := by
  intro piece hpiece
  rw [h.segments_eq, List.mem_singleton] at hpiece
  exact hpiece ▸ h

end Path

namespace FileTree

theorem openText_of_pathFault? {files : FileTree} {path : String} {fault : FileFault}
    (h : pathFault? path = some fault) : files.openText path = .error fault := by
  rw [openText, locate, h]

/-- A name that is too long leads nowhere, whether or not something has it. -/
theorem openText_of_long_name {files : FileTree} {path name : String} {rest : List String}
    (hpath : Path.IsOrdinary path) (hfault : pathFault? path = none)
    (hsegments : Path.segments path = name :: rest) (hlong : maxNameBytes < name.utf8ByteSize) :
    files.openText path = .error .nameTooLong := by
  have hname : Path.IsPlainName name := hpath name (by simp [hsegments])
  have htop : files.node? (files.working.descend []) = some .directory :=
    if_pos (by simp [Place.descend])
  rw [openText, locate, hfault, files.origin_of_ordinary hpath, hsegments]
  simp only [follow_plain_cons _ _ hname, htop, hlong, if_true]

/-- A file below so many directories in each other cannot be reached from above them all. -/
theorem openText_of_deep (files : FileTree) {count : Nat} (hcount : maxPathBytes ≤ 2 * count) :
    files.openText (Path.below (Path.ofSegments (List.replicate (count + 1) "d")) "m") =
      .error .nameTooLong := by
  have hsize := Path.utf8ByteSize_ofSegments_replicate count "d"
  have hnul : '\x00' ∉ (Path.ofSegments (List.replicate (count + 1) "d")).toList := by
    refine Path.not_mem_ofSegments (by decide) fun piece hpiece => ?_
    rw [List.eq_of_mem_replicate hpiece]
    decide +kernel
  generalize Path.ofSegments (List.replicate (count + 1) "d") = directory at hsize hnul
  have hlong : maxPathBytes < (Path.below directory "m").utf8ByteSize := by
    have hd : ("d" : String).utf8ByteSize = 1 := rfl
    have hslash : ("/" : String).utf8ByteSize = 1 := rfl
    rw [hd] at hsize
    rw [Path.below, String.utf8ByteSize_append, String.utf8ByteSize_append, hslash]
    omega
  refine openText_of_pathFault? ?_
  rw [pathFault?, if_neg (by simp [Path.below, hnul]), if_neg (by simp [Path.below]),
    if_pos hlong]

theorem openText_of_long (files : FileTree) {count : Nat} (hcount : maxNameBytes < count)
    (hfits : count + 2 ≤ maxPathBytes) :
    files.openText (Path.below (String.ofList (List.replicate count 'd')) "m") =
      .error .nameTooLong := by
  have hbytes := Path.utf8ByteSize_replicate count
  have hname : Path.IsPlainName (String.ofList (List.replicate count 'd')) := by
    refine Path.isPlainName_replicate ?_
    unfold maxNameBytes at hcount
    omega
  have hnul : '\x00' ∉ (String.ofList (List.replicate count 'd')).toList := by
    simp [String.toList_ofList]
  generalize String.ofList (List.replicate count 'd') = name at *
  have hfault : pathFault? (Path.below name "m") = none := by
    have hsize : (Path.below name "m").utf8ByteSize = count + 2 := by
      rw [Path.below, String.utf8ByteSize_append, String.utf8ByteSize_append, hbytes]
      rfl
    rw [pathFault?, if_neg (by simp [Path.below, hnul]), if_neg (by simp [Path.below]),
      if_neg (by omega)]
  have hsegments : Path.segments (Path.below name "m") = name :: Path.segments "m" := by
    rw [Path.segments_below, hname.segments_eq]
    rfl
  exact openText_of_long_name (hname.isOrdinary.below (by decide +kernel)) hfault hsegments
    (hbytes ▸ hcount)

end FileTree
end ShellConfig
