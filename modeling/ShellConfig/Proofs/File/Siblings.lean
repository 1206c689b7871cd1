import ShellConfig.File.Path
import Mathlib.Data.List.DropRight

/-!
Files side by side in a directory. A path is taken apart at its slashes, and put together again from
pieces without slashes (`Path.segments_ofSegments`). So the directory part of the path that a text
means by a plain name is that of the text's own name (`Path.parent?_sibling`), and both mean the
same by any further path (`Path.resolve_sibling`).
-/

set_option autoImplicit false

namespace ShellConfig
namespace Path

/-! ## Pieces of a path -/

theorem splitSlashes_eq (text : List Char) : splitSlashes text = text.splitOn '/' := by
  induction text with
  | nil => rfl
  | cons c rest ih =>
    rw [splitSlashes, List.splitOn_cons_eq_if_modifyHead, ih]
    by_cases hc : c = '/'
    · simp [hc]
    · rw [if_neg hc, if_neg (by simpa using hc)]
      cases hsplit : rest.splitOn '/' with
      | nil => exact absurd hsplit (List.splitOn_ne_nil _ _)
      | cons piece more => rfl

theorem not_mem_of_mem_splitSlashes {text piece : List Char} (h : piece ∈ splitSlashes text) :
    '/' ∉ piece := by
  induction text generalizing piece with
  | nil => simp_all [splitSlashes]
  | cons c rest ih =>
    rw [splitSlashes] at h
    split at h
    · obtain rfl | hrest := List.mem_cons.1 h
      · exact List.not_mem_nil
      · exact ih hrest
    · next hc =>
      split at h
      · obtain rfl := List.mem_singleton.1 h
        simpa using Ne.symm hc
      · next first more hsplit =>
        rw [hsplit] at ih
        obtain rfl | hrest := List.mem_cons.1 h
        · simpa [Ne.symm hc] using ih (List.mem_cons_self ..)
        · exact ih (List.mem_cons_of_mem _ hrest)

theorem not_mem_of_mem_segments {path piece : String} (h : piece ∈ segments path) :
    '/' ∉ piece.toList := by
  obtain ⟨chars, hchars, rfl⟩ := List.mem_map.1 h
  rw [String.toList_ofList]
  exact not_mem_of_mem_splitSlashes hchars

/-- Pieces without slashes are those of the path that they make. -/
theorem segments_ofSegments {pieces : List String} (hne : pieces ≠ [])
    (hslash : ∀ piece ∈ pieces, '/' ∉ piece.toList) : segments (ofSegments pieces) = pieces := by
  have hsplit : (['/'].intercalate (pieces.map String.toList)).splitOn '/' =
      pieces.map String.toList := by
    refine List.splitOn_intercalate '/' ?_ (by simpa using hne)
    simpa using hslash
  rw [segments, ofSegments, String.toList_intercalate, splitSlashes_eq]
  change (List.splitOn '/' (['/'].intercalate _)).map _ = _
  rw [hsplit, List.map_map]
  simp

@[simp] theorem ofSegments_singleton (name : String) : ofSegments [name] = name :=
  String.intercalate_singleton

theorem ofSegments_cons {pieces : List String} (hne : pieces ≠ []) (first : String) :
    ofSegments (first :: pieces) = first ++ "/" ++ ofSegments pieces :=
  String.intercalate_cons_of_ne_nil hne

theorem ofSegments_concat {pieces : List String} (hne : pieces ≠ []) (name : String) :
    ofSegments (pieces ++ [name]) = ofSegments pieces ++ "/" ++ name := by
  induction pieces with
  | nil => exact absurd rfl hne
  | cons first rest ih =>
    rw [List.cons_append, ofSegments_cons (List.concat_ne_nil _ _)]
    by_cases hrest : rest = []
    · rw [hrest]
      simp [ofSegments]
    · rw [ih hrest, ofSegments_cons hrest]
      simp only [String.append_assoc]

/-! ## Idle pieces -/

theorem trimIdle_cons (first : String) (rest : List String) :
    trimIdle (first :: rest) = first :: rest.rdropWhile isIdle := rfl

theorem trimIdle_eq_nil_iff {pieces : List String} : trimIdle pieces = [] ↔ pieces = [] := by
  cases pieces <;> simp [trimIdle]

theorem mem_of_mem_trimIdle {pieces : List String} {piece : String} (h : piece ∈ trimIdle pieces) :
    piece ∈ pieces := by
  cases pieces with
  | nil => exact h
  | cons first rest =>
    obtain rfl | hrest := List.mem_cons.1 h
    · exact List.mem_cons_self ..
    · exact List.mem_cons_of_mem _ ((List.rdropWhile_prefix isIdle rest).subset hrest)

theorem trimIdle_trimIdle (pieces : List String) :
    trimIdle (trimIdle pieces) = trimIdle pieces := by
  cases pieces with
  | nil => rfl
  | cons first rest => rw [trimIdle_cons, trimIdle_cons, List.rdropWhile_idempotent]

/-- A last piece that is not idle is kept, with all before it. -/
theorem trimIdle_concat {name : String} (hname : isIdle name = false) (pieces : List String) :
    trimIdle (pieces ++ [name]) = pieces ++ [name] := by
  cases pieces with
  | nil => rfl
  | cons first rest =>
    rw [List.cons_append, trimIdle_cons, List.rdropWhile_concat_neg _ _ _ (by simp [hname])]

/-- Where nothing is left to trim the last piece is not empty, unless it is the only one. -/
theorem ne_empty_of_trimIdle {front : List String} {last : String}
    (h : trimIdle (front ++ [last]) = front ++ [last]) (hroot : front ++ [last] ≠ [""]) :
    last ≠ "" := by
  rintro rfl
  cases front with
  | nil => exact hroot rfl
  | cons first rest =>
    rw [List.cons_append, trimIdle_cons, List.rdropWhile_concat_pos _ _ _ rfl] at h
    have hlength := (List.rdropWhile_prefix isIdle rest).length_le
    rw [(List.cons.inj h).2, List.length_append, List.length_singleton] at hlength
    omega

/-! ## Directories -/

/-- The path of a directory with these pieces. A single empty piece is the root. -/
def ofDirectory (pieces : List String) : String :=
  if pieces = [""] then "/" else ofSegments pieces

/-- The pieces of a directory part: those of a path, without idle ones at the end. -/
structure IsDirectory (pieces : List String) : Prop where
  nonempty : pieces ≠ []
  trimmed : trimIdle pieces = pieces
  noSlash : ∀ piece ∈ pieces, '/' ∉ piece.toList

theorem exists_ofSegments_eq (front : List String) (last : String) :
    ∃ before, ofSegments (front ++ [last]) = before ++ last := by
  by_cases hfront : front = []
  · exact ⟨"", by simp [hfront, ofSegments]⟩
  · exact ⟨_, ofSegments_concat hfront last⟩

/-- The path of a directory that is not the root is not empty and does not end with a slash. -/
theorem IsDirectory.not_endsWith_slash {pieces : List String} (h : IsDirectory pieces)
    (hroot : pieces ≠ [""]) :
    ofSegments pieces ≠ "" ∧ (ofSegments pieces).toList.getLast? ≠ some '/' := by
  obtain ⟨front, last, rfl⟩ := (List.eq_nil_or_concat' pieces).resolve_left h.nonempty
  obtain ⟨before, hbefore⟩ := exists_ofSegments_eq front last
  have hlast : last.toList ≠ [] := by
    simpa using ne_empty_of_trimIdle h.trimmed hroot
  rw [hbefore]
  constructor
  · intro hempty
    rw [String.append_eq_empty_iff] at hempty
    exact hlast (by rw [hempty.2]; rfl)
  · intro hslash
    rw [String.toList_append, List.getLast?_append_of_ne_nil _ hlast] at hslash
    exact h.noSlash last (by simp) (List.mem_of_getLast? hslash)

/-- The path of a name in a directory has the pieces of the directory, and then the name. -/
theorem IsDirectory.join {pieces : List String} (h : IsDirectory pieces) (name : String) :
    Path.join (ofDirectory pieces) name = ofSegments (pieces ++ [name]) := by
  rw [ofSegments_concat h.nonempty]
  unfold ofDirectory
  split
  · next hroot =>
    rw [hroot]
    rfl
  · next hroot =>
    have hends := h.not_endsWith_slash hroot
    rw [Path.join, if_neg (by simpa using hends)]

/-- The directory part of a path is missing, or is empty, or has pieces. -/
theorem parent?_cases (path : String) : parent? path = none ∨ parent? path = some "" ∨
    ∃ pieces, IsDirectory pieces ∧ parent? path = some (ofDirectory pieces) := by
  unfold parent?
  rcases htrim : trimIdle (segments path) with _ | ⟨first, _ | ⟨second, rest⟩⟩
  · exact .inl rfl
  · simp only
    split
    · exact .inl rfl
    · exact .inr (.inl rfl)
  · refine .inr (.inr ⟨trimIdle (first :: second :: rest).dropLast, ⟨?_, ?_, ?_⟩, rfl⟩)
    · rw [Ne, trimIdle_eq_nil_iff]
      exact List.cons_ne_nil _ _
    · exact trimIdle_trimIdle _
    · intro piece hpiece
      have hmem := List.dropLast_subset _ (mem_of_mem_trimIdle hpiece)
      rw [← htrim] at hmem
      exact not_mem_of_mem_segments (mem_of_mem_trimIdle hmem)

/-! ## Plain names -/

/-- A name of a file in a directory: not empty, without slashes, and neither that of the directory
itself nor of the one above it. -/
structure IsPlainName (name : String) : Prop where
  nonempty : name ≠ ""
  noSlash : '/' ∉ name.toList
  notHere : name ≠ "."
  notAbove : name ≠ ".."

section
variable {name : String} (hname : IsPlainName name)
include hname

theorem IsPlainName.not_isIdle : isIdle name = false := by
  simp [isIdle, hname.nonempty, hname.notHere]

theorem IsPlainName.isName : isName name = true := by
  simp [Path.isName, hname.not_isIdle, hname.notAbove]

theorem IsPlainName.isAbsolute_eq_false : isAbsolute name = false := by
  rw [isAbsolute, decide_eq_false_iff_not]
  exact fun hhead => hname.noSlash (List.mem_of_mem_head? hhead)

theorem IsPlainName.segments_eq : segments name = [name] := by
  have hsingle := segments_ofSegments (List.cons_ne_nil name []) (by simpa using hname.noSlash)
  rwa [ofSegments_singleton] at hsingle

theorem parent?_ofSegments {pieces : List String} (h : IsDirectory pieces) :
    parent? (ofSegments (pieces ++ [name])) = some (ofDirectory pieces) := by
  have hslash : ∀ piece ∈ pieces ++ [name], '/' ∉ piece.toList := by
    intro piece hpiece
    obtain hold | hlast := List.mem_append.1 hpiece
    · exact h.noSlash piece hold
    · exact List.mem_singleton.1 hlast ▸ hname.noSlash
  have hpieces : trimIdle (segments (ofSegments (pieces ++ [name]))) = pieces ++ [name] := by
    rw [segments_ofSegments (List.concat_ne_nil _ _) hslash, trimIdle_concat hname.not_isIdle]
  unfold parent?
  rw [hpieces]
  -- The name comes after one piece at least.
  split
  · next hnil => exact absurd hnil (List.concat_ne_nil _ _)
  · next hsingle =>
    have hlength := congrArg List.length hsingle
    rw [List.length_append, List.length_singleton, List.length_singleton] at hlength
    exact absurd (List.length_eq_zero_iff.1 (Nat.succ.inj hlength)) h.nonempty
  · simp only [List.dropLast_concat, h.trimmed]
    rfl

theorem parent?_plain : parent? name = some "" := by
  rw [parent?, hname.segments_eq]
  exact if_neg hname.nonempty

/-- The directory of the file that a text means by a plain name is the text's own. -/
theorem parent?_sibling (source : String) :
    parent? (resolve source name) = some ((parent? source).getD "") := by
  rw [resolve, if_neg (by simp [hname.isAbsolute_eq_false])]
  obtain hparent | hparent | ⟨pieces, hpieces, hparent⟩ := parent?_cases source
  · rw [hparent]
    exact parent?_plain hname
  · rw [hparent]
    exact parent?_plain hname
  · rw [hparent]
    simp only [hpieces.join, parent?_ofSegments hname hpieces, Option.getD_some]

/-- By any path a text and a file in its directory mean the same. -/
theorem resolve_sibling (source path : String) :
    resolve (resolve source name) path = resolve source path := by
  rw [resolve, parent?_sibling hname, resolve]
  cases parent? source with
  | some directory => rfl
  | none => rfl

end

end Path
end ShellConfig
