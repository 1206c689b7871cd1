import Mathlib.Data.List.Nodup
import Mathlib.Data.List.Perm.Subperm
import ShellConfig.Config.Serialize

/-!
What configurations contain, apart from the order of their variables. `sameContents_iff` says when
two have the same contents, and `get?_merge` and `lines_merge` what a configuration contains after
the variables and lines of another one were added to it.
-/

set_option autoImplicit false

namespace ShellConfig

/-! ## Entries -/

theorem OrderedMap.lookup_eq_some_iff {α : Type} {entries : List (String × α)}
    (hnodup : (entries.map Prod.fst).Nodup) {name : String} {value : α} :
    entries.lookup name = some value ↔ (name, value) ∈ entries := by
  induction entries with
  | nil => simp
  | cons entry rest ih =>
    obtain ⟨key, old⟩ := entry
    rw [List.map_cons, List.nodup_cons] at hnodup
    rw [OrderedMap.lookup_cons_eq, List.mem_cons, Prod.mk.injEq]
    by_cases hname : name = key
    · subst hname
      have hmem : (name, value) ∉ rest := fun h => hnodup.1 (List.mem_map.2 ⟨_, h, rfl⟩)
      simp [hmem, eq_comm]
    · simp [hname, ih hnodup.2]

theorem OrderedMap.find?_eq_some_iff {α : Type} (map : OrderedMap α) {name : String} {value : α} :
    map.find? name = some value ↔ (name, value) ∈ map.entries :=
  lookup_eq_some_iff map.nodup

namespace Config

theorem mem_names_iff {config : Config} {name : String} :
    name ∈ config.names ↔ (config.get? name).isSome :=
  OrderedMap.mem_keys_iff config.vars name

theorem nodup_sortedVars (config : Config) : (config.sortedVars.map Prod.fst).Nodup :=
  ((config.sortedVars_perm.map Prod.fst).nodup_iff).2 config.vars.nodup

/-- The order by names loses nothing. -/
theorem lookup_sortedVars (config : Config) (name : String) :
    config.sortedVars.lookup name = config.get? name := by
  ext value
  rw [OrderedMap.lookup_eq_some_iff config.nodup_sortedVars, config.sortedVars_perm.mem_iff]
  exact config.vars.find?_eq_some_iff.symm

theorem mem_sortedVars_names {config : Config} {entry : String × List String}
    (h : entry ∈ config.sortedVars) : entry.1 ∈ config.names :=
  List.mem_map_of_mem (config.sortedVars_perm.mem_iff.1 h)

/-! ## The same contents -/

theorem get?_eq_iff_perm {left right : Config} :
    (∀ name, left.get? name = right.get? name) ↔ left.vars.entries.Perm right.vars.entries := by
  have hmem (config : Config) (entry : String × List String) :
      entry ∈ config.vars.entries ↔ config.get? entry.1 = some entry.2 :=
    config.vars.find?_eq_some_iff.symm
  constructor
  · intro h
    have hleft : left.vars.entries.Nodup := List.Nodup.of_map _ left.vars.nodup
    have hright : right.vars.entries.Nodup := List.Nodup.of_map _ right.vars.nodup
    refine (List.perm_ext_iff_of_nodup hleft hright).2 fun entry => ?_
    rw [hmem, hmem, h]
  · intro h name
    ext value
    rw [← hmem left (name, value), ← hmem right (name, value), h.mem_iff]

theorem sameContents_iff {left right : Config} :
    left.sameContents right ↔
      (∀ name, left.get? name = right.get? name) ∧ left.lines = right.lines := by
  have hmem {entry : String × List String} :
      entry ∈ right.vars.entries ↔ right.get? entry.1 = some entry.2 :=
    right.vars.find?_eq_some_iff.symm
  simp only [sameContents, Bool.and_eq_true, decide_eq_true_eq, List.all_eq_true, get?_eq_iff_perm]
  constructor
  · intro ⟨⟨hsize, hsub⟩, hlines⟩
    have hsubset : left.vars.entries ⊆ right.vars.entries := fun entry hentry =>
      hmem.2 (hsub entry hentry)
    have hsubperm := List.subperm_of_subset (List.Nodup.of_map _ left.vars.nodup) hsubset
    exact ⟨hsubperm.perm_of_length_le (Nat.le_of_eq hsize.symm), hlines⟩
  · intro ⟨hperm, hlines⟩
    exact ⟨⟨hperm.length_eq, fun entry hentry => hmem.1 (hperm.mem_iff.1 hentry)⟩, hlines⟩

/-! ## Adding to a configuration -/

/-- Sets variables in turn. -/
def setAll (config : Config) (entries : List (String × List String)) : Config :=
  entries.foldl (fun config entry => config.set entry.1 entry.2) config

/-- Receives lines in turn. -/
def receiveAll (config : Config) (lines : List (List String)) : Config :=
  lines.foldl receiveLine config

/-- The variables of a configuration, and then its lines, added to those of another one. -/
def merge (initial config : Config) : Config :=
  (initial.setAll config.sortedVars).receiveAll config.lines

theorem get?_setAll {entries : List (String × List String)}
    (hnodup : (entries.map Prod.fst).Nodup) (config : Config) (name : String) :
    (config.setAll entries).get? name = (entries.lookup name).or (config.get? name) := by
  induction entries generalizing config with
  | nil => rfl
  | cons entry rest ih =>
    obtain ⟨key, values⟩ := entry
    rw [List.map_cons, List.nodup_cons] at hnodup
    have hset : (config.setAll ((key, values) :: rest)).get? name =
        (rest.lookup name).or ((config.set key values).get? name) := ih hnodup.2 _
    rw [hset, get?_set, OrderedMap.lookup_cons_eq]
    by_cases hname : name = key
    · subst hname
      have hnone : rest.lookup name = none := by
        rw [List.lookup_eq_none_iff]
        intro other hother
        simp only [bne_iff_ne]
        rintro rfl
        exact hnodup.1 (List.mem_map.2 ⟨other, hother, rfl⟩)
      simp [hnone]
    · simp [hname]

@[simp] theorem lines_setAll (config : Config) (entries : List (String × List String)) :
    (config.setAll entries).lines = config.lines := by
  induction entries generalizing config with
  | nil => rfl
  | cons entry rest ih => exact ih _

@[simp] theorem get?_receiveAll (config : Config) (lines : List (List String)) (name : String) :
    (config.receiveAll lines).get? name = config.get? name := by
  induction lines generalizing config with
  | nil => rfl
  | cons line rest ih => exact ih _

@[simp] theorem lines_receiveAll (config : Config) (lines : List (List String)) :
    (config.receiveAll lines).lines = config.lines ++ lines := by
  induction lines generalizing config with
  | nil => exact (List.append_nil _).symm
  | cons line rest ih => exact (ih _).trans (by simp)

theorem get?_merge (initial config : Config) (name : String) :
    (initial.merge config).get? name = (config.get? name).or (initial.get? name) := by
  rw [merge, get?_receiveAll, get?_setAll config.nodup_sortedVars, lookup_sortedVars]

theorem lines_merge (initial config : Config) :
    (initial.merge config).lines = initial.lines ++ config.lines := by
  simp [merge]

theorem sameContents_merge_empty (config : Config) : (empty.merge config).sameContents config := by
  rw [sameContents_iff]
  refine ⟨fun name => ?_, lines_merge empty config⟩
  rw [get?_merge]
  exact Option.or_none

end Config

end ShellConfig
