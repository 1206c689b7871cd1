import Mathlib.Data.List.Nodup
import ShellConfig.Proofs.Config.History

/-!
The text of a configuration depends on what the configuration contains, and on nothing else. The
order of the variables in it is that of their names by code point, in which no two names are level.
Main statement: two histories that come to the same contents have the same text
(`Config.serialize_ofHistory`).
-/

set_option autoImplicit false

namespace ShellConfig
namespace Config

/-! ## The order of the variables -/

theorem pairwise_sortedVars (config : Config) :
    config.sortedVars.Pairwise fun left right => left.1 ≤ right.1 := by
  have htrans (first second third : String × List String) (hfirst : decide (first.1 ≤ second.1))
      (hsecond : decide (second.1 ≤ third.1)) : decide (first.1 ≤ third.1) :=
    decide_eq_true (String.le_trans (of_decide_eq_true hfirst) (of_decide_eq_true hsecond))
  have htotal (first second : String × List String) :
      decide (first.1 ≤ second.1) || decide (second.1 ≤ first.1) := by
    simpa using String.le_total first.1 second.1
  exact (List.pairwise_mergeSort htrans htotal config.vars.entries).imp of_decide_eq_true

/-- Variables in the order of their names: no two are level, so there is one way to order them. -/
theorem sortedVars_eq_of_perm {left right : Config}
    (h : left.vars.entries.Perm right.vars.entries) : left.sortedVars = right.sortedVars := by
  have hperm : left.sortedVars.Perm right.sortedVars :=
    left.sortedVars_perm.trans (h.trans right.sortedVars_perm.symm)
  refine List.Perm.eq_of_pairwise ?_ left.pairwise_sortedVars right.pairwise_sortedVars hperm
  intro entry other hentry hother hle hge
  exact List.inj_on_of_nodup_map right.nodup_sortedVars (hperm.mem_iff.1 hentry) hother
    (String.le_antisymm hle hge)

/-- The text comes from the values of the variables and from the lines. -/
theorem serialize_eq_of_get? {left right : Config}
    (hvalues : ∀ name, left.get? name = right.get? name) (hlines : left.lines = right.lines) :
    left.serialize = right.serialize := by
  rw [serialize, serialize, sortedVars_eq_of_perm (get?_eq_iff_perm.1 hvalues), hlines]

/-! ## The parts of the text -/

def codePoints (name : String) : List Nat := name.toList.map Char.toNat

theorem codePoints_lt_of_lt {left right : String} (h : left < right) :
    codePoints left < codePoints right :=
  List.map_lt (fun _ _ hlt => hlt) h

/-- The text gives each variable its values once, in the order of the names by code point, and after
that the lines. -/
def WrittenInOrder (config : Config) (text : String) : Prop :=
  ∃ entries : List (String × List String),
    (∀ name values, (name, values) ∈ entries ↔ config.get? name = some values) ∧
    (entries.Pairwise fun left right => codePoints left.1 < codePoints right.1) ∧
    text = String.intercalate "\n"
      (entries.map (fun entry => assignmentText entry.1 entry.2) ++ config.lines.map escapeLine)

theorem writtenInOrder_serialize (config : Config) : config.WrittenInOrder config.serialize := by
  refine ⟨config.sortedVars, fun name values => ?_, ?_, rfl⟩
  · rw [config.sortedVars_perm.mem_iff]
    exact config.vars.find?_eq_some_iff.symm
  · have hne : config.sortedVars.Pairwise fun left right => left.1 ≠ right.1 :=
      List.pairwise_map.1 config.nodup_sortedVars
    refine config.pairwise_sortedVars.imp₂ (fun left right hle hne => ?_) hne
    exact codePoints_lt_of_lt (String.not_le.1 fun hge => hne (String.le_antisymm hle hge))

/-! ## Histories -/

/-- Histories that come to the same values and lines come to the same text, whatever the order in
which they set the variables. -/
theorem serialize_ofHistory (first second : List Change)
    (hvalues : ∀ name, (ofHistory first).get? name = (ofHistory second).get? name)
    (hlines : (ofHistory first).lines = (ofHistory second).lines) :
    (ofHistory first).serialize = (ofHistory second).serialize ∧
      (ofHistory first).WrittenInOrder (ofHistory first).serialize :=
  ⟨serialize_eq_of_get? hvalues hlines, writtenInOrder_serialize _⟩

/-- One history sets the variables in the order of their names, the other one sets the last of them
first, forgets it and sets it again. -/
theorem serialize_ofHistory_forgotten :
    let first := [.set "A" [], .receiveLine ["l"], .append "B" ["x", "y"]]
    let second := [.set "B" ["z"], .unset "B", .append "B" ["x"], .append "A" [],
      .append "B" ["y"], .receiveLine ["l"]]
    (∀ name, (ofHistory first).get? name = (ofHistory second).get? name) ∧
      (ofHistory first).lines = (ofHistory second).lines ∧
      (ofHistory first).serialize = (ofHistory second).serialize ∧
      (ofHistory first).WrittenInOrder (ofHistory first).serialize := by
  intro first second
  have hvalues : ∀ name, (ofHistory first).get? name = (ofHistory second).get? name := by
    rw [get?_eq_iff_perm]
    decide +kernel
  have hlines : (ofHistory first).lines = (ofHistory second).lines := rfl
  exact ⟨hvalues, hlines, serialize_ofHistory first second hvalues hlines⟩

end Config
end ShellConfig
