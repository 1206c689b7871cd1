import ShellConfig.Line.Operation
import ShellConfig.Line.Reference

/-!
The shape of a configuration: its names in their order, and how many values each of them has. In two
configurations of one shape a reference stands for the same, apart from texts
(`Config.expand_alike`). An operation with as many words in both makes configurations of one shape,
and adds a line to both or to none (`Operation.growAlike_apply`).
-/

set_option autoImplicit false

namespace ShellConfig

/-- The configurations have the same names in the same order, each with as many values. -/
structure Config.SameShape (left right : Config) : Prop where
  names : left.names = right.names
  counts : ∀ name, (left.get? name).map List.length = (right.get? name).map List.length

/-- The configurations `after` and `other` have grown from `left` and `right` by lines with as many
words, and have one shape. -/
structure Config.GrowAlike (left right after other : Config) : Prop where
  shape : after.SameShape other
  lines : ∃ added more, after.lines = left.lines ++ added ∧ other.lines = right.lines ++ more ∧
    added.map List.length = more.map List.length

/-- What two references stand for, apart from texts: nothing, text, or as many words. -/
def Expansion.Alike : Expansion → Expansion → Prop
  | .undefined, .undefined => True
  | .joined _, .joined _ => True
  | .words values, .words others => values.length = others.length
  | _, _ => False

namespace Config
variable {left right after other : Config} {values others : List String}

/-! ## Variables -/

/-- A name is set in neither configuration, or in both to as many values. -/
theorem SameShape.get?_cases (h : left.SameShape right) (name : String) :
    (left.get? name = none ∧ right.get? name = none) ∨
      ∃ values others, left.get? name = some values ∧ right.get? name = some others ∧
        values.length = others.length := by
  have hcount := h.counts name
  cases hleft : left.get? name with
  | none =>
    rw [hleft] at hcount
    exact .inl ⟨rfl, Option.map_eq_none_iff.1 hcount.symm⟩
  | some values =>
    rw [hleft] at hcount
    obtain ⟨others, hright, hlength⟩ := Option.map_eq_some_iff.1 hcount.symm
    exact .inr ⟨values, others, rfl, hright, hlength.symm⟩

theorem expand_alike (h : left.SameShape right) (reference : Reference) (inQuotes : Bool) :
    (left.expand reference inQuotes).Alike (right.expand reference inQuotes) := by
  unfold expand
  obtain ⟨hleft, hright⟩ | ⟨values, others, hleft, hright, hlength⟩ := h.get?_cases reference.name
  · rw [hleft, hright]
    trivial
  · rw [hleft, hright]
    cases inQuotes with
    | true => trivial
    | false => exact hlength

theorem SameShape.set (h : left.SameShape right) (name : String)
    (hlength : values.length = others.length) :
    (left.set name values).SameShape (right.set name others) := by
  have hnames (config : Config) (values : List String) : (config.set name values).names =
      if name ∈ config.names then config.names else config.names ++ [name] :=
    OrderedMap.keys_insert config.vars name values
  refine ⟨by rw [hnames, hnames, h.names], fun other => ?_⟩
  rw [get?_set, get?_set]
  split
  · exact congrArg some hlength
  · exact h.counts other

theorem SameShape.append (h : left.SameShape right) (name : String)
    (hlength : values.length = others.length) :
    (left.append name values).SameShape (right.append name others) := by
  refine h.set name ?_
  rw [List.length_append, List.length_append, hlength]
  obtain ⟨hleft, hright⟩ | ⟨_, _, hleft, hright, hsame⟩ := h.get?_cases name
  · rw [hleft, hright]
  · rw [hleft, hright]
    exact congrArg (· + others.length) hsame

/-! ## Lines -/

theorem GrowAlike.refl (h : left.SameShape right) : GrowAlike left right left right :=
  ⟨h, [], [], by simp⟩

theorem GrowAlike.receiveLine (h : GrowAlike left right after other)
    (hlength : values.length = others.length) :
    GrowAlike left right (after.receiveLine values) (other.receiveLine others) := by
  obtain ⟨added, more, hadded, hmore, hsame⟩ := h.lines
  refine ⟨⟨h.shape.names, h.shape.counts⟩, added ++ [values], more ++ [others], ?_, ?_, ?_⟩
  · rw [lines_receiveLine, hadded, List.append_assoc]
  · rw [lines_receiveLine, hmore, List.append_assoc]
  · simp [hsame, hlength]

end Config

/-- An operation on as many words keeps the shapes alike, whatever the words and the values are. -/
theorem Operation.growAlike_apply {left right after other : Config} {words others : List String}
    (operation : Operation) (h : Config.GrowAlike left right after other)
    (hlength : words.length = others.length) :
    Config.GrowAlike left right (operation.apply words after).1
      (operation.apply others other).1 := by
  cases operation with
  | plain =>
    by_cases hempty : words = []
    · have hnone : others = [] := List.length_eq_zero_iff.1 (by rw [← hlength, hempty]; rfl)
      rw [hempty, hnone]
      exact h
    · have hsome : others ≠ [] := fun hnone =>
        hempty (List.length_eq_zero_iff.1 (by rw [hlength, hnone]; rfl))
      simp only [apply, List.isEmpty_eq_false_iff.2 hempty, List.isEmpty_eq_false_iff.2 hsome]
      exact h.receiveLine hlength
  | set name => exact ⟨h.shape.set name hlength, h.lines⟩
  | append name => exact ⟨h.shape.append name hlength, h.lines⟩
  | setIfUnset name =>
    simp only [apply]
    obtain ⟨hleft, hright⟩ | ⟨_, _, hleft, hright, -⟩ := h.shape.get?_cases name
    · rw [hleft, hright]
      exact ⟨h.shape.set name hlength, h.lines⟩
    · rw [hleft, hright]
      exact h
  | directive => exact h

end ShellConfig
