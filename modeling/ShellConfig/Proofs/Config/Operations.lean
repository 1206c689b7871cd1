import ShellConfig.Line.Operation

/-!
What the operations of lines make of a configuration. An operation without a directive changes the
values of its own variable or adds a line, and nothing else: the other variables, the order of the
names and the other lines are as they were (`effect_apply`).
-/

set_option autoImplicit false

namespace ShellConfig

/-- The second configuration is the first one with these values of one variable, which goes last if
it is new. -/
structure Config.Assigns (name : String) (values : List String) (before after : Config) :
    Prop where
  value : after.get? name = some values
  others : ∀ other, other ≠ name → after.get? other = before.get? other
  names : after.names = if name ∈ before.names then before.names else before.names ++ [name]
  lines : after.lines = before.lines

theorem Config.assigns_set (config : Config) (name : String) (values : List String) :
    Assigns name values config (config.set name values) where
  value := by rw [get?_set, if_pos rfl]
  others other hother := by rw [get?_set, if_neg hother]
  names := config.vars.keys_insert name values
  lines := rfl

namespace Operation

/-- How the words of a line change the configuration. -/
def Effect (words : List String) (before after : Config) : Operation → Prop
  | plain => (words = [] → after = before) ∧ (words ≠ [] →
      after.vars = before.vars ∧ after.lines = before.lines ++ [words])
  | set name => before.Assigns name words after
  | append name => before.Assigns name ((before.get? name).getD [] ++ words) after
  | setIfUnset name => (before.get? name = none → before.Assigns name words after) ∧
      ∀ values, before.get? name = some values → after = before
  | directive => after = before

theorem effect_apply (operation : Operation) (words : List String) (config : Config) :
    operation.Effect words config (operation.apply words config).1 := by
  cases operation with
  | plain =>
    cases words with
    | nil => exact ⟨fun _ => rfl, fun h => absurd rfl h⟩
    | cons word words =>
      exact ⟨fun h => absurd h (List.cons_ne_nil word words), fun _ => ⟨rfl, rfl⟩⟩
  | set name => exact config.assigns_set name words
  | append name => exact config.assigns_set name _
  | setIfUnset name =>
    simp only [Effect, apply]
    cases config.get? name with
    | none =>
      exact ⟨fun _ => config.assigns_set name words,
        fun values h => absurd h.symm (Option.some_ne_none values)⟩
    | some values => exact ⟨fun h => absurd h (Option.some_ne_none values), fun _ _ => rfl⟩
  | directive => rfl

end Operation

end ShellConfig
