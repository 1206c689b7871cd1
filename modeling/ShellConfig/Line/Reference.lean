import ShellConfig.Config.Basic

/-!
References to variables. A reference names a variable and the glue that joins its values where they
have to form one text. Values are taken as they are and never read again, so a reference is resolved
in one step.
-/

set_option autoImplicit false

namespace ShellConfig

/-- A variable, and the text that stands between its values when they are joined. -/
structure Reference where
  /-- The name of the variable. -/
  name : String
  /-- The text between two values. -/
  glue : String
deriving DecidableEq

namespace Reference

/-- A reference without glue of its own, which joins by a space. -/
def plain (name : String) : Reference := ⟨name, " "⟩

/-- The reference that stands between braces. The first `|` ends the name and begins the glue. -/
def braced (body : String) : Reference :=
  match body.toList.span (· ≠ '|') with
  | (_, []) => plain body
  | (name, _ :: glue) => ⟨String.ofList name, String.ofList glue⟩

end Reference

/-- What a reference stands for. -/
inductive Expansion where
  /-- The variable is not set. -/
  | undefined
  /-- Text that belongs to the current word. -/
  | joined (text : String)
  /-- Words of their own. -/
  | words (values : List String)
deriving DecidableEq

/-- Resolves a reference: between double quotes the values are joined, elsewhere each is a word. -/
def Config.expand (config : Config) (reference : Reference) (inQuotes : Bool) : Expansion :=
  match config.get? reference.name with
  | none => .undefined
  | some values =>
    if inQuotes then .joined (String.intercalate reference.glue values) else .words values

end ShellConfig
