import ShellConfig.Config.Basic

/-!
What a line of text does to a configuration once its words are known: it is stored as it is, or
changes one variable, or is a directive, whose words are handed back to be carried out.
-/

set_option autoImplicit false

namespace ShellConfig

/-- What to do with the words of a line. -/
inductive Operation where
  /-- Store them as a line, if there are any. -/
  | plain
  /-- Make them the values of a variable. -/
  | set (name : String)
  /-- Add them to the values of a variable. -/
  | append (name : String)
  /-- Make them the values of a variable that is not set yet. -/
  | setIfUnset (name : String)
  /-- Carry out the directive that they name. -/
  | directive
deriving DecidableEq

namespace Operation

instance : Inhabited Operation := ⟨plain⟩

/-- The operation of an assignment, by the sign before its `=`: none, `+` or `?`. -/
def assignment (name sign : String) : Operation :=
  if sign = "+" then append name else if sign = "?" then setIfUnset name else set name

/-- Whether the words are to be stored as they are. -/
def isPlain : Operation → Bool
  | plain => true
  | _ => false

/-- The variable that the operation may change. -/
def target? : Operation → Option String
  | set name | append name | setIfUnset name => some name
  | plain | directive => none

/-- Applies the operation to a configuration. The words of a directive are handed back, and change
nothing here. -/
def apply (operation : Operation) (words : List String) (config : Config) :
    Config × Option (List String) :=
  match operation with
  | plain => (if words.isEmpty then config else config.receiveLine words, none)
  | set name => (config.set name words, none)
  | append name => (config.append name words, none)
  | setIfUnset name =>
    (if (config.get? name).isSome then config else config.set name words, none)
  | directive => (config, some words)

end Operation

/-- A directive line: a name and what it is given. -/
structure DirectiveCall where
  /-- The name, without its dot. -/
  name : String
  /-- The words after the name. -/
  arguments : List String
deriving DecidableEq

namespace DirectiveCall

/-- The name of the directive that loads another file. -/
def includeName : String := "include"

/-- The directive that the words of a line call. A dot in front of the name is left out, and a line
without a name calls `include`. -/
def ofWords? : List String → Option DirectiveCall
  | [] => none
  | head :: arguments =>
    let name := match head.toList with
      | '.' :: rest => String.ofList rest
      | _ => head
    some ⟨if name = "" then includeName else name, arguments⟩

end DirectiveCall

end ShellConfig
