import ShellConfig.OrderedMap

/-!
Configurations: variables with lists of values, and the lines that were received, each a list of
words. A variable that is set to no values differs from one that is not set. Main statements:
`get?_set`, `get?_append` and `get?_unset` say what a change of one variable does to all of them.
-/

set_option autoImplicit false

namespace ShellConfig

/-- Variables and lines. -/
structure Config where
  /-- The variables with their values, in the order in which they were first set. -/
  vars : OrderedMap (List String)
  /-- The lines, in the order in which they were received. -/
  lines : List (List String)
deriving DecidableEq

namespace Config

/-- No variables and no lines. -/
def empty : Config := ⟨.empty, []⟩

instance : Inhabited Config := ⟨empty⟩

/-- The values of a variable, if it is set. -/
def get? (config : Config) (name : String) : Option (List String) := config.vars.find? name

/-- Gives a variable new values. -/
def set (config : Config) (name : String) (values : List String) : Config :=
  { config with vars := config.vars.insert name values }

/-- Adds values to a variable, and sets it if need be. -/
def append (config : Config) (name : String) (values : List String) : Config :=
  config.set name ((config.get? name).getD [] ++ values)

/-- Forgets a variable. -/
def unset (config : Config) (name : String) : Config :=
  { config with vars := config.vars.erase name }

/-- Adds a line, which may be empty. -/
def receiveLine (config : Config) (words : List String) : Config :=
  { config with lines := config.lines ++ [words] }

/-- The names of the variables that are set, in the order in which they were. -/
def names (config : Config) : List String := config.vars.keys

/-- The number of lines. -/
def lineCount (config : Config) : Nat := config.lines.length

/-- Whether there are no lines. -/
def isEmpty (config : Config) : Bool := config.lines.isEmpty

/-- The line with this number, from 0. -/
def line? (config : Config) (index : Nat) : Option (List String) := config.lines[index]?

/-- Whether two configurations have the same variables in any order, and the same lines. -/
def sameContents (left right : Config) : Bool :=
  left.vars.size = right.vars.size
    && left.vars.entries.all (fun entry => right.get? entry.1 = some entry.2)
    && left.lines = right.lines

/-- Sets variables and receives lines in turn. -/
def ofLists (vars : List (String × List String)) (lines : List (List String)) : Config :=
  ⟨.ofList vars, lines⟩

theorem get?_set (config : Config) (name other : String) (values : List String) :
    (config.set name values).get? other = if other = name then some values else config.get? other :=
  OrderedMap.find?_insert config.vars name other values

theorem get?_append (config : Config) (name other : String) (values : List String) :
    (config.append name values).get? other =
      if other = name then some ((config.get? name).getD [] ++ values) else config.get? other :=
  get?_set config name other _

theorem get?_unset (config : Config) (name other : String) :
    (config.unset name).get? other = if other = name then none else config.get? other :=
  OrderedMap.find?_erase config.vars name other

@[simp] theorem get?_receiveLine (config : Config) (words : List String) (name : String) :
    (config.receiveLine words).get? name = config.get? name := rfl

@[simp] theorem lines_set (config : Config) (name : String) (values : List String) :
    (config.set name values).lines = config.lines := rfl

@[simp] theorem lines_append (config : Config) (name : String) (values : List String) :
    (config.append name values).lines = config.lines := rfl

@[simp] theorem lines_unset (config : Config) (name : String) :
    (config.unset name).lines = config.lines := rfl

@[simp] theorem lines_receiveLine (config : Config) (words : List String) :
    (config.receiveLine words).lines = config.lines ++ [words] := rfl

end Config

end ShellConfig
