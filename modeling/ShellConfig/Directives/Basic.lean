import ShellConfig.Config.Basic
import ShellConfig.Error
import ShellConfig.Line.Operation

/-!
Directives that a program adds to the language: functions on the configuration, kept under their
names.
-/

set_option autoImplicit false

namespace ShellConfig

/-- What a directive does: from the configuration, its own name and the other words of the line it
makes the new configuration, and a cause if it gives up. A change made before it gave up stays. -/
abbrev Handler : Type := Config → String → List String → Config × Option Cause

/-- Handlers under their names, in the order in which the names were first registered. -/
abbrev Directives : Type := OrderedMap Handler

namespace Directives

/-- Registers a handler, instead of one that has the name already. -/
def register (directives : Directives) (name : String) (handler : Handler) : Directives :=
  directives.insert name handler

/-- Removes the handler of a name, and tells whether there was one. -/
def unregister (directives : Directives) (name : String) : Directives × Bool :=
  (directives.erase name, directives.contains name)

/-- The quoted names in brackets. -/
def display (directives : Directives) : String :=
  "[" ++ String.intercalate ", " (directives.keys.map quoted) ++ "]"

end Directives
end ShellConfig
