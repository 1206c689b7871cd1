import ShellConfig.Config.Basic
import ShellConfig.Config.Word

/-!
The text of a configuration: one assignment for each variable, in the order of the names by code
point, and then the lines as they came.
-/

set_option autoImplicit false

namespace ShellConfig
namespace Config

/-- The variables with their values, in the order of their names. -/
def sortedVars (config : Config) : List (String × List String) :=
  config.vars.entries.mergeSort fun left right => left.1 ≤ right.1

/-- The assignment that gives a variable its values. -/
def assignmentText (name : String) (values : List String) : String :=
  name ++ " = " ++ escapeLine values

/-- The text, without a line feed at its end. -/
def serialize (config : Config) : String :=
  String.intercalate "\n"
    (config.sortedVars.map (fun entry => assignmentText entry.1 entry.2)
      ++ config.lines.map escapeLine)

theorem sortedVars_perm (config : Config) : config.sortedVars.Perm config.vars.entries :=
  List.mergeSort_perm _ _

example : (ofLists [("B", ["x y"]), ("A", [])] [["it's"]]).serialize =
    "A = \nB = 'x y'\n'it'\\''s'" := by cbv

end Config
end ShellConfig
