import ShellConfig.Interpreter

/-!
Directives that are ready to be registered. Each is given the words of its line and works on the
configuration that the line belongs to. Two of them evaluate other texts, for which they use an
interpreter of their own that knows no directive besides `include`.
-/

set_option autoImplicit false

namespace ShellConfig

/-- A directive that is ready to be registered. -/
inductive StockDirective where
  /-- Does nothing. -/
  | noop
  /-- Sets `PING` to `PONG`. -/
  | ping
  /-- Gives up. -/
  | fail
  /-- Gives up if one of the named variables is not set. -/
  | require
  /-- Sets for each named variable another one, whose name begins with `EXPORTED_`. -/
  | exports
  /-- Sets a variable. -/
  | set
  /-- Adds values to a variable. -/
  | append
  /-- Forgets variables. -/
  | unset
  /-- Adds a line. -/
  | line
  /-- Adds a line that tells how the directive is called and what the configuration holds. -/
  | info
  /-- Sets a variable to the text of the configuration. -/
  | serialize
  /-- Evaluates a text. -/
  | eval
  /-- Loads a file. -/
  | load
deriving DecidableEq

namespace StockDirective

/-- Gives up unless all names are set. -/
def requireAll (config : Config) (names : List String) : Option Cause :=
  (names.find? fun name => (config.get? name).isNone).map fun name => .text (name ++ " is required")

/-- Sets the exported variables in turn, up to the first name that is not set. -/
def exportAll (config : Config) : List String → Config × Option Cause
  | [] => (config, none)
  | name :: rest =>
    match config.get? name with
    | none => (config, some (.text (name ++ " is unset")))
    | some values => exportAll (config.set ("EXPORTED_" ++ name) values) rest

/-- What is told about a configuration and the words that a directive is given. -/
def infoLine (config : Config) (name : String) (arguments : List String) : List String :=
  [name, toString arguments.length, toString config.lineCount,
    if config.isEmpty then "true" else "false"] ++ config.names

/-- Uses the first word of the line and the words after it, if there is a first one. -/
def withFirst (action : String → List String → Config × Option Cause) (config : Config) :
    List String → Config × Option Cause
  | [] => (config, some (.text "missing argument"))
  | first :: rest => action first rest

/-- The configuration after an evaluation, and what made it fail. -/
def causeOf (result : Except Error (List Warning) × Config) : Config × Option Cause :=
  match result with
  | (.ok _, config) => (config, none)
  | (.error error, config) => (config, some (.error error))

/-- What the directive does. -/
def handler (files : FileTree) (directive : StockDirective) : Handler :=
  fun config name arguments =>
    match directive with
    | noop => (config, none)
    | ping => (config.set "PING" ["PONG"], none)
    | fail => (config, some (.text (name ++ " refused")))
    | require => (config, requireAll config arguments)
    | exports => exportAll config arguments
    | set => withFirst (fun first rest => (config.set first rest, none)) config arguments
    | append => withFirst (fun first rest => (config.append first rest, none)) config arguments
    | unset => (arguments.foldl Config.unset config, none)
    | line => (config.receiveLine arguments, none)
    | info => (config.receiveLine (infoLine config name arguments), none)
    | serialize =>
      withFirst (fun first _ => (config.set first [config.serialize], none)) config arguments
    | eval =>
      withFirst (fun text _ => causeOf (Interpreter.standard.eval files text config)) config
        arguments
    | load =>
      withFirst (fun path _ => causeOf (Interpreter.standard.load files path config)) config
        arguments

end StockDirective

end ShellConfig
