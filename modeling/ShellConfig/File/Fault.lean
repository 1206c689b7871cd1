/-!
The reasons why a file cannot be read or written, with the words in which they are told.
-/

set_option autoImplicit false

namespace ShellConfig

/-- Why a file cannot be used. -/
inductive FileFault where
  /-- There is no such file. -/
  | missing
  /-- Something on the way is a file. -/
  | notDirectory
  /-- It is a directory. -/
  | isDirectory
  /-- The path or one of its names is longer than paths or names can be. -/
  | nameTooLong
  /-- The path holds the character NUL. -/
  | nulInName
  /-- The contents are not UTF-8. -/
  | notText
  /-- A reason given in words, by an error that may have causes of its own. -/
  | other (reason : String) (causes : List String := [])
deriving DecidableEq

namespace FileFault

/-- The reason in words, with the number of the system's error where it has one. -/
def message : FileFault → String
  | missing => "No such file or directory (os error 2)"
  | notDirectory => "Not a directory (os error 20)"
  | isDirectory => "Is a directory (os error 21)"
  | nameTooLong => "File name too long (os error 36)"
  | nulInName => "file name contained an unexpected NUL byte"
  | notText => "stream did not contain valid UTF-8"
  | other reason _ => reason

/-- What the causes behind the fault say, the nearest one first. Those of the system have none. -/
def causes : FileFault → List String
  | other _ causes => causes
  | _ => []

end FileFault
end ShellConfig
