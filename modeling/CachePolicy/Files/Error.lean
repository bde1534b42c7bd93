/-!
# Why a file is not reached

Each refusal of the file system is one cause, with the words and the number that
the system itself gives it.
-/

namespace CachePolicy

/-- Why something cannot be done with a file. -/
inductive FileError where
  | notFound
  | inUse
  | alreadyThere
  | notDirectory
  | isDirectory
  | nameTooLong
  | nulByte
  | notText
  /-- A refusal that none of the other causes covers. -/
  | other (message : String)
  deriving DecidableEq, Repr

namespace FileError

/-- The wording of a refusal. -/
def message : FileError → String
  | notFound => "No such file or directory (os error 2)"
  | inUse => "Device or resource busy (os error 16)"
  | alreadyThere => "File exists (os error 17)"
  | notDirectory => "Not a directory (os error 20)"
  | isDirectory => "Is a directory (os error 21)"
  | nameTooLong => "File name too long (os error 36)"
  | nulByte => "file name contained an unexpected NUL byte"
  | notText => "stream did not contain valid UTF-8"
  | other message => message

end FileError

end CachePolicy
