/-!
# Errors of files and directories

What the system answers when a path cannot be used as it is asked.
-/

namespace Concordance

/-- Why a file or a directory could not be used. -/
inductive IoError where
  | notFound
  | alreadyExists
  | notDirectory
  | isDirectory
  | nameTooLong
  /-- The content of a file is not text. -/
  | notText
  /-- Anything else, in the words of the system. -/
  | other (words : String)
  deriving Repr, DecidableEq

def IoError.message : IoError → String
  | .notFound => "No such file or directory (os error 2)"
  | .alreadyExists => "File exists (os error 17)"
  | .notDirectory => "Not a directory (os error 20)"
  | .isDirectory => "Is a directory (os error 21)"
  | .nameTooLong => "File name too long (os error 36)"
  | .notText => "stream did not contain valid UTF-8"
  | .other words => words

end Concordance
