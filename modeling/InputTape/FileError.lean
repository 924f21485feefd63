/-! Why a file could not be read or written. -/

set_option autoImplicit false

namespace InputTape

inductive FileError where
  | notFound
  | notDirectory
  | isDirectory
  | nameTooLong
  /-- The content is not UTF-8. -/
  | notText
  | nulInPath
  | other (message : String)
  deriving DecidableEq, Repr

def FileError.message : FileError → String
  | .notFound => "No such file or directory (os error 2)"
  | .notDirectory => "Not a directory (os error 20)"
  | .isDirectory => "Is a directory (os error 21)"
  | .nameTooLong => "File name too long (os error 36)"
  | .notText => "stream did not contain valid UTF-8"
  | .nulInPath => "file name contained an unexpected NUL byte"
  | .other message => message

end InputTape
