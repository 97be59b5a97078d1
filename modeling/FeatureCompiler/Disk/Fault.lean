/-!
Why an operation on files cannot be done.
-/

namespace FeatureCompiler

inductive DiskFault where
  | notFound
  | alreadyExists
  | notADirectory
  | isADirectory
  | busy
  | notText
  | emptyPath
  | nameTooLong
  /-- A path to read or to make holds the zero character. -/
  | zeroCharacter
  /-- A path to put a file at holds the zero character. -/
  | invalidArgument
deriving Repr, DecidableEq

def DiskFault.message : DiskFault → String
  | .notFound => "No such file or directory (os error 2)"
  | .alreadyExists => "File exists (os error 17)"
  | .notADirectory => "Not a directory (os error 20)"
  | .isADirectory => "Is a directory (os error 21)"
  | .busy => "Device or resource busy (os error 16)"
  | .notText => "stream did not contain valid UTF-8"
  | .emptyPath => "cannot make an empty path absolute"
  | .nameTooLong => "File name too long (os error 36)"
  | .zeroCharacter => "file name contained an unexpected NUL byte"
  | .invalidArgument => "Invalid argument (os error 22)"

end FeatureCompiler
