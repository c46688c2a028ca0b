/-!
# Why a file operation fails

The causes that the operating system gives for a failed operation on files or sockets, with the
number and the words under which they are reported.
-/

namespace ForwardProxy.Files

/-- A cause of failure. -/
inductive Fault
  | notFound
  | accessDenied
  | exists
  | notDirectory
  | isDirectory
  | nameTooLong
  | tooManyLinks
  | addressInUse
  deriving DecidableEq, Repr

namespace Fault

/-- The system's number for the cause. -/
def number : Fault → Nat
  | notFound => 2
  | accessDenied => 13
  | .exists => 17
  | notDirectory => 20
  | isDirectory => 21
  | nameTooLong => 36
  | tooManyLinks => 40
  | addressInUse => 98

/-- The system's words for the cause. -/
def words : Fault → String
  | notFound => "No such file or directory"
  | accessDenied => "Permission denied"
  | .exists => "File exists"
  | notDirectory => "Not a directory"
  | isDirectory => "Is a directory"
  | nameTooLong => "File name too long"
  | tooManyLinks => "Too many levels of symbolic links"
  | addressInUse => "Address already in use"

/-- Words and number. -/
def message (f : Fault) : String := f.words ++ " (os error " ++ toString f.number ++ ")"

end Fault
end ForwardProxy.Files
