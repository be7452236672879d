/-!
# Faults of the file system

Why a file, folder or program could not be used, each fault with its one wording.
-/

namespace SourceRecovery

/-- Why the system refuses an operation. -/
inductive IoFault where
  | notFound
  | permissionDenied
  | busy
  | fileExists
  | noDevice
  | notFolder
  | isFolder
  | invalid
  | nameTooLong
  | notEmpty
  | tooManyLinks
  /-- A path with a NUL character in it names nothing. -/
  | nulInPath
  /-- A program takes no argument with a NUL character in it. -/
  | nulInArgument
  /-- What is to be copied is not a file. -/
  | notRegular
  /-- What is to be read as text is not UTF-8. -/
  | notText
  /-- A fault that comes with its own wording. -/
  | stated (text : String)
  deriving DecidableEq, Repr

namespace IoFault

/-- A wording with the system's number for the fault. -/
def numbered (text : String) (number : Nat) : String :=
  text ++ " (os error " ++ toString number ++ ")"

/-- The wording of a fault. -/
def message : IoFault → String
  | .notFound => numbered "No such file or directory" 2
  | .permissionDenied => numbered "Permission denied" 13
  | .busy => numbered "Device or resource busy" 16
  | .fileExists => numbered "File exists" 17
  | .noDevice => numbered "No such device" 19
  | .notFolder => numbered "Not a directory" 20
  | .isFolder => numbered "Is a directory" 21
  | .invalid => numbered "Invalid argument" 22
  | .nameTooLong => numbered "File name too long" 36
  | .notEmpty => numbered "Directory not empty" 39
  | .tooManyLinks => numbered "Too many levels of symbolic links" 40
  | .nulInPath => "file name contained an unexpected NUL byte"
  | .nulInArgument => "nul byte found in provided data"
  | .notRegular => "the source path is neither a regular file nor a symlink to a regular file"
  | .notText => "stream did not contain valid UTF-8"
  | .stated text => text

end IoFault

end SourceRecovery
