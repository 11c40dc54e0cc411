/-! Why an operation on files fails. -/

namespace Vetting

/-- Why an operation on files fails. -/
inductive FileFault where
  | missing
  | noDevice
  /-- A file that is to be run is no program. -/
  | notProgram
  | denied
  | occupied
  | notDirectory
  | isDirectory
  | invalid
  | nameTooLong
  | notEmpty
  | tooManyLinks
  /-- A path holds a zero byte. -/
  | zeroByte
  /-- Bytes that should be a text are none. -/
  | notText
  /-- No directory above a path can be made. -/
  | noRoot
  deriving DecidableEq, Repr

/-- The wording of a fault. -/
def FileFault.message : FileFault → String
  | missing => "No such file or directory (os error 2)"
  | noDevice => "No such device or address (os error 6)"
  | notProgram => "Exec format error (os error 8)"
  | denied => "Permission denied (os error 13)"
  | occupied => "File exists (os error 17)"
  | notDirectory => "Not a directory (os error 20)"
  | isDirectory => "Is a directory (os error 21)"
  | invalid => "Invalid argument (os error 22)"
  | nameTooLong => "File name too long (os error 36)"
  | notEmpty => "Directory not empty (os error 39)"
  | tooManyLinks => "Too many levels of symbolic links (os error 40)"
  | zeroByte => "file name contained an unexpected NUL byte"
  | notText => "stream did not contain valid UTF-8"
  | noRoot => "failed to create whole tree"

end Vetting
