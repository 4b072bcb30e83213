import PhotoIntake.FileTree.Basic

/-!
# Errors

The causes for which an operation fails, and the message of each.
-/

namespace PhotoIntake

namespace FileError

/-- The message of the operating system for a failed file operation. -/
def message : FileError → String
  | missing => "No such file or directory (os error 2)"
  | notFolder => "Not a directory (os error 20)"
  | isFolder => "Is a directory (os error 21)"
  | notFile => "the source path is neither a regular file nor a symlink to a regular file"
  | occupied => "File exists (os error 17)"
  | folderNotEmpty => "Directory not empty (os error 39)"
  | insideItself => "Invalid argument (os error 22)"
  | otherDevice => "Invalid cross-device link (os error 18)"
  | noRoom => "No space left on device (os error 28)"
  | linkLoop => "Too many levels of symbolic links (os error 40)"
  | nameTooLong => "File name too long (os error 36)"
  | badName => "file name contained an unexpected NUL byte"

end FileError

/-- Why the metadata tool gives no tags. -/
inductive ToolError where
  | cannotStart (program : Path) (cause : FileError)
  | cannotSend
  | cannotRead
  | exited
  | silent
  | invalidAnswer
  deriving DecidableEq

namespace ToolError

/-- What the message of the error says. -/
def message : ToolError → String
  | cannotStart program cause => "cannot start " ++ program.text ++ ": " ++ cause.message
  | cannotSend => "cannot send request: Broken pipe (os error 32)"
  | cannotRead => "cannot read answer: stream did not contain valid UTF-8"
  | exited => "exiftool exited"
  | silent => "exiftool does not answer"
  | invalidAnswer => "invalid answer: no JSON document"

end ToolError

/-- Why the record of earlier downloads fails. -/
inductive HistoryError where
  | cannotOpen (path : Path)
  | notHistory
  | noRoom
  | noModificationTime
  deriving DecidableEq

namespace HistoryError

/-- What the message of the error says. -/
def message : HistoryError → String
  | cannotOpen path => "unable to open database file: " ++ path.text
  | notHistory => "file is not a database"
  | noRoom => "database or disk is full"
  | noModificationTime => "NOT NULL constraint failed: downloaded.mtime"

end HistoryError

/-- Why an operation of the program fails. -/
inductive IntakeError where
  | files (cause : FileError)
  | sequencesSave (path : Path) (cause : FileError)
  | templatesSave (path : Path) (cause : FileError)
  | invalidTemplate (template token : String)
  | builtinTemplate (key : String)
  | unknownTemplate (key : String)
  | tool (cause : ToolError)
  | history (cause : HistoryError)
  | worker (cause : String)
  deriving DecidableEq

namespace IntakeError

/-- The message of the error. -/
def message : IntakeError → String
  | files cause => "IO error: " ++ cause.message
  | sequencesSave path cause =>
    "Cannot save persistent sequences number to '" ++ path.text ++ "': " ++ cause.message
  | templatesSave path cause =>
    "Cannot save naming templates to '" ++ path.text ++ "': " ++ cause.message
  | invalidTemplate template token =>
    "Token '" ++ token ++ "' is not allowed in template '" ++ template ++ "'"
  | builtinTemplate key => "Template '" ++ key ++ "' is builtin and cannot be modified"
  | unknownTemplate key => "Unknown naming template: " ++ key
  | tool cause => "ExifTool error: " ++ cause.message
  | history cause => "Database error: " ++ cause.message
  | worker cause => "Worker error: " ++ cause

end IntakeError

end PhotoIntake
