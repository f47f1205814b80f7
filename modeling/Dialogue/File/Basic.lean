import Dialogue.Text.Utf8

/-! # Files

    A path leads to a file with its bytes, to a folder, or to nothing. A text is
    read from a file whose bytes are the encoding of one. A failure keeps its
    cause, and the number that the operating system gives it where it comes from
    there.
-/

namespace Dialogue

/-- What stands at a path. -/
inductive Found
  | file (bytes : List UInt8)
  | folder
  deriving DecidableEq

/-- Why no text can be read at a path. -/
inductive ReadError
  | notFound
  | denied
  /-- The path goes on behind a file. -/
  | notFolder
  | isFolder
  /-- The path or one of its parts is too long. -/
  | nameTooLong
  | tooManyLinks
  /-- The path holds a null. -/
  | nullInPath
  | invalidUtf8
  deriving DecidableEq

namespace ReadError

/-- The number of the failure, if the operating system reports it. -/
def code : ReadError → Option Nat
  | .notFound => some 2
  | .denied => some 13
  | .notFolder => some 20
  | .isFolder => some 21
  | .nameTooLong => some 36
  | .tooManyLinks => some 40
  | .nullInPath | .invalidUtf8 => none

/-- The name of the kind of failure. -/
def kind : ReadError → String
  | .notFound => "NotFound"
  | .denied => "PermissionDenied"
  | .notFolder => "NotADirectory"
  | .isFolder => "IsADirectory"
  | .nameTooLong => "InvalidFilename"
  | .tooManyLinks => "FilesystemLoop"
  | .nullInPath => "InvalidInput"
  | .invalidUtf8 => "InvalidData"

/-- The failure in words. -/
def words : ReadError → String
  | .notFound => "No such file or directory"
  | .denied => "Permission denied"
  | .notFolder => "Not a directory"
  | .isFolder => "Is a directory"
  | .nameTooLong => "File name too long"
  | .tooManyLinks => "Too many levels of symbolic links"
  | .nullInPath => "file name contained an unexpected NUL byte"
  | .invalidUtf8 => "stream did not contain valid UTF-8"

/-- The wording of a failure to read. -/
def message (e : ReadError) : String :=
  match e.code with
  | some n => s!"{e.words} (os error {n})"
  | none => e.words

/-- The failure with a number of the operating system. -/
def ofCode? (n : Nat) : Option ReadError :=
  [notFound, denied, notFolder, isFolder, nameTooLong, tooManyLinks].find? (·.code == some n)

end ReadError

/-- The text in a file. -/
def Found.text : Found → Except ReadError Text
  | .folder => .error .isFolder
  | .file bytes => (Text.decode bytes).mapError fun _ => .invalidUtf8

end Dialogue
