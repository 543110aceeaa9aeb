/-! Why a file cannot be read or opened. -/

namespace Abnf

/-- What is known of an error without a description. -/
inductive FileError.Category where
  | notFound
  | permissionDenied
  | other
deriving DecidableEq, Repr

inductive FileError where
  | notFound
  | permissionDenied
  | notDirectory
  | isDirectory
  | nameTooLong
  | nulInName
  | notText
  | bare (category : FileError.Category)
  | described (text : String)
deriving DecidableEq, Repr

namespace FileError

def Category.message : Category → String
  | .notFound => "entity not found"
  | .permissionDenied => "permission denied"
  | .other => "other error"

def message : FileError → String
  | .notFound => "No such file or directory (os error 2)"
  | .permissionDenied => "Permission denied (os error 13)"
  | .notDirectory => "Not a directory (os error 20)"
  | .isDirectory => "Is a directory (os error 21)"
  | .nameTooLong => "File name too long (os error 36)"
  | .nulInName => "file name contained an unexpected NUL byte"
  | .notText => "stream did not contain valid UTF-8"
  | .bare category => category.message
  | .described text => text

end FileError

end Abnf
