/-! # Storage

What the program asks of the place that holds its files: a handful of operations in any monad, each
of which may fail for a reason of its own.  Generated files are staged in temporary files first;
publishing one moves it to its path in a single step.

* `Storage`            the operations
* `StorageFault`       why one of them fails -/

namespace EntityModel

/-- Why an operation on a file or a directory fails. -/
inductive StorageFault where
  | notFound
  | alreadyExists
  | notDirectory
  | isDirectory
  | busy
  | nameTooLong
  /-- A path that no file can have. -/
  | invalidPath
  /-- A file that does not hold text. -/
  | invalidText
  /-- Any other reason, described by the system. -/
  | other (description : String)
deriving DecidableEq, Repr

namespace StorageFault

/-- The words of the system for a fault, with its number. -/
def message : StorageFault → String
  | notFound => "No such file or directory (os error 2)"
  | alreadyExists => "File exists (os error 17)"
  | notDirectory => "Not a directory (os error 20)"
  | isDirectory => "Is a directory (os error 21)"
  | busy => "Device or resource busy (os error 16)"
  | nameTooLong => "File name too long (os error 36)"
  | invalidPath => "file name contained an unexpected NUL byte"
  | invalidText => "stream did not contain valid UTF-8"
  | other description => description

end StorageFault

/-- A temporary file: the directory it is in and the number it has there. -/
structure Temporary where
  directory : String
  number : Nat
deriving DecidableEq, Repr

/-- A place that holds files, by the operations on it. -/
class Storage (m : Type → Type) where
  /-- Whether a path leads to a file or a directory. -/
  isPresent : String → m Bool
  /-- Whether a path leads to a directory. -/
  isDirectory : String → m Bool
  /-- The text of a file. -/
  readText : String → m (Except StorageFault String)
  /-- Make one directory in a directory that is there. -/
  makeDirectory : String → m (Except StorageFault Unit)
  /-- Put a text into a new temporary file in a directory. -/
  stage : String → String → m (Except StorageFault Temporary)
  /-- Move a temporary file to its path, where it takes the place of a file. -/
  publish : Temporary → String → m (Except StorageFault Unit)
  /-- Remove a temporary file. -/
  discard : Temporary → m Unit
  /-- Remove a file. -/
  remove : String → m (Except StorageFault Unit)

end EntityModel
