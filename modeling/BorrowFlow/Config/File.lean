/-!
# Files that are not read

Why the file at a path cannot be read as a text.
-/

namespace BorrowFlow

inductive ReadFailure where
  | notFound
  | isDirectory
  | nameTooLong
  | zeroInName
  | notText
  deriving DecidableEq

namespace ReadFailure

def message : ReadFailure → String
  | notFound => "No such file or directory (os error 2)"
  | isDirectory => "Is a directory (os error 21)"
  | nameTooLong => "File name too long (os error 36)"
  | zeroInName => "file name contained an unexpected NUL byte"
  | notText => "stream did not contain valid UTF-8"

def pathLimit : Nat := 4095

def nameLimit : Nat := 255

/-- The names on a path, which slashes divide. -/
def names : List Char → List (List Char)
  | [] => [[]]
  | '/' :: rest => [] :: names rest
  | char :: rest =>
    match names rest with
    | [] => [[char]]
    | name :: others => (char :: name) :: others

/-- Whether a name leads from a directory to one that is there in any case. -/
def staysInside (name : List Char) : Bool :=
  name ∈ [[], ['.'], ['.', '.']]

/--
Why a path leads to no file. The first name that does not stay inside is not found, and what follows
it is not looked at.
-/
def ofPath (path : String) : ReadFailure :=
  if '\x00' ∈ path.toList then zeroInName
  else if pathLimit < path.utf8ByteSize then nameTooLong
  else if path.isEmpty then notFound
  else
    match (names path.toList).find? (!staysInside ·) with
    | some name => if nameLimit < (String.ofList name).utf8ByteSize then nameTooLong else notFound
    | none => isDirectory

end ReadFailure

end BorrowFlow
