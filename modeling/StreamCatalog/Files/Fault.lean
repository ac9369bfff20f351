/-!
# Faults of the file system

What can go wrong with a file or a directory, and how it is reported, and which file
of a directory a path leads to.
-/

namespace StreamCatalog

/-- Why a file or a directory cannot be opened, made or stored. -/
inductive FileFault where
  /-- The file or its directory is not there. -/
  | notFound
  /-- Something else has the name of a directory. -/
  | exists
  /-- The name is too long. -/
  | nameTooLong
  /-- There is no room for the bytes. -/
  | noSpace
  /-- Any other reason that the system gives, with its number. -/
  | other (text : String) (number : Nat)
deriving DecidableEq, Repr

/-- What is said about a fault. -/
def FileFault.message : FileFault → String
  | notFound => "No such file or directory (os error 2)"
  | .exists => "File exists (os error 17)"
  | nameTooLong => "File name too long (os error 36)"
  | noSpace => "No space left on device (os error 28)"
  | other text number => text ++ " (os error " ++ toString number ++ ")"

/-- How many bytes a file name has at most. -/
def longestFileName : Nat := 255

/-- What is wrong with a file name within a directory, if anything. A slash would name a directory
that is not there. -/
def fileNameFault? (name : String) : Option FileFault :=
  if name.toList.contains '/' then some .notFound
  else if longestFileName < name.utf8ByteSize then some .nameTooLong
  else none

/-- A path without the dots in front that stand for the directory itself. Slashes that follow such a
dot count once. -/
def withoutDots (isDotted : Bool) : List Char → List Char
  | '.' :: '/' :: path => withoutDots true path
  | '/' :: path => if isDotted then withoutDots true path else '/' :: path
  | path => path

/-- The file that a path leads to within a directory that has no directories in it. -/
def filePlace (path : String) : Except FileFault String :=
  let name := String.ofList (withoutDots false path.toList)
  match fileNameFault? name with
  | none => .ok name
  | some fault => .error fault

/-- The path to what a path leads to from a directory. -/
def joinPath (directory path : String) : String :=
  if path.toList.head? = some '/' then path else directory ++ "/" ++ path

theorem withoutDots_of_not_mem {path : List Char} (h : '/' ∉ path) :
    withoutDots false path = path := by
  unfold withoutDots
  split
  · exact absurd (List.mem_cons_of_mem _ List.mem_cons_self) h
  · exact absurd List.mem_cons_self h
  · rfl

/-- What can be a name leads to the file of that name. -/
theorem filePlace_eq {name : String} (h : fileNameFault? name = none) :
    filePlace name = .ok name := by
  have hslash : '/' ∉ name.toList := by
    intro hmem
    rw [fileNameFault?, if_pos (List.contains_iff_mem.2 hmem)] at h
    cases h
  rw [filePlace, withoutDots_of_not_mem hslash, String.ofList_toList, h]

end StreamCatalog
