import StreamCatalog.Files.Fault
import Std.Data.ExtTreeSet

/-!
# The directory of chunk files

The chunks of all streams are written to files of one directory. The directory
may be missing, and the file system may refuse to make it, and to open, write or
close a file. A file that is open can be written and closed after the directory is
gone.
-/

namespace StreamCatalog

/-- What the file system refuses to do for the time being. -/
structure FileRefusals where
  /-- Why no directory can be made. -/
  making : Option FileFault
  /-- Why no file can be opened. -/
  opening : Option FileFault
  /-- Why no file can be written. -/
  writing : Option FileFault
  /-- Why no file can be closed with all its bytes. -/
  closing : Option FileFault
deriving DecidableEq, Repr

/-- A file system that does everything. -/
def FileRefusals.none : FileRefusals := ⟨.none, .none, .none, .none⟩

/-- The directory of chunk files. -/
structure ChunkDirectory where
  /-- The names of its files, unless the directory is missing. -/
  files? : Option (Std.ExtTreeSet String)
  /-- What the file system refuses to do. -/
  refusals : FileRefusals

namespace ChunkDirectory

/-- A directory that is missing. -/
def missing : ChunkDirectory := ⟨none, .none⟩

/-- A directory without files. -/
def empty : ChunkDirectory := ⟨some ∅, .none⟩

/-- Why the directory cannot be made. What is there need not be made. -/
def makingFault? (d : ChunkDirectory) : Option FileFault :=
  if d.files?.isSome then none else d.refusals.making

/-- Make the directory if it is missing. -/
def make (d : ChunkDirectory) : Except FileFault ChunkDirectory :=
  match d.makingFault? with
  | some fault => .error fault
  | none => .ok { d with files? := some (d.files?.getD ∅) }

/-- Remove the directory with its files. -/
def removeAll (d : ChunkDirectory) : ChunkDirectory :=
  { d with files? := none }

/-- The names of the files. -/
def files (d : ChunkDirectory) : Std.ExtTreeSet String := d.files?.getD ∅

/-- Whether there is a file of a name. -/
def contains (d : ChunkDirectory) (name : String) : Bool := d.files.contains name

/-- Open a new file. -/
def create (d : ChunkDirectory) (name : String) : Except FileFault ChunkDirectory :=
  match d.files? with
  | none => .error .notFound
  | some files =>
    match (fileNameFault? name).or d.refusals.opening with
    | some fault => .error fault
    | none => .ok { d with files? := some (files.insert name) }

/-- Remove a file, if it is there. -/
def remove (d : ChunkDirectory) (name : String) : ChunkDirectory :=
  { d with files? := d.files?.map (·.erase name) }

@[simp] theorem makingFault?_remove (d : ChunkDirectory) (name : String) :
    (d.remove name).makingFault? = d.makingFault? := by
  rw [makingFault?, makingFault?, remove, Option.isSome_map]

theorem files_make {d d' : ChunkDirectory} (h : d.make = .ok d') : d'.files = d.files := by
  rw [make] at h
  split at h
  · cases h
  · cases h
    rfl

theorem files_create {d d' : ChunkDirectory} {name : String} (h : d.create name = .ok d') :
    d'.files = d.files.insert name := by
  rw [create] at h
  split at h
  · cases h
  · next names hnames =>
    split at h <;> cases h
    rw [files, files, hnames]
    rfl

theorem files_remove (d : ChunkDirectory) (name : String) :
    (d.remove name).files = d.files.erase name := by
  rw [remove, files, files]
  cases d.files? with
  | none => exact Std.ExtTreeSet.erase_empty.symm
  | some names => rfl

end ChunkDirectory

end StreamCatalog
