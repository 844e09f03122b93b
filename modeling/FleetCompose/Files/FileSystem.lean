import FleetCompose.Data.OrderedMap
import FleetCompose.Files.Path

/-!
# File systems

A file system has regular files and directories. A location is the list of names from the root
directory; a path is followed to a location from the working directory on. Operations that fail
leave the file system as it is, but an operation of several steps keeps the steps that were
done before the failure.
-/

namespace FleetCompose

/-- Why an operation on files fails. A real file system may have other reasons than the file
systems of this module. -/
inductive FileError where
  | notFound
  | alreadyExists
  | notDirectory
  | isDirectory
  | notText
  | other (description : String)
  deriving DecidableEq, Repr

/-- The wording of a failure. -/
def FileError.message : FileError → String
  | .notFound => "No such file or directory (os error 2)"
  | .alreadyExists => "File exists (os error 17)"
  | .notDirectory => "Not a directory (os error 20)"
  | .isDirectory => "Is a directory (os error 21)"
  | .notText => "stream did not contain valid UTF-8"
  | .other description => description

/-- The names on the way from the root directory. -/
abbrev Location := List String

/-- What is at a location. -/
inductive Item where
  | file (content : ByteArray)
  | directory

/-- Files are equal when their bytes are. -/
instance : DecidableEq Item
  | .file a, .file b =>
      decidable_of_iff (a.data = b.data) (by simp [ByteArray.ext_iff])
  | .directory, .directory => isTrue rfl
  | .file _, .directory => isFalse nofun
  | .directory, .file _ => isFalse nofun

/-- Files and directories by location, and the directory in which relative paths start. -/
structure FileSystem where
  items : OrderedMap Location Item
  workingDirectory : Location
  deriving DecidableEq

namespace FileSystem

/-- What is at a location. The root directory is always there. -/
def get? (files : FileSystem) (location : Location) : Option Item :=
  if location.isEmpty then some .directory else files.items.get? location

/-- Put something at a location. -/
def put (files : FileSystem) (location : Location) (item : Item) : FileSystem :=
  { files with items := files.items.insert location item }

@[simp] theorem get?_root (files : FileSystem) : files.get? [] = some .directory := rfl

/-- Putting something at a location changes nothing else; the root directory stays. -/
theorem get?_put (files : FileSystem) (location other : Location) (item : Item) :
    (files.put location item).get? other =
      if other ≠ [] ∧ other = location then some item else files.get? other := by
  cases other with
  | nil => simp
  | cons name names => simp [get?, put, OrderedMap.get?_insert]

@[simp] theorem workingDirectory_put (files : FileSystem) (location : Location) (item : Item) :
    (files.put location item).workingDirectory = files.workingDirectory := rfl

/-! ## Following paths -/

/-- Go from a location, which has to be a directory, one segment on. -/
def step (files : FileSystem) (location : Location) (segment : String) :
    Except FileError Location :=
  match files.get? location with
  | none => .error .notFound
  | some (.file _) => .error .notDirectory
  | some .directory =>
      if segment = "." then .ok location
      else if segment = ".." then .ok location.dropLast
      else .ok (location ++ [segment])

/-- Follow the segments from a location on. Empty segments do not count. -/
def follow (files : FileSystem) (location : Location) : List String → Except FileError Location
  | [] => .ok location
  | segment :: segments =>
      if segment = "" then follow files location segments
      else
        match files.step location segment with
        | .error failure => .error failure
        | .ok next => follow files next segments

/-- The location where a path starts. -/
def origin (files : FileSystem) (path : Path) : Location :=
  if path.isAbsolute then [] else files.workingDirectory

/-- The location of a path, which may have nothing there. -/
def locate (files : FileSystem) (path : Path) : Except FileError Location :=
  if path.isEmpty then .error .notFound else files.follow (files.origin path) path.segments

/-- What a path names. With a slash at its end it names a directory. -/
def find (files : FileSystem) (path : Path) : Except FileError Item :=
  match files.locate path with
  | .error failure => .error failure
  | .ok location =>
      match files.get? location with
      | none => .error .notFound
      | some .directory => .ok .directory
      | some (.file content) =>
          if path.endsWithSlash then .error .notDirectory else .ok (.file content)

/-- Does the path name a regular file? -/
def isFile (files : FileSystem) (path : Path) : Bool :=
  match files.find path with
  | .ok (.file _) => true
  | _ => false

/-- Does the path name a directory? -/
def isDirectory (files : FileSystem) (path : Path) : Bool :=
  match files.find path with
  | .ok .directory => true
  | _ => false

/-- The content of a file. -/
def read (files : FileSystem) (path : Path) : Except FileError ByteArray :=
  match files.find path with
  | .error failure => .error failure
  | .ok .directory => .error .isDirectory
  | .ok (.file content) => .ok content

/-! ## Changes -/

/-- Create or overwrite a file. -/
def write (files : FileSystem) (path : Path) (content : ByteArray) :
    Except FileError FileSystem :=
  match files.locate path with
  | .error failure => .error failure
  | .ok location =>
      if path.endsWithSlash || files.get? location = some .directory then .error .isDirectory
      else .ok (files.put location (.file content))

/-- Create a directory in one that is there. -/
def makeDirectory (files : FileSystem) (path : Path) : Except FileError FileSystem :=
  match files.locate path with
  | .error failure => .error failure
  | .ok location =>
      if (files.get? location).isSome then .error .alreadyExists
      else .ok (files.put location .directory)

/-- Create a directory unless it is there. -/
def ensureDirectory (files : FileSystem) (path : Path) : Except FileError FileSystem :=
  match files.makeDirectory path with
  | .ok after => .ok after
  | .error failure => if files.isDirectory path then .ok files else .error failure

/-- The outcome of an operation of several steps, and the file system behind it. -/
abbrev Outcome := Option FileError × FileSystem

/-- Carry out one step. -/
def single (files : FileSystem) (result : Except FileError FileSystem) : Outcome :=
  match result with
  | .ok after => (none, after)
  | .error failure => (some failure, files)

@[simp] theorem single_ok (files after : FileSystem) : files.single (.ok after) = (none, after) :=
  rfl

/-- A step that fails leaves the files as they are. -/
@[simp] theorem single_error (files : FileSystem) (failure : FileError) :
    files.single (.error failure) = (some failure, files) := rfl

/-- Create a directory, and the directories it is in, unless they are there. -/
def makeDirectories : (fuel : Nat) → FileSystem → Path → Outcome
  | 0, files, path => files.single (files.ensureDirectory path)
  | fuel + 1, files, path =>
      if path.isEmpty then (none, files)
      else
        match files.ensureDirectory path, path.parent? with
        | .error .notFound, some parent =>
            match makeDirectories fuel files parent with
            | (some failure, after) => (some failure, after)
            | (none, after) => after.single (after.ensureDirectory path)
        | result, _ => files.single result

/-- Create the directory of a path, and the directories it is in, unless they are there. -/
def makeAll (files : FileSystem) (path : Path) : Outcome :=
  makeDirectories (path.text.length + 1) files path

/-- Copy a file. The target is emptied before the source is read, so a file that is copied to
itself ends up empty. -/
def copy (files : FileSystem) (source target : Path) : Outcome :=
  match files.read source with
  | .error failure => (some failure, files)
  | .ok _ =>
      match files.write target ByteArray.empty with
      | .error failure => (some failure, files)
      | .ok emptied =>
          match emptied.read source with
          | .error failure => (some failure, emptied)
          | .ok content => emptied.single (emptied.write target content)

end FileSystem

end FleetCompose
