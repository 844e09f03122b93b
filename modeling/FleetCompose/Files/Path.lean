import FleetCompose.Text.Split

/-!
# Paths

A path is kept as it is written; its segments are the parts between slashes. Joining two paths
and going to the parent keep the rest of the text.
-/

namespace FleetCompose

/-- A path as it is written. -/
structure Path where
  text : String
  deriving DecidableEq, Repr

namespace Path

/-- The parts of a path between slashes, in order. A path that starts with a slash has an empty
part in front. -/
def segments (path : Path) : List String :=
  (Text.splitOnChars '/' path.text.toList).map String.ofList

/-- The path with the given parts. -/
def ofSegments (segments : List String) : Path := ⟨"/".intercalate segments⟩

/-- The empty path, which names nothing. -/
def empty : Path := ⟨""⟩

/-- Is the path empty? -/
def isEmpty (path : Path) : Bool := path.text.isEmpty

/-- Does the path start at the root directory? -/
def isAbsolute (path : Path) : Bool := path.text.toList.head? == some '/'

/-- Does the path end with a slash? -/
def endsWithSlash (path : Path) : Bool := path.text.toList.getLast? == some '/'

/-- The path of `rest` as seen from a directory. An absolute path is the same from
everywhere. -/
def join (base : Path) (rest : String) : Path :=
  if Path.isAbsolute ⟨rest⟩ || base.isEmpty then ⟨rest⟩
  else if base.endsWithSlash then ⟨base.text ++ rest⟩
  else ⟨base.text ++ "/" ++ rest⟩

/-- A part that stands for the directory it is in. -/
def isIdle (segment : String) : Bool := segment == "" || segment == "."

/-- Drop the parts at the end that stand for the directory they are in; parts are given from
the last one on. A dot that is the whole of a path stays, and so does the part in front of a
slash at the start. -/
def dropIdle : List String → List String
  | [] => []
  | [segment] => [segment]
  | segment :: rest => if isIdle segment then dropIdle rest else segment :: rest

/-- The directory that a path is in: the path without its last name. The root directory and
the empty path are in no directory. -/
def parent? (path : Path) : Option Path :=
  match dropIdle path.segments.reverse with
  | [] | [""] => none
  | [_] => some empty
  | _ :: rest =>
      match dropIdle rest with
      | [""] => some ⟨"/"⟩
      | kept => some (ofSegments kept.reverse)

end Path

end FleetCompose
