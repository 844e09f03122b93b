import FleetCompose.Text.Split

/-!
# Image references

An image reference is a repository with an optional tag and an optional digest:
`NAME[:TAG][@DIGEST]`. A colon in front of the last slash belongs to the port of a
registry and not to a tag.
-/

namespace FleetCompose

/-- A container image reference. -/
structure ImageRef where
  name : String
  tag : Option String
  digest : Option String
  deriving DecidableEq, Repr

namespace ImageRef

/-- Cut a reference without digest into its repository and what follows the last colon of
its last component. -/
def splitTag (reference : List Char) : List Char × Option (List Char) :=
  let (registry, component) :=
    match Text.splitLastChars '/' reference with
    | some (before, after) => (before ++ ['/'], after)
    | none => ([], reference)
  match Text.splitLastChars ':' component with
  | some (name, tag) => (registry ++ name, some tag)
  | none => (reference, none)

/-- Read a reference. An empty tag is none. -/
def parse (reference : String) : ImageRef :=
  let (rest, digest) :=
    match Text.splitFirst '@' reference with
    | some (rest, digest) => (rest, some digest)
    | none => (reference, none)
  let (name, tag) := splitTag rest.toList
  { name := String.ofList name
    tag := (tag.filter fun cs => !cs.isEmpty).map String.ofList
    digest }

/-- Does the reference fix a tag or a digest? -/
def isPinned (ref : ImageRef) : Bool := ref.tag.isSome || ref.digest.isSome

/-- The full reference, with a default tag when neither tag nor digest is there. -/
def withDefaultTag (ref : ImageRef) (defaultTag : String) : String :=
  match ref.tag, ref.digest with
  | none, none => ref.name ++ ":" ++ defaultTag
  | some tag, none => ref.name ++ ":" ++ tag
  | none, some digest => ref.name ++ "@" ++ digest
  | some tag, some digest => ref.name ++ ":" ++ tag ++ "@" ++ digest

end ImageRef

end FleetCompose
