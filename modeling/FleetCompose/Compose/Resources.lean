import FleetCompose.Compose.Service

/-!
# Networks and volumes

The manifest declares every network and every named volume that some service uses. The
network of each area is declared first, in the order of the areas.
-/

namespace FleetCompose

/-- A declared network; the private network of an area says so. -/
structure Network where
  name : String
  area : Option String
  deriving DecidableEq, Repr

namespace Network

/-- The names in a field that is a list or a mapping. -/
def names : Option Yaml.Value → List String
  | some (.sequence items) => items.filterMap Yaml.Value.innerString?
  | some (.mapping entries) => entries.filterMap fun entry => entry.1.innerString?
  | _ => []

/-- The networks that a service names. -/
def usedBy (service : Service) : List String := names (service.fields.get? "networks")

/-- The private network of an area. -/
def ofArea (areaId : String) : Network := ⟨areaNetwork areaId, some areaId⟩

/-- The networks of all areas, and then every other network that some service names, in the
order of first use. -/
def collect (areas : List String) (services : List Service) : List Network :=
  let own := areas.map ofArea
  let others := (services.flatMap usedBy).eraseDups.filter fun name =>
    !own.any fun network => network.name == name
  own ++ others.map fun name => ⟨name, none⟩

end Network

namespace Volume

/-- Is the source of a mount a label rather than a path? -/
def isLabel (source : String) : Bool :=
  match source.toList with
  | [] => false
  | c :: cs => c != '.' && c != '~' && c != '$' && !(c :: cs).contains '/'

/-- The label of a mount in the long form: the source of a mapping of type `volume`. -/
def longLabel? (entries : List (Yaml.Value × Yaml.Value)) : Option String :=
  let text (key : String) := (Yaml.Value.lookupText key entries).bind Yaml.Value.innerString?
  match text "type", text "source" with
  | some "volume", some source => if isLabel source then some source else none
  | _, _ => none

/-- The label of a mount, if it is one of a named volume. -/
def label? : Yaml.Value → Option String
  | .string mount =>
      match Text.splitFirst ':' mount with
      | some (source, _) => if isLabel source then some source else none
      | none => none
  | .mapping entries => longLabel? entries
  | _ => none

/-- The labels in the list form of a field. -/
def labels : Option Yaml.Value → List String
  | some (.sequence items) => items.filterMap label?
  | _ => []

/-- The labels that a service uses. -/
def usedBy (service : Service) : List String := labels (service.fields.get? "volumes")

/-- Every label that some service uses, in the order of first use. -/
def collect (services : List Service) : List String := (services.flatMap usedBy).eraseDups

end Volume

end FleetCompose
