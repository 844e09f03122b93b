import FleetCompose.Compose.Artifacts
import FleetCompose.Document.Source
import FleetCompose.Fleet.Load

/-!
# Compiling a source

From the source of a document to its model, and on to the artifacts. Each step may fail in
its own way.
-/

namespace FleetCompose

/-- Why a source gives no artifacts. -/
inductive CompileError where
  | reading (error : Document.SourceError)
  | loading (error : LoadError)
  | expanding (error : ExpansionError)
  | converting (error : BuildError)
  | rendering (error : RenderError)
  deriving DecidableEq, Repr

/-- The wording of an error. -/
def CompileError.message : CompileError → String
  | .reading error => "parse error: " ++ error.text
  | .loading error => error.message
  | .expanding error => error.message
  | .converting error => error.message
  | .rendering error => "render error: " ++ error.message

/-- The fleet of a document. -/
def Document.toFleet (settings : Settings) (doc : Document) : Logged CompileError Fleet :=
  (loadFleet settings doc).mapError .loading

/-- The expanded fleet of a document. -/
def Document.toExpanded (settings : Settings) (doc : Document) :
    Logged CompileError ExpandedFleet := do
  let fleet ← doc.toFleet settings
  fleet.expand.mapError .expanding

/-- The model of a document. -/
def Document.toModel (settings : Settings) (doc : Document) : Logged CompileError Model := do
  let expanded ← doc.toExpanded settings
  (Model.ofFleet settings expanded).mapError .converting

/-- The artifacts of a model. -/
def Model.toArtifacts (model : Model) : Logged CompileError Artifacts :=
  (Artifacts.ofModel model).mapError .rendering

/-- The document of a source. -/
def readDocument (source : String) : Logged CompileError Document :=
  (Document.ofSource source).mapError .reading

/-- The model is compiled. -/
def Model.compiledEvent (model : Model) : LogEvent :=
  ⟨.info, .compiling, "compiled model",
    [("services", .shown (Nat.repr model.services.length)),
     ("dockerfiles", .shown (Nat.repr model.builds.length))]⟩

/-- The model of a source. -/
def compileModel (settings : Settings) (source : String) : Logged CompileError Model := do
  let doc ← readDocument source
  let model ← doc.toModel settings
  Logged.tell [model.compiledEvent]
  return model

/-- The artifacts of a source. -/
def generate (settings : Settings) (source : String) : Logged CompileError Artifacts := do
  let model ← compileModel settings source
  model.toArtifacts

end FleetCompose
