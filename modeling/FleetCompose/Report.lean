import FleetCompose.Document.Source
import FleetCompose.Report.Excerpt

/-!
# Reports

The report of an error in a document shows the place of the error to the author of the
document.
-/

namespace FleetCompose

/-- The report of an error in a source that is called `name`. The bytes of the error are taken
for characters, so the mark is too far behind when the source is not ASCII. -/
def Document.SourceError.report (name source : String) (error : Document.SourceError) : String :=
  match error.span with
  | none => name ++ ": " ++ error.message
  | some (start, stop) =>
      let title := Report.Ink.fault.paint "Error:" ++ " invalid configuration document"
      let rows := title :: Report.excerpt name source ⟨start, stop, error.message⟩
      String.join (rows.map (· ++ "\n"))

end FleetCompose
