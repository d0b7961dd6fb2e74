import ViewForge.Component.Build
import ViewForge.Component.OfSource
import ViewForge.Project.Artifact
import ViewForge.Project.Session

namespace ViewForge.Project

open Text

def componentOf? (s : Settings) (path source : Text) : Option Component :=
  (Definition.ofSource? path source).map (Component.ofDefinition s.detectSlots)

def convert? (s : Settings) (namespaceName path source : Text) :
    Option (Component × List (ArtifactKind × Text)) :=
  (componentOf? s path source).map fun c ↦ (c, artifacts s c namespaceName)

def misfitLine (path : Text) (m : Markup.Misfit) : Text :=
  "Transformer failure in " ++ path ++ ": " ++ m.detail

/-- Makes a component of a definition. That its markup cannot be rendered is told as a detail. -/
def generate (withSlots : Bool) (d : Definition) : Run Component := do
  if let some m := d.misfit? then log .debug (misfitLine d.path m)
  return .ofDefinition withSlots d

end ViewForge.Project
