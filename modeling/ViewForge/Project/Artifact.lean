import ViewForge.Controller
import ViewForge.Project.Settings
import ViewForge.Ruby.Companion
import ViewForge.Template.Basic

namespace ViewForge.Project

open Text

inductive ArtifactKind where
  | component
  | template
  | controller
  | test
  | preview
  | helper
  deriving DecidableEq, Repr

def ArtifactKind.label : ArtifactKind → Text
  | .component => "component"
  | .template => "template"
  | .controller => "controller"
  | .test => "test"
  | .preview => "preview"
  | .helper => "helper"

def ArtifactKind.all : List ArtifactKind :=
  [.component, .template, .controller, .test, .preview, .helper]

/-- A kind of file is written if the settings ask for it and the component has a use for it. -/
def wants (s : Settings) (c : Component) : ArtifactKind → Bool
  | .component | .template => true
  | .controller => s.stimulus && (c.needsController || c.isInteractive)
  | .test => s.tests
  | .preview => s.previews
  | .helper => s.helpers

def artifactText (c : Component) (namespaceName : Text) (enhanced : Bool) : ArtifactKind → Text
  | .component => Ruby.classFile c namespaceName
  | .template => Template.ofComponent c namespaceName enhanced
  | .controller => Controller.file c
  | .test => Ruby.testFile c namespaceName
  | .preview => Ruby.previewFile c namespaceName
  | .helper => Ruby.helperFile c namespaceName

/-- The files of a component. An empty namespace gives way to that of the settings. -/
def artifacts (s : Settings) (c : Component) (namespaceName : Text) : List (ArtifactKind × Text) :=
  let name := if namespaceName.isEmpty then s.namespaceName else namespaceName
  (ArtifactKind.all.filter (wants s c)).map fun k ↦ (k, artifactText c name s.enhanced k)

def artifactPath (snakeName namespaceName : Text) (dest root : Path) : ArtifactKind → Path :=
  let dir := Naming.directory namespaceName
  fun
    | .component => (dest.entry dir).entry (snakeName ++ "_component.rb")
    | .template => (dest.entry dir).entry (snakeName ++ "_component.html.erb")
    | .controller => (root.entry "app/javascript/controllers").entry (snakeName ++ "_controller.js")
    | .test => ((root.entry "test/components").entry dir).entry (snakeName ++ "_component_test.rb")
    | .preview =>
      ((root.entry "test/components/previews").entry dir).entry (snakeName ++ "_component_preview.rb")
    | .helper => ((root.entry "app/helpers").entry dir).entry (snakeName ++ "_helper.rb")

/-- The namespace of a source in a subdirectory: each directory is one more constant. -/
def nestedNamespace (namespaceName : Text) (dir : Path) : Text :=
  let constantOf (segment : Text) : Text :=
    Naming.pascalCase (segment.map fun c ↦ if c == ' ' then '_' else c)
  join "::" (namespaceName :: dir.parts.map constantOf)

/-- Where the dump of a component goes: with several components, each has a file of its own.
There is no such place if the path has no name to vary. -/
def dumpPath? (base : Path) (snakeName : Text) (multiple : Bool) : Option Path :=
  if multiple then base.withName? (base.stem ++ "." ++ snakeName ++ base.suffix) else some base

end ViewForge.Project
