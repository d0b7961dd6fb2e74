import ViewForge.Template.Reference
import ViewForge.Erb.Format
import ViewForge.Script.ToRuby

namespace ViewForge.Template

open Text

def warningComment (warning : Text) : Text := "<%# WARNING: " ++ replace "%>" "% >" warning ++ " %>"

def withWarnings (warnings : List Text) (html : Text) : Text :=
  if warnings.isEmpty then html else unlines (warnings.map warningComment) ++ "\n\n" ++ html

def applyIf (condition : Bool) (stage : Text → Text) (template : Text) : Text :=
  if condition then stage template else template

def ofComponent (component : Component) (namespaceName : Text) (enhanced : Bool) : Text :=
  let isIcon := component.isIcon && component.svg.any (!·.isEmpty)
  withWarnings component.warnings component.html
    |> applyIf isIcon (parameterizeIcon component namespaceName)
    |> applyIf component.isInteractive applyInteractiveClasses
    |> applyIf (component.needsController || component.isInteractive) (bindController component)
    |> applyIf (!component.slots.isEmpty) (renderSlots component)
    |> substituteChildren
    |> mapDirectiveCode Script.toRuby
    |> applyIf enhanced (enhance component)
    |> applyIf (!component.references.isEmpty) (renderComponentReferences namespaceName)
    |> Erb.format

end ViewForge.Template
