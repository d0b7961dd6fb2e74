import ViewForge.Component.Basic
import ViewForge.Data.Checked

namespace ViewForge

open Text Markup Checked

def Property.toData (p : Property) : Data :=
  .table
    [("name", .text p.name), ("type", .text p.type.label), ("required", .bool p.required),
     ("defaultValue", .ofText? p.default), ("isRest", .bool p.isRest)]

def eventToData (e : EventBinding) : Data :=
  .table [("name", .text e.event), ("handler", .text e.handler), ("params", .ofTexts e.params)]

def Slot.toData (s : Slot) : Data :=
  .table [("name", .text s.name), ("kind", .text s.kind.label), ("prop", .text s.prop)]

def StyleVariants.toData (s : StyleVariants) : Data :=
  let classes (entries : List (Text × Text)) : Data :=
    .table (entries.map fun (k, v) ↦ (k, .text v))
  .table
    [("baseClasses", .text s.base), ("variantClasses", classes s.variants),
     ("sizeClasses", classes s.sizes)]

namespace Component

def toData (c : Component) : Data :=
  .table
    [("name", .text c.name), ("snakeCaseName", .text c.snakeName),
     ("props", .list (c.props.map Property.toData)), ("events", .list (c.events.map eventToData)),
     ("html", .text c.html), ("warnings", .ofTexts c.warnings),
     ("needsStimulus", .bool c.needsController), ("originalPath", .text c.path),
     ("componentReferences", .ofTexts c.references), ("slots", .list (c.slots.map Slot.toData)),
     ("isInteractive", .bool c.isInteractive), ("isIcon", .bool c.isIcon),
     ("svgContent", .ofText? c.svg), ("variants", .ofTexts c.variants), ("sizes", .ofTexts c.sizes),
     ("styleVariants", (c.styles.map StyleVariants.toData).getD .null)]

def toJson (c : Component) : Text := c.toData.toJson 0

end Component

def asTexts : Data → Checked (List Text) := Data.asList Data.asText

def asRecord {α : Type} (read : List (Text × Data) → Checked α) (d : Data) : Checked α :=
  match d.asTable with
  | .ok entries => read entries
  | .error e => .error e

def asProperty : Data → Checked Property :=
  asRecord fun entries ↦
    let types := ValueType.all.map fun t ↦ (t.label, t)
    ap (ap (ap (ap (ap (.ok Property.mk)
      (required entries "name" Data.asText))
      (field entries "type" (Data.asOneOf types) .any))
      (field entries "required" Data.asBool true))
      (field entries "defaultValue" (Data.asOptional Data.asText) none))
      (field entries "isRest" Data.asBool false)

def asEvent : Data → Checked EventBinding :=
  asRecord fun entries ↦
    ap (ap (ap (.ok EventBinding.mk)
      (required entries "name" Data.asText))
      (required entries "handler" Data.asText))
      (field entries "params" asTexts [])

def asSlot : Data → Checked Slot :=
  asRecord fun entries ↦
    ap (ap (ap (.ok Slot.mk)
      (required entries "name" Data.asText))
      (field entries "kind" (Data.asOneOf [(SlotKind.one.label, .one), (SlotKind.many.label, .many)])
        .one))
      (required entries "prop" Data.asText)

def asClasses (d : Data) : Checked (List (Text × Text)) :=
  let pair : Data → Checked (Text × Text)
    | .list [k, v] => ap (ap (.ok Prod.mk) k.asText) v.asText
    | _ => fault .notTable
  (Data.asList pair d).map Assoc.ofList

def asStyles : Data → Checked StyleVariants :=
  asRecord fun entries ↦
    ap (ap (ap (.ok StyleVariants.mk)
      (field entries "baseClasses" Data.asText []))
      (field entries "variantClasses" asClasses []))
      (field entries "sizeClasses" asClasses [])

def asComponent (html : Text) : Data → Checked Component :=
  asRecord fun entries ↦
    let name : Text :=
      match Data.get? entries "name" with
      | some (.text t) => t
      | _ => "Widget"
    let texts (key : Text) := field entries key asTexts []
    let flag (key : Text) := field entries key Data.asBool false
    ap (ap (ap (ap (ap (ap (ap (ap (ap (ap (ap (ap (ap (ap (ap (ap (.ok Component.mk)
      (field entries "name" Data.asText name))
      (field entries "snakeCaseName" Data.asText (Naming.snakeCase name)))
      (field entries "props" (Data.asList asProperty) []))
      (field entries "events" (Data.asList asEvent) []))
      (field entries "html" Data.asText html))
      (texts "warnings"))
      (flag "needsStimulus"))
      (field entries "originalPath" Data.asText []))
      (texts "componentReferences"))
      (field entries "slots" (Data.asList asSlot) []))
      (flag "isInteractive"))
      (flag "isIcon"))
      (field entries "svgContent" (Data.asOptional Data.asText) none))
      (texts "variants"))
      (texts "sizes"))
      (field entries "styleVariants" (Data.asOptional asStyles) none)

end ViewForge
