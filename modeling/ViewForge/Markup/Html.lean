import ViewForge.Naming

namespace ViewForge.Markup

open Text

def componentMarker : Text := "data-v0-component"

/-- The HTML tag of a tag and the component it refers to, if it is not a native one. A capital
or a dotted path names a component by its last segment. -/
def resolveTag (tag : Text) : Text × Option Text :=
  let final := (splitOn '.' tag).getLastD []
  if tag.contains '.' || final.head?.any isUpper then
    (lower final, if final.isEmpty then none else some final)
  else (tag, none)

def droppedAttributes : List String := ["key", "ref", "dangerouslySetInnerHTML"]

def renamedAttributes : List (String × String) :=
  [("className", "class"), ("htmlFor", "for"), ("xlinkHref", "xlink:href"),
   ("xmlLang", "xml:lang"), ("xmlnsXlink", "xmlns:xlink"), ("defaultValue", "value"),
   ("defaultChecked", "checked")]

def lowercaseAttributes : List String :=
  ["accessKey", "allowFullScreen", "autoComplete", "autoFocus", "autoPlay", "cellPadding",
   "cellSpacing", "charSet", "colSpan", "contentEditable", "crossOrigin", "dateTime", "encType",
   "enterKeyHint", "formAction", "frameBorder", "hrefLang", "inputMode", "marginHeight",
   "marginWidth", "maxLength", "minLength", "noValidate", "playsInline", "readOnly",
   "referrerPolicy", "rowSpan", "spellCheck", "srcSet", "tabIndex", "useMap"]

def mixedCaseAttributes : List String :=
  ["viewBox", "preserveAspectRatio", "gradientTransform", "gradientUnits", "patternUnits",
   "patternContentUnits", "patternTransform", "clipPathUnits", "markerHeight", "markerWidth",
   "markerUnits", "maskUnits", "maskContentUnits", "filterUnits", "primitiveUnits", "pathLength",
   "refX", "refY", "spreadMethod", "startOffset", "stdDeviation", "textLength", "lengthAdjust",
   "baseFrequency", "numOctaves", "tableValues"]

def booleanAttributes : List String :=
  ["async", "autofocus", "autoplay", "checked", "controls", "defer", "disabled", "hidden", "loop",
   "multiple", "muted", "novalidate", "open", "readonly", "required", "selected"]

def isAmong (name : Text) (names : List String) : Bool := names.any (·.toList == name)

def attributeName (name : Text) : Text :=
  match renamedAttributes.find? (·.1.toList == name) with
  | some (_, new) => new
  | none =>
    if isAmong name lowercaseAttributes then lower name
    else if isAmong name mixedCaseAttributes || name.contains ':' || name.contains '-' then name
    else Naming.kebabCase name

end ViewForge.Markup
