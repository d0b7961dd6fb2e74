import ViewForge.Component.Basic
import ViewForge.Erb.Tag
import ViewForge.Ruby.Literal
import ViewForge.Text.Entity

namespace ViewForge.Template

open Text Erb

def isOpenTag (token : Token) : Bool := token.kind == .openTag

def editFirstTag? (p : Tag → Bool) (edit : Tag → Tag) : List Token → Option (List Token)
  | [] => none
  | token :: rest =>
    if isOpenTag token && p (parseTag token.text) then
      some (⟨.openTag, (edit (parseTag token.text)).render⟩ :: rest)
    else (editFirstTag? p edit rest).map (token :: ·)

def editValue (name : Text) (edit : Text → Text) : List TagAttribute → List TagAttribute
  | [] => []
  | a :: r =>
    if a.name == name then { a with value := a.value.map edit } :: r else a :: editValue name edit r

def openClass (tag : Tag) : Tag :=
  let hook : Text := "<%= html_class %>"
  match (tag.get? "class").bind (·.value) with
  | some (_ :: _) =>
    { tag with attributes := editValue "class" (fun v ↦ v ++ " " ++ hook) tag.attributes }
  | _ => tag.set "class" (some hook)

/-- Lets `option` replace a fixed value. Values that are computed, empty or excepted stay. -/
def openValue (option : Text) (except : List Text) (name : Text) (tag : Tag) : Tag :=
  let edit (v : Text) : Text :=
    if v.isEmpty || except.contains v || occursIn "<%" v then v
    else "<%= " ++ option ++ " || " ++ Ruby.quoted v ++ " %>"
  { tag with attributes := editValue name edit tag.attributes }

/-- Makes the class, the size and the colors of the root of an icon configurable, under a comment
that shows its use. -/
def parameterizeIcon (component : Component) (namespaceName template : Text) : Text :=
  let edit (tag : Tag) : Tag :=
    openClass tag |> openValue "size" [] "width" |> openValue "size" [] "height"
      |> openValue "color" ["none"] "stroke" |> openValue "color" ["none"] "fill"
  match editFirstTag? (·.name == "svg") edit (tokenize template) with
  | none => template
  | some tokens =>
    "<%# Icon component for " ++ component.name ++ ". Usage: render " ++
      component.constant namespaceName ++ ".new(size: \"24\", color: \"red\") %>\n" ++ render tokens

def openLabel : List Token → List Token
  | [] => []
  | opening :: rest =>
    match rest with
    | label :: closing :: after =>
      let name := (parseTag opening.text).name
      if isOpenTag opening && label.kind == .text && closing.kind == .closeTag &&
          (name == "button" || name == "a") && (parseTag closing.text).name == name &&
          !isBlankText label.text then
        let text := unescape (join " " (words label.text))
        opening :: ⟨.output, "<%= content || " ++ Ruby.quoted text ++ " %>"⟩ :: closing :: after
      else opening :: openLabel rest
    | _ => opening :: rest

/-- The root takes its classes from the component, and the first button or link its label. -/
def applyInteractiveClasses (template : Text) : Text :=
  match editFirstTag? (fun _ ↦ true) (·.set "class" (some "<%= class_names %>")) (tokenize template) with
  | none => template
  | some tokens => render (openLabel tokens)

end ViewForge.Template
