import ViewForge.Proofs.Markup.Quiet

namespace ViewForge.Markup

open Text Erb

/-- A piece of a template: fixed text, or a directive that prints an expression. The callbacks that
the expression stands in are given by their parameters, from the outermost in. -/
inductive Part where
  | fixed (t : Text)
  | directive (lead : Text) (callbacks : List (List Param)) (e : Expr) (trail : Text)

def loopNames (params : List Param) : List Text := loopItem params :: (loopIndex params).toList

def Scope.inside (scope : Scope) (callbacks : List (List Param)) : Scope :=
  callbacks.foldl (fun s params ↦ s.bind (loopNames params)) scope

namespace Part

def text (scope : Scope) : Part → Text
  | .fixed t => t
  | .directive lead callbacks e trail =>
    "<%" ++ lead ++ e.code (scope.inside callbacks) ++ trail ++ "%>"

def within (params : List Param) : Part → Part
  | .fixed t => .fixed t
  | .directive lead callbacks e trail => .directive lead (params :: callbacks) e trail

def isVoid : Part → Bool
  | .fixed t => t.isEmpty
  | .directive .. => false

def output (e : Expr) : Part := .directive "= " [] e " "

def guard (e : Expr) : Part := .directive " if " [] e " "

def loop (params : List Param) (receiver : Expr) : Part :=
  .directive " " [] receiver (loopCode [] (loopItem params) (loopIndex params) ++ " ")

end Part

def Expr.attributeParts (isComponent : Bool) (html : Text) (e : Expr) : List Part :=
  let computed : List Part :=
    if !isComponent && isAmong html booleanAttributes then
      [.fixed " ", .directive ("= \"" ++ html ++ "\" if ") [] e " "]
    else [.fixed (" " ++ html ++ "=\""), .output e, .fixed "\""]
  match e with
  | .literal source _ .string =>
    [.fixed (quotedAttribute html (attributeText ((source.drop 1).dropLast)))]
  | .literal source _ .number => [.fixed (quotedAttribute html source)]
  | .literal _ _ (.boolean true) => [.fixed (' ' :: html)]
  | .literal _ _ (.boolean false) | .literal _ _ .null | .literal _ _ .undefined => []
  | .markup .. | .function .. => []
  | .other _ _ kind => if kind == "object" && !isComponent then [] else computed
  | .misplaced _ => []
  | _ => computed

def Attribute.parts (isComponent : Bool) : Attribute → List Part
  | .spread argument => [.fixed " ", .directive "= render_attributes(" [] argument ") "]
  | .misplaced .. => []
  | .named name value =>
    if isAmong name droppedAttributes || isEventName name && !isComponent then []
    else
      let html := if isComponent then name else attributeName name
      match value with
      | none => [.fixed (' ' :: html)]
      | some (.string v) => [.fixed (quotedAttribute html (attributeText v))]
      | some (.expression (some e)) => e.attributeParts isComponent html
      | _ => []

/-- The placeholders that an element puts before its tag, and the actions of its tag: the same in
every scope. -/
def fixedAttributes (isComponent : Bool) (attributes : List Attribute) : RenderedAttributes :=
  attributes.foldl (renderAttribute { props := [] } isComponent) {}

def elementParts (tag : Text) (attributes : List Attribute) (children : List Part)
    (selfClosing : Bool) : List Part :=
  let (html, reference) := resolveTag tag
  let r := fixedAttributes reference.isSome attributes
  .fixed (r.leading ++ "<" ++ html ++ markerAttribute reference) ::
    attributes.flatMap (Attribute.parts reference.isSome) ++
    .fixed (if r.actions.isEmpty then [] else quotedAttribute "data-action" (join " " r.actions)) ::
    (if selfClosing then [.fixed " />"]
    else .fixed ">" :: children ++ [.fixed ("</" ++ html ++ ">")])

def literalParts (e : Expr) (source : Text) : LiteralKind → List Part
  | .null | .undefined | .boolean _ => []
  | .string => [.fixed (escape (unquoted source))]
  | .number => [.fixed source]
  | .template | .regex => [.output e]

def conditionalParts (test : Expr) (yes no : List Part) : List Part :=
  .guard test :: yes ++ .fixed (if no.all Part.isVoid then [] else "<% else %>") :: no ++
    [.fixed endDirective]

mutual

def Node.parts : Node → List Part
  | .element tag attributes children selfClosing =>
    elementParts tag attributes (if selfClosing then [] else nodesParts children) selfClosing
  | .fragment children => nodesParts children
  | .text value => [.fixed value]
  | .container none => []
  | .container (some e) => e.parts
  | .unsupported kind _ => [.fixed (Placeholder.comment ("Unsupported child node: " ++ kind))]
  | .misplaced _ => []

def nodesParts : List Node → List Part
  | [] => []
  | n :: r => n.parts ++ nodesParts r

def Expr.parts (e : Expr) : List Part :=
  match e with
  | .conditional _ _ test consequent alternate =>
    conditionalParts test (if consequent.isEmptyBranch then [] else consequent.parts)
      (if alternate.isEmptyBranch then [] else alternate.parts)
  | .logical _ _ .and left right =>
    .guard left :: (if right.isEmptyBranch then [] else right.parts) ++ [.fixed endDirective]
  | .call source _ _ [.function _ _ params body _] (some ['m', 'a', 'p']) (some receiver) =>
    match body with
    | none => [.fixed (Placeholder.comment (blockBodyReason source))]
    | some b =>
      .loop params receiver ::
        (if b.isEmptyBranch then [] else b.parts.map (Part.within params)) ++ [.fixed endDirective]
  | .markup _ _ node => if node.isRoot then node.parts else []
  | .literal source _ kind => literalParts e source kind
  | .function source .. => [.fixed (Placeholder.comment (inlineFunctionReason source))]
  | .misplaced _ => []
  | _ => [.output e]

end

def partsText (scope : Scope) (ps : List Part) : Text := ps.flatMap (Part.text scope)

section Text

variable {scope : Scope} {ps qs : List Part}

@[simp] theorem partsText_nil : partsText scope [] = [] := rfl

@[simp] theorem partsText_cons (p : Part) :
    partsText scope (p :: ps) = p.text scope ++ partsText scope ps := List.flatMap_cons

@[simp] theorem partsText_append :
    partsText scope (ps ++ qs) = partsText scope ps ++ partsText scope qs := List.flatMap_append

@[simp] theorem text_fixed (t : Text) : (Part.fixed t).text scope = t := rfl

@[simp] theorem text_output (e : Expr) :
    (Part.output e).text scope = outputDirective (e.code scope) := by
  simp [Part.output, Part.text, outputDirective, Scope.inside]

@[simp] theorem text_guard (e : Expr) :
    (Part.guard e).text scope = codeDirective ("if " ++ e.code scope) := by
  simp [Part.guard, Part.text, codeDirective, Scope.inside]

theorem loopCode_eq (receiver item : Text) (index : Option Text) :
    loopCode receiver item index = receiver ++ loopCode [] item index := by
  cases index <;> simp [loopCode]

@[simp] theorem text_loop (params : List Param) (receiver : Expr) :
    (Part.loop params receiver).text scope =
      codeDirective (loopCode (receiver.code scope) (loopItem params) (loopIndex params)) := by
  rw [loopCode_eq]
  simp [Part.loop, Part.text, codeDirective, Scope.inside]

/-- In the body of a callback the loop variables are bound. -/
theorem partsText_within (params : List Param) :
    partsText scope (ps.map (Part.within params)) =
      partsText (scope.bind (loopNames params)) ps := by
  have htext (p : Part) :
      (p.within params).text scope = p.text (scope.bind (loopNames params)) := by
    cases p <;> rfl
  rw [partsText, List.flatMap_map, partsText]
  exact List.flatMap_congr fun p _ ↦ htext p

theorem isEmpty_partsText (scope : Scope) (ps : List Part) :
    (partsText scope ps).isEmpty = ps.all Part.isVoid := by
  induction ps with
  | nil => rfl
  | cons p ps ih =>
    have hp : (p.text scope).isEmpty = p.isVoid := by cases p <;> rfl
    rw [partsText_cons, List.all_cons, ← hp, ← ih]
    cases p.text scope <;> rfl

end Text

def AttributeText.written : AttributeText → Text
  | .part t => t
  | _ => []

def AttributeText.reported : AttributeText → Text
  | .failure reason => Placeholder.comment reason
  | _ => []

section Attributes

variable {scope : Scope} {isComponent : Bool}

theorem parts_add (r : RenderedAttributes) (t : AttributeText) :
    (r.add t).parts = r.parts ++ t.written := by
  cases t with
  | part t => rfl
  | failure reason => exact (List.append_nil _).symm
  | misfit m => exact (List.append_nil _).symm

theorem leading_add (r : RenderedAttributes) (t : AttributeText) :
    (r.add t).leading = r.leading ++ t.reported := by
  cases t with
  | part t => exact (List.append_nil _).symm
  | failure reason => rfl
  | misfit m => exact (List.append_nil _).symm

theorem partsText_attributeParts (name html : Text) (e : Expr) :
    partsText scope (e.attributeParts isComponent html) =
      (expressionAttribute scope isComponent name html e).written := by
  have hcomputed (e : Expr) :
      partsText scope
        (if !isComponent && isAmong html booleanAttributes then
          [.fixed " ", .directive ("= \"" ++ html ++ "\" if ") [] e " "]
        else [.fixed (" " ++ html ++ "=\""), .output e, .fixed "\""]) =
      (if !isComponent && isAmong html booleanAttributes then
        AttributeText.part (" <%= \"" ++ html ++ "\" if " ++ e.code scope ++ " %>")
      else .part (quotedAttribute html (outputDirective (e.code scope)))).written := by
    split
    · simp [AttributeText.written, Part.text, Scope.inside]
    · simp [AttributeText.written, quotedAttribute]
  cases e with
  | identifier | member | conditional | logical | call => exact hcomputed _
  | function | markup | misplaced => rfl
  | other source refs kind =>
    rw [expressionAttribute, Expr.attributeParts]
    split
    · rfl
    · exact hcomputed _
  | literal source refs kind =>
    cases kind with
    | string | number => exact List.append_nil _
    | boolean b =>
      cases b with
      | true => exact List.append_nil _
      | false => rfl
    | null | undefined => rfl
    | template | regex => exact hcomputed _

theorem reported_expressionAttribute (scope' : Scope) (name html : Text) (e : Expr) :
    (expressionAttribute scope isComponent name html e).reported =
      (expressionAttribute scope' isComponent name html e).reported := by
  have hcomputed (e : Expr) (scope : Scope) :
      (if !isComponent && isAmong html booleanAttributes then
        AttributeText.part (" <%= \"" ++ html ++ "\" if " ++ e.code scope ++ " %>")
      else .part (quotedAttribute html (outputDirective (e.code scope)))).reported = [] := by
    split <;> rfl
  cases e with
  | identifier | member | conditional | logical | call =>
    exact (hcomputed _ scope).trans (hcomputed _ scope').symm
  | function | markup | misplaced => rfl
  | other source refs kind =>
    rw [expressionAttribute, expressionAttribute]
    split
    · rfl
    · exact (hcomputed _ scope).trans (hcomputed _ scope').symm
  | literal source refs kind =>
    cases kind with
    | string | number | null | undefined => rfl
    | boolean b => cases b <;> rfl
    | template | regex => exact (hcomputed _ scope).trans (hcomputed _ scope').symm

theorem parts_renderAttribute (r : RenderedAttributes) (a : Attribute) :
    (renderAttribute scope isComponent r a).parts =
      r.parts ++ partsText scope (a.parts isComponent) := by
  cases a with
  | spread argument =>
    rw [renderAttribute, Attribute.parts]
    simp [Part.text, Scope.inside]
  | misplaced kind name => exact (List.append_nil _).symm
  | named name value =>
    rw [renderAttribute, Attribute.parts]
    cases isAmong name droppedAttributes with
    | true => exact (List.append_nil _).symm
    | false =>
      cases isEventName name && !isComponent with
      | true => exact (List.append_nil _).symm
      | false =>
        simp only [Bool.false_eq_true, if_false, Bool.or_false, parts_add]
        congr 1
        cases value with
        | none => exact (List.append_nil _).symm
        | some v =>
          cases v with
          | string v => exact (List.append_nil _).symm
          | unsupported | misplaced => rfl
          | expression e =>
            cases e with
            | none => rfl
            | some e => exact (partsText_attributeParts name _ e).symm

theorem leading_renderAttribute {r r' : RenderedAttributes} (scope' : Scope) (a : Attribute)
    (h : r.leading = r'.leading) :
    (renderAttribute scope isComponent r a).leading =
      (renderAttribute scope' isComponent r' a).leading := by
  cases a with
  | spread | misplaced => exact h
  | named name value =>
    rw [renderAttribute, renderAttribute]
    split
    · exact h
    · split
      · exact h
      · rw [leading_add, leading_add, h]
        congr 1
        cases value with
        | none => rfl
        | some v =>
          cases v with
          | string | unsupported | misplaced => rfl
          | expression e =>
            cases e with
            | none => rfl
            | some e => exact reported_expressionAttribute scope' name _ e

theorem parts_foldl_renderAttribute (r : RenderedAttributes) (attributes : List Attribute) :
    (attributes.foldl (renderAttribute scope isComponent) r).parts =
      r.parts ++ partsText scope (attributes.flatMap (Attribute.parts isComponent)) := by
  induction attributes generalizing r with
  | nil => exact (List.append_nil _).symm
  | cons a attributes ih =>
    rw [List.foldl_cons, ih, parts_renderAttribute, List.flatMap_cons, partsText_append,
      List.append_assoc]

theorem leading_foldl_renderAttribute {r r' : RenderedAttributes} (scope' : Scope)
    (attributes : List Attribute) (h : r.leading = r'.leading) :
    (attributes.foldl (renderAttribute scope isComponent) r).leading =
      (attributes.foldl (renderAttribute scope' isComponent) r').leading := by
  induction attributes generalizing r r' with
  | nil => exact h
  | cons a attributes ih => exact ih (leading_renderAttribute scope' a h)

theorem parts_renderAttributes_eq (attributes : List Attribute) :
    (renderAttributes scope isComponent attributes).parts =
      partsText scope (attributes.flatMap (Attribute.parts isComponent)) ++
        (if (fixedAttributes isComponent attributes).actions.isEmpty then []
        else quotedAttribute "data-action"
          (join " " (fixedAttributes isComponent attributes).actions)) := by
  have hactions : (attributes.foldl (renderAttribute scope isComponent) {}).actions =
      (fixedAttributes isComponent attributes).actions :=
    (actions_foldl_renderAttribute ..).trans (actions_foldl_renderAttribute ..).symm
  have hparts : (attributes.foldl (renderAttribute scope isComponent) {}).parts =
      partsText scope (attributes.flatMap (Attribute.parts isComponent)) :=
    parts_foldl_renderAttribute {} attributes
  simp only [renderAttributes]
  rw [← hactions]
  split
  · rw [hparts, List.append_nil]
  · rw [hparts]

theorem leading_renderAttributes (attributes : List Attribute) :
    (renderAttributes scope isComponent attributes).leading =
      (fixedAttributes isComponent attributes).leading := by
  have hleading : (attributes.foldl (renderAttribute scope isComponent) {}).leading =
      (fixedAttributes isComponent attributes).leading :=
    leading_foldl_renderAttribute _ attributes rfl
  simp only [renderAttributes]
  split <;> exact hleading

theorem html_renderElement {tag : Text} {attributes : List Attribute} {r : Rendered}
    {ps : List Part} (selfClosing : Bool) (h : r.html = partsText scope ps) :
    (renderElement scope tag attributes r selfClosing).html =
      partsText scope (elementParts tag attributes ps selfClosing) := by
  rw [renderElement, elementParts]
  generalize resolveTag tag = resolved
  obtain ⟨html, reference⟩ := resolved
  cases selfClosing with
  | true =>
    change _ ++ "<" ++ html ++ markerAttribute reference ++ _ ++ " />" = _
    rw [parts_renderAttributes_eq, leading_renderAttributes]
    simp only [if_true, List.cons_append, partsText_append, partsText_cons, partsText_nil,
      text_fixed, List.append_assoc, List.append_nil]
  | false =>
    change _ ++ "<" ++ html ++ markerAttribute reference ++ _ ++ ">" ++ r.html ++ _ = _
    rw [parts_renderAttributes_eq, leading_renderAttributes, h]
    simp only [Bool.false_eq_true, if_false, List.cons_append, partsText_append, partsText_cons,
      partsText_nil, text_fixed, List.append_assoc, List.append_nil]

end Attributes

section Markup

variable {scope : Scope} {r r' : Rendered} {ps qs : List Part}

theorem html_append (r r' : Rendered) : (r ++ r').html = r.html ++ r'.html := rfl

theorem html_branch {e : Expr} (h : (e.render scope).html = partsText scope e.parts) :
    (if e.isEmptyBranch then {} else e.render scope : Rendered).html =
      partsText scope (if e.isEmptyBranch then [] else e.parts) := by
  split
  · rfl
  · exact h

theorem html_renderConditional {test : Expr} (h : r.html = partsText scope ps)
    (h' : r'.html = partsText scope qs) :
    (renderConditional (test.code scope) r r').html =
      partsText scope (conditionalParts test ps qs) := by
  have helse : (if r'.html.isEmpty then ([] : Text) else "<% else %>") =
      if qs.all Part.isVoid then [] else "<% else %>" := by
    rw [h', isEmpty_partsText]
  change codeDirective ("if " ++ test.code scope) ++ r.html ++ [] ++
    ((if r'.html.isEmpty then ([] : Text) else "<% else %>") ++ r'.html ++ []) ++ endDirective = _
  rw [helse, h, h', conditionalParts]
  simp only [List.cons_append, partsText_append, partsText_cons, partsText_nil, text_fixed,
    text_guard, List.append_assoc, List.append_nil]

theorem html_renderLiteral (e : Expr) (source : Text) (kind : LiteralKind) :
    (renderLiteral scope e source kind).html = partsText scope (literalParts e source kind) := by
  cases kind with
  | string | number => exact (List.append_nil _).symm
  | null | undefined | boolean => rfl
  | template | regex =>
    rw [literalParts, partsText_cons, text_output]
    exact (List.append_nil _).symm

/-- What markup renders to is the text of its parts, in every scope: by induction over nodes,
expressions and lists of nodes as the renderer goes through them. -/
theorem html_render :
    (∀ scope (n : Node), (n.render scope).html = partsText scope n.parts) ∧
    (∀ scope (e : Expr), (e.render scope).html = partsText scope e.parts) ∧
    (∀ scope ns, (renderNodes scope ns).html = partsText scope (nodesParts ns)) := by
  apply Node.render.mutual_induct
    (fun scope n ↦ (n.render scope).html = partsText scope n.parts)
    (fun scope e ↦ (e.render scope).html = partsText scope e.parts)
    (fun scope ns ↦ (renderNodes scope ns).html = partsText scope (nodesParts ns))
  -- Expressions, the last case being those that are written as they stand.
  case case1 =>
    intro scope source refs test consequent alternate ihc iha
    rw [Expr.render, Expr.parts]
    exact html_renderConditional (html_branch ihc) (html_branch iha)
  case case2 =>
    intro scope source refs left right ih
    rw [Expr.render, Expr.parts]
    simp only [Rendered.html_lacking, Rendered.wrap, html_branch ih, List.cons_append,
      partsText_cons, partsText_append, partsText_nil, text_guard, text_fixed, List.append_assoc,
      List.append_nil]
  case case3 =>
    intro scope source refs callee source' refs' params block receiver
    rw [Expr.render, Expr.parts]
    exact (List.append_nil _).symm
  case case4 =>
    intro scope _ _ _ _ _ params _ receiver b bound head warnings hhead ih
    obtain ⟨loopWarnings, heq⟩ := loopHead_eq (receiver.code scope) params
    rw [heq, Prod.mk.injEq, Prod.mk.injEq] at hhead
    obtain ⟨rfl, rfl, rfl⟩ := hhead
    have hbody : (if b.isEmptyBranch then {} else b.render (scope.bind (loopNames params)) :
        Rendered).html =
        partsText scope (if b.isEmptyBranch then [] else b.parts.map (Part.within params)) := by
      split
      · rfl
      · rw [partsText_within]
        exact ih
    rw [Expr.render, Expr.parts, heq]
    change _ ++ Rendered.html
      (if b.isEmptyBranch then {} else b.render (scope.bind (loopNames params))) ++ _ = _
    rw [hbody]
    simp only [List.cons_append, partsText_cons, partsText_append, partsText_nil, text_loop,
      text_fixed, List.append_assoc, List.append_nil]
  case case5 =>
    intro scope source refs node hroot ih
    rw [Expr.render, Expr.parts, if_pos hroot, if_pos hroot]
    exact ih
  case case6 =>
    intro scope source refs node hroot
    rw [Expr.render, Expr.parts, if_neg hroot, if_neg hroot]
    rfl
  case case7 =>
    intro scope source refs kind
    rw [Expr.render, Expr.parts]
    exact html_renderLiteral _ source kind
  case case8 =>
    intro scope source refs params body block
    rw [Expr.render, Expr.parts]
    exact (List.append_nil _).symm
  case case9 =>
    intro scope kind
    rw [Expr.render, Expr.parts]
    rfl
  case case10 =>
    intro e scope h₁ h₂ h₃ h₄ h₅ h₆ h₇
    rw [Expr.render, Expr.parts] <;> try assumption
    rw [partsText_cons, text_output]
    exact (List.append_nil _).symm
  -- Nodes, then lists of nodes.
  case case11 =>
    intro scope tag attributes children selfClosing ih
    rw [Node.render, Node.parts]
    refine html_renderElement selfClosing ?_
    split
    · rfl
    · exact ih
  case case12 =>
    intro scope children ih
    rw [Node.render, Node.parts]
    exact ih
  case case13 =>
    intro scope value
    rw [Node.render, Node.parts]
    exact (List.append_nil _).symm
  case case14 =>
    intro scope
    rw [Node.render, Node.parts]
    rfl
  case case15 =>
    intro scope e ih
    rw [Node.render, Node.parts]
    exact ih
  case case16 =>
    intro scope kind source
    rw [Node.render, Node.parts]
    exact (List.append_nil _).symm
  case case17 =>
    intro scope kind
    rw [Node.render, Node.parts]
    rfl
  case case18 =>
    intro scope
    rw [renderNodes, nodesParts]
    rfl
  case case19 =>
    intro scope n r ihn ihr
    rw [renderNodes, nodesParts, html_append, ihn, ihr, partsText_append]

end Markup

def Param.plainName? (p : Param) : Option Text := p.name.filter (!·.isEmpty)

/-- The names that a loop binds: those of the first two parameters, and `item` if the first has
none. -/
def Binds (params : List Param) (name : Text) : Prop :=
  (∃ p ∈ params.take 2, p.plainName? = some name) ∨
    name = "item" ∧ params.head?.bind Param.plainName? = none

instance (params : List Param) (name : Text) : Decidable (Binds params name) :=
  inferInstanceAs (Decidable (_ ∨ _))

def Ref.written (props : List Text) (callbacks : List (List Param)) (ref : Ref) : Text :=
  if ref.name ∈ props ∧ ∀ params ∈ callbacks, ¬Binds params ref.name then
    if ref.shorthand then ref.name ++ [':', ' '] ++ '@' :: ref.name else '@' :: ref.name
  else ref.name

def weave (source : Text) (write : Ref → Text) (cursor : Nat) : List Ref → Text
  | [] => source.drop cursor
  | ref :: rest =>
    (source.take ref.offset).drop cursor ++ write ref ++
      weave source write (ref.offset + ref.name.length) rest

/-- An expression on one line, with the names that occur in it written anew. -/
def Expr.printed (e : Expr) (write : Ref → Text) : Text :=
  match e with
  | .identifier _ _ name => write ⟨0, name, false⟩
  | _ => strip (joinLines (weave e.source write 0 e.refs))

def Expr.Located (e : Expr) : Prop :=
  match e with
  | .identifier .. => True
  | _ => Placed e.source 0 e.refs

section Names

variable {props : List Text} {callbacks : List (List Param)} {params : List Param} {name : Text}

theorem loopItem_eq (params : List Param) :
    loopItem params = (params.head?.bind Param.plainName?).getD "item" := by
  cases params with
  | nil => rfl
  | cons p params =>
    obtain ⟨name, source⟩ := p
    match name with
    | none => rfl
    | some [] => rfl
    | some (c :: n) => rfl

theorem loopIndex_eq (params : List Param) :
    loopIndex params = params[1]?.bind Param.plainName? := by
  rw [loopIndex]
  cases params[1]? with
  | none => rfl
  | some p =>
    obtain ⟨name, source⟩ := p
    match name with
    | none => rfl
    | some [] => rfl
    | some (c :: n) => rfl

/-- The loop variables of a callback are the names that it binds. -/
theorem mem_loopNames : name ∈ loopNames params ↔ Binds params name := by
  rw [loopNames, loopItem_eq, loopIndex_eq, List.mem_cons, Option.mem_toList, Binds]
  match params with
  | [] => simp
  | [p] => cases h : p.plainName? <;> simp [h, eq_comm]
  | p :: q :: rest => cases h : p.plainName? <;> simp [h, eq_comm, or_comm]

theorem inside_eq (scope : Scope) (callbacks : List (List Param)) :
    scope.inside callbacks = scope.bind (callbacks.flatMap loopNames) := by
  induction callbacks generalizing scope with
  | nil => simp [Scope.inside, Scope.bind]
  | cons params callbacks ih =>
    rw [Scope.inside, List.foldl_cons, ← Scope.inside, ih, List.flatMap_cons]
    simp [Scope.bind]

theorem reference_inside (props : List Text) (callbacks : List (List Param)) (name : Text) :
    ((Scope.mk props []).inside callbacks).reference name =
      if name ∈ props ∧ ∀ params ∈ callbacks, ¬Binds params name then some ('@' :: name)
      else none := by
  rw [inside_eq, Scope.reference, Scope.bind]
  refine if_congr ?_ rfl rfl
  simp [mem_loopNames]

/-- A text from one place on is the stretch to a later place and what stands from there on. -/
theorem drop_eq_append {a b : Nat} (t : Text) (h : a ≤ b) :
    t.drop a = (t.take b).drop a ++ t.drop b := by
  have hlater : t.drop b = (t.drop a).drop (b - a) := by
    rw [List.drop_drop, Nat.add_sub_cancel' h]
  rw [List.drop_take, hlater, List.take_append_drop]

theorem drop_take_eq_append {a b c : Nat} (t : Text) (hab : a ≤ b) (hbc : b ≤ c) :
    (t.take c).drop a = (t.take b).drop a ++ (t.take c).drop b := by
  rw [drop_eq_append (t.take c) hab, List.take_take, Nat.min_eq_left hbc]

/-- What stands before the next occurrence is copied. -/
theorem substituteFrom_eq_append {source : Text} {replacement : Text → Option Text}
    {cursor place : Nat} {refs : List Ref} (hle : cursor ≤ place) (h : Placed source place refs) :
    substituteFrom source replacement cursor refs =
      (source.take place).drop cursor ++ substituteFrom source replacement place refs := by
  induction refs with
  | nil => exact drop_eq_append source hle
  | cons ref rest ih =>
    obtain ⟨hplace, hname, hrest⟩ := h
    rw [substituteFrom, substituteFrom]
    cases replacement ref.name with
    | none => exact ih (hrest.mono (by omega))
    | some new => simp only [drop_take_eq_append source hle hplace, List.append_assoc]

theorem substituteFrom_eq_weave {source : Text} {replacement : Text → Option Text} {cursor : Nat}
    {refs : List Ref} (h : Placed source cursor refs) :
    substituteFrom source replacement cursor refs =
      weave source (fun ref ↦ match replacement ref.name with
        | none => ref.name
        | some new => if ref.shorthand then ref.name ++ [':', ' '] ++ new else new)
        cursor refs := by
  induction refs generalizing cursor with
  | nil => rfl
  | cons ref rest ih =>
    obtain ⟨hplace, hname, hrest⟩ := h
    rw [substituteFrom, weave, ← ih hrest]
    cases replacement ref.name with
    | some new => rfl
    | none =>
      obtain ⟨after, hafter⟩ := hname
      -- A name that stays is copied with what stands before the next one that does not.
      have hstands : (source.take (ref.offset + ref.name.length)).drop ref.offset = ref.name := by
        rw [List.drop_take, ← hafter, Nat.add_sub_cancel_left, List.take_left]
      have hend : (source.take (ref.offset + ref.name.length)).drop cursor =
          (source.take ref.offset).drop cursor ++ ref.name := by
        rw [drop_take_eq_append source hplace (Nat.le_add_right _ _), hstands]
      have hle : cursor ≤ ref.offset + ref.name.length := by omega
      rw [substituteFrom_eq_append hle hrest, hend]

/-- Inside callbacks an expression is printed with its props as variables of the component, except
those that a callback binds. -/
theorem code_inside {e : Expr} (h : e.Located) :
    e.code ((Scope.mk props []).inside callbacks) = e.printed (Ref.written props callbacks) := by
  have hwrite : (fun ref : Ref ↦
      match ((Scope.mk props []).inside callbacks).reference ref.name with
      | none => ref.name
      | some new => if ref.shorthand then ref.name ++ [':', ' '] ++ new else new) =
      Ref.written props callbacks := by
    funext ref
    rw [reference_inside, Ref.written]
    by_cases hfree : ref.name ∈ props ∧ ∀ params ∈ callbacks, ¬Binds params ref.name
    · rw [if_pos hfree, if_pos hfree]
    · rw [if_neg hfree, if_neg hfree]
  have hplaced (hrefs : Placed e.source 0 e.refs) :
      strip (joinLines (e.substitute ((Scope.mk props []).inside callbacks).reference)) =
        strip (joinLines (weave e.source (Ref.written props callbacks) 0 e.refs)) := by
    rw [Expr.substitute, substituteFrom_eq_weave hrefs, hwrite]
  cases e with
  | identifier source refs name =>
    have hname := congrFun hwrite ⟨0, name, false⟩
    rw [Expr.code, Expr.printed, ← hname]
    dsimp only
    cases ((Scope.mk props []).inside callbacks).reference name <;> rfl
  | misplaced kind => exact hplaced h
  | _ => exact hplaced h

end Names

/-- A template is the text of the parts of its markup, in which every occurrence of a prop is
printed as a variable of the component, unless a callback around it binds the name: as that of
one of its first two parameters, or as the name of the item that it gives no name. -/
theorem printed_renderRoot {props : List Text} {root : Node} {r : Rendered}
    (h : renderRoot props root = .ok r) :
    r.html = root.parts.flatMap (Part.text { props }) ∧
    (∀ lead callbacks e trail, .directive lead callbacks e trail ∈ root.parts → e.Located →
      (Part.directive lead callbacks e trail).text { props } =
        "<%" ++ lead ++ e.printed (Ref.written props callbacks) ++ trail ++ "%>") ∧
    ∀ (callbacks : List (List Param)) (ref : Ref), ref.name ∈ props →
      ((∀ params ∈ callbacks, ∀ p ∈ params, p.plainName? ≠ some ref.name) →
        (ref.name = "item" → ∀ params ∈ callbacks, params.head?.bind Param.plainName? ≠ none) →
        ref.written props callbacks =
          if ref.shorthand then ref.name ++ [':', ' '] ++ '@' :: ref.name else '@' :: ref.name) ∧
      ((∃ params ∈ callbacks, ∃ p ∈ params.take 2, p.plainName? = some ref.name) →
        ref.written props callbacks = ref.name) := by
  refine ⟨?_, fun lead callbacks e trail _ hlocated ↦ ?_, fun callbacks ref hprop ↦ ⟨?_, ?_⟩⟩
  · have hr : root.render { props } = r := by
      simp only [renderRoot] at h
      split at h
      · split at h
        · exact Except.ok.inj h
        · cases h
      · cases h
    rw [← hr]
    exact html_render.1 { props } root
  · rw [Part.text, code_inside hlocated]
  · intro hparams hitem
    refine if_pos ⟨hprop, fun params hmem ↦ ?_⟩
    rintro (⟨p, hp, hname⟩ | ⟨hname, hnone⟩)
    · exact hparams params hmem p (List.mem_of_mem_take hp) hname
    · exact hitem hname params hmem hnone
  · rintro ⟨params, hmem, hbinds⟩
    exact if_neg fun hfree ↦ hfree.2 params hmem (.inl hbinds)

/-- Rows with cells: a prop that the outer callback hides, and one that no callback hides. -/
def rowTable : Node :=
  .element "ul" []
    [.container (some (.call [] [] (.member "rows.map" [] (some "rows"))
      [.function [] [] [⟨some "row", "row", none⟩]
        (some (.markup [] [] (.element "li" [] [.container (some
          (.call [] [] (.member "row.map" [] (some "row"))
            [.function [] [] [⟨some "cell", "cell", none⟩]
              (some (.other "row + size" [⟨0, "row", false⟩, ⟨6, "size", false⟩] "binary")) none]
            (some ['m', 'a', 'p']) (some (.identifier "row" [] "row"))))] false))) none]
      (some ['m', 'a', 'p']) (some (.identifier "rows" [] "rows"))))] false

theorem printed_renderRoot_rowTable :
    ∃ r, renderRoot ["rows", "row", "size"] rowTable = .ok r ∧
      r.html = ("<ul><% @rows.each do |row| %><li><% row.each do |cell| %>" : Text) ++
        "<%= row + @size %>" ++ "<% end %></li><% end %></ul>" :=
  have h : renderRoot ["rows", "row", "size"] rowTable =
      .ok (rowTable.render { props := ["rows", "row", "size"] }) := rfl
  ⟨_, h, (printed_renderRoot h).1.trans (by decide +kernel)⟩

def rowList (params : List Param) (name : Text) : Node :=
  .element "ul" []
    [.container (some (.call [] [] (.member "rows.map" [] (some "rows"))
      [.function [] [] params (some (.identifier name [] name)) none]
      (some ['m', 'a', 'p']) (some (.identifier "rows" [] "rows"))))] false

/-- Without a parameter the loop takes the prop `item` for its own, and the third parameter is taken
for the prop of its name. -/
theorem rowList_captures :
    (∃ r, renderRoot ["rows", "item"] (rowList [] "item") = .ok r ∧
      r.html = "<ul><% @rows.each do |item| %><%= item %><% end %></ul>") ∧
    ∃ r, renderRoot ["rows", "all"] (rowList [⟨some "row", "row", none⟩, ⟨some "i", "i", none⟩,
        ⟨some "all", "all", none⟩] "all") = .ok r ∧
      r.html = "<ul><% @rows.each_with_index do |row, i| %><%= @all %><% end %></ul>" :=
  ⟨⟨_, rfl, by decide +kernel⟩, _, rfl, by decide +kernel⟩

end ViewForge.Markup
