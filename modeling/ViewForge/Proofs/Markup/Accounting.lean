import Mathlib.Data.List.Forall2
import ViewForge.Proofs.Markup.Quiet

namespace ViewForge.Markup

open Text Erb

section Marks

def placeholders (t : Text) : List Text :=
  t.tails.filter (startsWith · ("<!-- " ++ Placeholder.marker))

theorem length_placeholders (t : Text) : (placeholders t).length = Placeholder.count t := by
  induction t with
  | nil => rfl
  | cons c t ih =>
    rw [Placeholder.count, occurrences, ← Placeholder.count, ← ih, placeholders, List.tails_cons,
      List.filter_cons, ← placeholders]
    change (if startsWith _ _ = true then _ else _ : List Text).length =
      (if startsWith _ _ = true then 1 else 0) + _
    split
    · rw [List.length_cons, Nat.add_comm]
    · rw [Nat.zero_add]

theorem placeholders_cons {c : Char} {t : Text} (h : c = '<' → ¬("!--" : Text) <+: t) :
    placeholders (c :: t) = placeholders t := by
  have hmark : ¬startsWith (c :: t) ("<!-- " ++ Placeholder.marker) = true := by
    rw [startsWith_iff]
    intro hstart
    have hopen : '<' :: ("!--" : Text) <+: c :: t := .trans (by decide) hstart
    obtain ⟨rfl, hrest⟩ := List.cons_prefix_cons.1 hopen
    exact h rfl hrest
  rw [placeholders, List.tails_cons, List.filter_cons, if_neg hmark, ← placeholders]

/-- The placeholders that begin in a text, whatever follows it, are the comments of these
reasons. -/
def Marks (t : Text) (reasons : List Text) : Prop :=
  ∀ rest, ∃ ends, placeholders (t ++ rest) = ends ++ placeholders rest ∧
    List.Forall₂ (fun reason e ↦ Placeholder.comment reason <+: e) reasons ends

variable {t u : Text} {reasons reasons' : List Text}

theorem Marks.nil : Marks [] [] := fun _ ↦ ⟨[], rfl, .nil⟩

theorem Marks.append (ht : Marks t reasons) (hu : Marks u reasons') :
    Marks (t ++ u) (reasons ++ reasons') := by
  intro rest
  obtain ⟨ends, heq, hends⟩ := ht (u ++ rest)
  obtain ⟨ends', heq', hends'⟩ := hu rest
  refine ⟨ends ++ ends', ?_, List.rel_append hends hends'⟩
  rw [List.append_assoc, heq, heq', List.append_assoc]

theorem placeholders_append_of_quiet (rest : Text) (h : Quiet t) (hlast : t.getLast? ≠ some '<') :
    placeholders (t ++ rest) = placeholders rest := by
  induction t with
  | nil => rfl
  | cons c t ih =>
    have htail : Quiet t := h.within (List.suffix_cons c t).isInfix
    have hstart : c = '<' → ¬("!--" : Text) <+: t ++ rest := by
      rintro rfl hmark
      cases t with
      | nil => exact hlast rfl
      | cons d t =>
        obtain ⟨rfl, -⟩ := List.cons_prefix_cons.1 hmark
        exact h ⟨[], t, rfl⟩
    rw [List.cons_append, placeholders_cons hstart]
    refine ih htail fun htl ↦ hlast ?_
    cases t with
    | nil => cases htl
    | cons d t => exact htl

theorem marks_of_quiet (h : Quiet t) (hlast : t.getLast? ≠ some '<') : Marks t [] :=
  fun rest ↦ ⟨[], placeholders_append_of_quiet rest h hlast, .nil⟩

theorem marks_text (h : '<' ∉ t) : Marks t [] :=
  marks_of_quiet (quiet_of_not_mem h) fun hlast ↦ h (List.mem_of_getLast? hlast)

/-- Dashes are kept apart, also from what follows a reason. -/
theorem not_dashes_spaced (r rest : Text) :
    ¬("--" : Text) <+: Placeholder.spaced r ++ ' ' :: rest := by
  fun_cases Placeholder.spaced r with
  | case1 => exact fun h ↦ absurd (List.cons_prefix_cons.1 h).1 (by decide)
  | case2 r =>
    intro h
    have hsecond := (List.cons_prefix_cons.1 h).2
    exact absurd (List.cons_prefix_cons.1 hsecond).1 (by decide)
  | case3 c r hc =>
    intro h
    obtain ⟨rfl, hsecond⟩ := List.cons_prefix_cons.1 h
    have hdash : r.head? = some '-' := by
      rw [← head?_spaced]
      cases hr : Placeholder.spaced r with
      | nil =>
        rw [hr] at hsecond
        exact absurd (List.cons_prefix_cons.1 hsecond).1 (by decide)
      | cons d s =>
        rw [hr] at hsecond
        rw [← (List.cons_prefix_cons.1 hsecond).1]
        rfl
    obtain ⟨s, rfl⟩ := List.head?_eq_some_iff.1 hdash
    exact hc s rfl rfl

theorem not_opening_spaced (r rest : Text) :
    ¬("!--" : Text) <+: Placeholder.spaced r ++ ' ' :: rest := by
  fun_cases Placeholder.spaced r with
  | case1 => exact fun h ↦ absurd (List.cons_prefix_cons.1 h).1 (by decide)
  | case2 r => exact fun h ↦ absurd (List.cons_prefix_cons.1 h).1 (by decide)
  | case3 c r hc => exact fun h ↦ not_dashes_spaced r rest (List.cons_prefix_cons.1 h).2

theorem placeholders_spaced (r rest : Text) :
    placeholders (Placeholder.spaced r ++ ' ' :: rest) = placeholders rest := by
  have hplain {c : Char} (hc : c ≠ '<') (t : Text) : placeholders (c :: t) = placeholders t :=
    placeholders_cons fun h ↦ absurd h hc
  fun_induction Placeholder.spaced r with
  | case1 => exact hplain (by decide) rest
  | case2 r ih =>
    rw [List.cons_append, List.cons_append, List.cons_append, hplain (by decide),
      hplain (by decide), hplain (by decide), ih]
  | case3 c r hc ih =>
    rw [List.cons_append, placeholders_cons fun _ ↦ not_opening_spaced r rest, ih]

theorem comment_append (reason rest : Text) : Placeholder.comment reason ++ rest =
    '<' :: ("!-- TODO: " ++ (Placeholder.spaced reason ++ ' ' :: ("-->" ++ rest))) := by
  unfold Placeholder.comment Placeholder.marker
  generalize Placeholder.spaced reason = s
  simp

/-- Whatever the reason, its comment is one placeholder. -/
theorem marks_comment (reason : Text) : Marks (Placeholder.comment reason) [reason] := by
  intro rest
  have hcomment := List.prefix_append (Placeholder.comment reason) rest
  refine ⟨[Placeholder.comment reason ++ rest], ?_, .cons hcomment .nil⟩
  have hmark (r : Text) : startsWith ('<' :: ("!-- TODO: " ++ r))
      ("<!-- " ++ Placeholder.marker) = true := rfl
  rw [comment_append, placeholders, List.tails_cons, List.filter_cons, if_pos (hmark _),
    ← placeholders, placeholders_append_of_quiet _ (by decide) (by decide), placeholders_spaced,
    placeholders_append_of_quiet _ (by decide) (by decide)]
  rfl

end Marks

section Tag

/-- A quiet text that may also stand behind a `<`. -/
structure Harmless (t : Text) : Prop where
  quiet : Quiet t
  head : t.head? ≠ some '!'

variable {t u before after name value code html : Text}

theorem Harmless.nil : Harmless [] := ⟨quiet_of_not_mem nofun, nofun⟩

theorem Harmless.append (ht : Harmless t) (hu : Harmless u) : Harmless (t ++ u) where
  quiet := ht.quiet.append_of_head hu.quiet hu.head
  head := by
    cases t with
    | nil => exact hu.head
    | cons c t => exact ht.head

theorem harmless_quotedAttribute (hn : Quiet name) (hv : Quiet value) :
    Harmless (quotedAttribute name value) where
  quiet := by
    have hname : Quiet (" " ++ name) := (show Quiet " " by decide).append_of_last hn (by decide)
    exact (hname.joined hv (by decide)).append_of_head (by decide) (by decide)
  head := by simp [quotedAttribute]

theorem quiet_outputDirective (h : Quiet code) : Quiet (outputDirective code) :=
  h.enclosed (by decide) (by decide) (by decide) (by decide)

theorem quiet_codeDirective (h : Quiet code) : Quiet (codeDirective code) :=
  h.enclosed (by decide) (by decide) (by decide) (by decide)

theorem harmless_spread (h : Quiet code) :
    Harmless (" <%= render_attributes(" ++ code ++ ") %>") where
  quiet := h.enclosed (by decide) (by decide) (by decide) (by decide)
  head := by simp

theorem harmless_bare (h : Quiet html) : Harmless (' ' :: html) where
  quiet := (show Quiet [' '] by decide).append_of_last h (by decide)
  head := by simp

theorem harmless_boolean (hh : Quiet html) (hc : Quiet code) :
    Harmless (" <%= \"" ++ html ++ "\" if " ++ code ++ " %>") where
  quiet := by
    have hname : Quiet (" <%= \"" ++ html) :=
      (show Quiet " <%= \"" by decide).append_of_last hh (by decide)
    exact (hname.joined hc (by decide)).append_of_head (by decide) (by decide)
  head := by simp

theorem quiet_of_isQuotable (h : isQuotable t = true) : Quiet t := by
  refine quiet_of_not_mem fun hmem ↦ ?_
  exact absurd (List.all_eq_true.1 h _ hmem) (by decide)

theorem marks_openTag (close : Text) (h : Harmless t)
    (hclose : close ≠ [] ∧ '<' ∉ close ∧ '!' ∉ close) : Marks ("<" ++ t ++ close) [] := by
  have hopen : Quiet ("<" ++ t) := (show Quiet "<" by decide).append_of_head h.quiet h.head
  have hquiet := hopen.joined Harmless.nil.quiet hclose
  rw [List.append_nil] at hquiet
  refine marks_of_quiet hquiet fun hlast ↦ ?_
  rw [List.getLast?_append_of_ne_nil _ hclose.1] at hlast
  exact hclose.2.1 (List.mem_of_getLast? hlast)

theorem marks_closeTag (h : Quiet html) : Marks ("</" ++ html ++ ">") [] := by
  refine marks_of_quiet (h.enclosed (by decide) (by decide) (by decide) (by decide)) ?_
  rw [List.getLast?_append]
  exact nofun

theorem harmless_marker {reference : Option Text} (h : ∀ name ∈ reference, Quiet name) :
    Harmless (markerAttribute reference) := by
  cases reference with
  | none => exact .nil
  | some name => exact harmless_quotedAttribute (by decide) (h name rfl)

end Tag

section Attributes

def isLoopNote (warning : Text) : Bool := startsWith warning "Destructured loop parameter"

/-- Expressions that can be the value of an attribute: numerals and codes without `<!`, and what is
escaped, left out or reported. -/
def Expr.QuietValue (isComponent : Bool) (e : Expr) : Prop :=
  match e with
  | .literal source _ .number => Quiet source
  | .literal _ _ .string | .literal _ _ (.boolean _) | .literal _ _ .null
  | .literal _ _ .undefined | .markup .. | .function .. => True
  | .other _ _ kind => (kind == "object" && !isComponent) = true ∨ e.Printable
  | _ => e.Printable

def Value.Quiet (isComponent : Bool) : Value → Prop
  | .string _ | .expression none | .unsupported .. => True
  | .expression (some e) => e.QuietValue isComponent
  | .misplaced _ => False

/-- Attributes whose name, handler and code have no `<!` in them. A dropped attribute is not
written at all. -/
def Attribute.Quiet (isComponent : Bool) : Attribute → Prop
  | .spread argument => argument.Printable
  | .misplaced .. => False
  | .named name value =>
    isAmong name droppedAttributes = true ∨ Markup.Quiet name ∧
      if isEventName name && !isComponent then
        Markup.Quiet (resolveHandler name value).1 ∧ handlerMisfits value = []
      else ∀ v ∈ value, v.Quiet isComponent

def AttributeText.Accounted : AttributeText → Prop
  | .part t => Harmless t
  | .failure reason => isLoopNote reason = false
  | .misfit _ => False

theorem accounted_unsupportedValue (name what : Text) :
    (unsupportedValue name what).Accounted := rfl

/-- What holds of the attributes of a tag as they are added one by one. -/
structure RenderedAttributes.Accounted (r : RenderedAttributes) : Prop where
  parts : Harmless r.parts
  actions : ∀ a ∈ r.actions, Quiet a
  leading : Marks r.leading r.warnings
  warnings : ∀ w ∈ r.warnings, isLoopNote w = false
  misfits : r.misfits = []

variable (scope : Scope) (isComponent : Bool) {name html : Text}

theorem RenderedAttributes.Accounted.add {r : RenderedAttributes} {t : AttributeText}
    (hr : r.Accounted) (ht : t.Accounted) : (r.add t).Accounted := by
  cases t with
  | part t => exact { hr with parts := hr.parts.append ht }
  | failure reason =>
    refine { hr with leading := hr.leading.append (marks_comment reason), warnings := ?_ }
    rw [RenderedAttributes.add, List.forall_mem_append, List.forall_mem_singleton]
    exact ⟨hr.warnings, ht⟩
  | misfit m => exact ht.elim

theorem accounted_computed {e : Expr} (hh : Quiet html) (h : e.Printable) :
    AttributeText.Accounted (if !isComponent && isAmong html booleanAttributes then
      .part (" <%= \"" ++ html ++ "\" if " ++ e.code scope ++ " %>")
    else .part (quotedAttribute html (outputDirective (e.code scope)))) := by
  split
  · exact harmless_boolean hh (h.quiet_code scope)
  · exact harmless_quotedAttribute hh (quiet_outputDirective (h.quiet_code scope))

theorem harmless_text (hh : Quiet html) (v : Text) :
    Harmless (quotedAttribute html (attributeText v)) :=
  harmless_quotedAttribute hh (quiet_of_isQuotable (isQuotable_attributeText v))

theorem accounted_expressionAttribute {e : Expr} (hh : Quiet html)
    (h : e.QuietValue isComponent) :
    (expressionAttribute scope isComponent name html e).Accounted := by
  cases e with
  | identifier => exact accounted_computed scope isComponent hh h
  | member => exact accounted_computed scope isComponent hh h
  | conditional => exact accounted_computed scope isComponent hh h
  | logical => exact accounted_computed scope isComponent hh h
  | call => exact accounted_computed scope isComponent hh h
  | misplaced => exact h.elim
  | function => exact accounted_unsupportedValue name _
  | markup => exact accounted_unsupportedValue name _
  | other source refs kind =>
    rw [Expr.QuietValue] at h
    rw [expressionAttribute]
    split
    · exact accounted_unsupportedValue name _
    next hobject => exact accounted_computed scope isComponent hh (h.resolve_left hobject)
  | literal source refs kind =>
    cases kind with
    | string => exact harmless_text hh _
    | number => exact harmless_quotedAttribute hh h
    | boolean b =>
      cases b with
      | true => exact harmless_bare hh
      | false => exact Harmless.nil
    | null => exact Harmless.nil
    | undefined => exact Harmless.nil
    | template => exact accounted_computed scope isComponent hh h
    | regex => exact accounted_computed scope isComponent hh h

theorem accounted_valueAttribute {value : Option Value} (hh : Quiet html)
    (h : ∀ v ∈ value, v.Quiet isComponent) :
    (valueAttribute scope isComponent name html value).Accounted := by
  cases value with
  | none => exact harmless_bare hh
  | some v =>
    have hv := h v rfl
    cases v with
    | string v => exact harmless_text hh v
    | unsupported kind source => exact accounted_unsupportedValue name kind
    | misplaced kind => exact hv.elim
    | expression e =>
      cases e with
      | none => exact Harmless.nil
      | some e => exact accounted_expressionAttribute scope isComponent hh hv

theorem accounted_renderAttribute {r : RenderedAttributes} {a : Attribute} (hr : r.Accounted)
    (ha : a.Quiet isComponent) : (renderAttribute scope isComponent r a).Accounted := by
  cases a with
  | spread argument =>
    have hprinted : argument.Printable := ha
    refine { hr with parts := ?_, misfits := ?_ }
    · have hparts := hr.parts.append (harmless_spread (hprinted.quiet_code scope))
      simpa only [renderAttribute, List.append_assoc] using hparts
    · rw [renderAttribute, hr.misfits, hprinted.codeMisfits, List.append_nil]
  | misplaced kind name => exact ha.elim
  | named name value =>
    rw [renderAttribute]
    split
    · exact hr
    next hdropped =>
      obtain ⟨hname, hvalue⟩ := ha.resolve_left hdropped
      split
      next hevent =>
        rw [if_pos hevent] at hvalue
        refine { hr with actions := ?_, misfits := ?_ }
        · rw [List.forall_mem_append, List.forall_mem_singleton]
          exact ⟨hr.actions, hname.eventOf.joined hvalue.1 (by decide)⟩
        · rw [hr.misfits, hvalue.2, List.append_nil]
      next hevent =>
        rw [if_neg hevent] at hvalue
        refine hr.add (accounted_valueAttribute scope isComponent ?_ hvalue)
        split
        · exact hname
        · exact hname.attributeName

theorem accounted_foldl_renderAttribute {attributes : List Attribute} {r : RenderedAttributes}
    (hr : r.Accounted) (h : ∀ a ∈ attributes, a.Quiet isComponent) :
    (attributes.foldl (renderAttribute scope isComponent) r).Accounted := by
  induction attributes generalizing r with
  | nil => exact hr
  | cons a attributes ih =>
    rw [List.forall_mem_cons] at h
    exact ih (accounted_renderAttribute scope isComponent hr h.1) h.2

theorem quiet_join {ts : List Text} (h : ∀ t ∈ ts, Quiet t) : Quiet (join " " ts) := by
  induction ts with
  | nil => exact quiet_of_not_mem nofun
  | cons t ts ih =>
    rw [List.forall_mem_cons] at h
    cases ts with
    | nil =>
      rw [join, List.intercalate_singleton]
      exact h.1
    | cons u ts =>
      rw [join, List.intercalate_cons_cons]
      exact h.1.joined (ih h.2) (by decide)

theorem accounted_renderAttributes {attributes : List Attribute}
    (h : ∀ a ∈ attributes, a.Quiet isComponent) :
    (renderAttributes scope isComponent attributes).Accounted := by
  have hempty : RenderedAttributes.Accounted {} := ⟨.nil, nofun, .nil, nofun, rfl⟩
  have hr := accounted_foldl_renderAttribute scope isComponent hempty h
  rw [renderAttributes]
  split
  · exact hr
  · have hactions := harmless_quotedAttribute (show Quiet "data-action" by decide)
      (quiet_join hr.actions)
    exact { hr with parts := hr.parts.append hactions }

end Attributes

def Rendered.reasons (r : Rendered) : List Text := r.warnings.filter (!isLoopNote ·)

/-- The placeholders of a rendering are the comments of its warnings. -/
structure Rendered.Accounted (r : Rendered) : Prop where
  marks : Marks r.html r.reasons
  misfits : r.misfits = []

namespace Rendered.Accounted

variable {r r' : Rendered} {before after test : Text}

theorem nil : Accounted {} := ⟨.nil, rfl⟩

theorem congr (h : r.Accounted) (hhtml : r'.html = r.html) (hwarnings : r'.warnings = r.warnings)
    (hmisfits : r'.misfits = r.misfits) : r'.Accounted where
  marks := by
    rw [reasons, hhtml, hwarnings]
    exact h.marks
  misfits := hmisfits.trans h.misfits

theorem lacking (h : r.Accounted) {misfits : List Misfit} (hnone : misfits = []) :
    (r.lacking misfits).Accounted := by
  refine h.congr rfl rfl ?_
  rw [hnone]
  exact List.append_nil _

theorem text {t : Text} (h : Marks t []) : Accounted { html := t } := ⟨h, rfl⟩

theorem append (h : r.Accounted) (h' : r'.Accounted) : (r ++ r').Accounted where
  marks := by
    change Marks (r.html ++ r'.html) ((r.warnings ++ r'.warnings).filter _)
    rw [List.filter_append]
    exact h.marks.append h'.marks
  misfits := by
    change r.misfits ++ r'.misfits = []
    rw [h.misfits, h'.misfits, List.append_nil]

theorem wrap (h : r.Accounted) (hbefore : Marks before []) (hafter : Marks after []) :
    (r.wrap before after).Accounted where
  marks := by
    have hmarks := (hbefore.append h.marks).append hafter
    rwa [List.nil_append, List.append_nil] at hmarks
  misfits := h.misfits

theorem failure {reason : Text} (h : isLoopNote reason = false) :
    (Rendered.failure reason).Accounted where
  marks := by
    have hreasons : (Rendered.failure reason).reasons = [reason] := by
      simp [reasons, Rendered.failure, h]
    rw [hreasons]
    exact marks_comment reason
  misfits := rfl

theorem branch {e : Expr} {scope : Scope}
    (h : e.isEmptyBranch = true ∨ (e.render scope).Accounted) :
    (if e.isEmptyBranch then {} else e.render scope : Rendered).Accounted := by
  split
  · exact nil
  next hfull => exact h.resolve_left hfull

end Rendered.Accounted

section Directives

variable {code receiver item : Text}

theorem marks_outputDirective (h : Quiet code) : Marks (outputDirective code) [] := by
  refine marks_of_quiet (quiet_outputDirective h) ?_
  rw [outputDirective, List.getLast?_append]
  rintro ⟨⟩

theorem marks_codeDirective (h : Quiet code) : Marks (codeDirective code) [] := by
  refine marks_of_quiet (quiet_codeDirective h) ?_
  rw [codeDirective, List.getLast?_append]
  rintro ⟨⟩

theorem marks_endDirective : Marks endDirective [] := marks_of_quiet (by decide) (by decide)

theorem quiet_condition (h : Quiet code) : Quiet ("if " ++ code) :=
  (show Quiet "if " by decide).append_of_last h (by decide)

theorem quiet_loopCode {index : Option Text} (hr : Quiet receiver) (hitem : Quiet item)
    (hindex : ∀ i ∈ index, Quiet i) : Quiet (loopCode receiver item index) := by
  cases index with
  | none => exact (hr.joined hitem (by decide)).append_of_head (by decide) (by decide)
  | some index =>
    have hitem : Quiet (receiver ++ ".each_with_index do |" ++ item) :=
      hr.joined hitem (by decide)
    exact (hitem.joined (hindex index rfl) (by decide)).append_of_head (by decide) (by decide)

def QuietParams (params : List Param) : Prop :=
  ∀ p ∈ params, p.foreign = none ∧ ∀ name ∈ p.name, Quiet name

theorem QuietParams.misfits {params ps : List Param} (h : QuietParams params) (hps : ps ⊆ params) :
    ps.flatMap (·.misfits) = [] := by
  rw [List.flatMap_eq_nil_iff]
  intro p hp
  rw [Param.misfits, (h p (hps hp)).1]
  rfl

theorem QuietParams.loopMisfits {params : List Param} (h : QuietParams params) {receiver : Expr}
    (hreceiver : receiver.Printable) : loopMisfits receiver params = [] := by
  have hfirst := h.misfits (List.take_subset 1 params)
  have hsecond := h.misfits (List.Subset.trans (List.take_subset 1 _) (List.drop_subset 1 params))
  rw [Markup.loopMisfits, hfirst, hsecond, hreceiver.codeMisfits]
  rfl

theorem QuietParams.name {params : List Param} {p : Option Param} (h : QuietParams params)
    (hp : ∀ q ∈ p, q ∈ params) : Quiet ((p.bind (·.name)).getD []) := by
  cases hname : p.bind (·.name) with
  | none => exact quiet_of_not_mem nofun
  | some name =>
    obtain ⟨q, hq, hname⟩ := Option.bind_eq_some_iff.1 hname
    exact (h q (hp q hq)).2 name hname

theorem QuietParams.loopItem {params : List Param} (h : QuietParams params) :
    Quiet (loopItem params) := by
  have hname := h.name fun q hq ↦ List.mem_of_head? hq
  rw [Markup.loopItem, orElse]
  split
  · decide
  · exact hname

theorem QuietParams.loopIndex {params : List Param} (h : QuietParams params) :
    ∀ i ∈ loopIndex params, Quiet i := by
  have hname := h.name fun q (hq : params[1]? = some q) ↦ List.mem_of_getElem? hq
  intro i hi
  rw [Markup.loopIndex] at hi
  cases hindex : (params[1]?.bind (·.name)).getD [] with
  | nil =>
    rw [hindex] at hi
    cases hi
  | cons c index =>
    rw [hindex] at hi hname
    cases hi
    exact hname

theorem isLoopNote_loopHead (receiver : Text) (params : List Param) :
    ∀ w ∈ (loopHead receiver params).2.2, isLoopNote w = true := by
  have hnotes : (loopHead receiver params).2.2 = params.head?.elim [] fun p ↦
      if (p.name.getD []).isEmpty then
        ["Destructured loop parameter " ++ p.source ++ " is not supported; bound as '" ++
          loopItem params ++ "'."]
      else [] := by
    unfold loopHead
    cases (params[1]?.bind (·.name)).getD [] <;> cases params <;> rfl
  rw [hnotes]
  cases params.head? with
  | none => exact List.forall_mem_nil _
  | some p =>
    dsimp only [Option.elim_some]
    split
    · exact List.forall_mem_singleton.2 rfl
    · exact List.forall_mem_nil _

end Directives

namespace Rendered.Accounted

variable {r r' : Rendered} {test receiver : Text}

theorem guard (h : r.Accounted) (ht : Quiet test) :
    (r.wrap (codeDirective ("if " ++ test)) endDirective).Accounted :=
  h.wrap (marks_codeDirective (quiet_condition ht)) marks_endDirective

theorem conditional (h : r.Accounted) (h' : r'.Accounted) (ht : Quiet test) :
    (renderConditional test r r').Accounted := by
  have hyes := h.wrap (marks_codeDirective (quiet_condition ht)) .nil
  have helse : Marks (if r'.html.isEmpty then [] else "<% else %>" : Text) [] := by
    split
    · exact .nil
    · exact marks_of_quiet (by decide) (by decide)
  exact (hyes.append (h'.wrap helse .nil)).append (.text marks_endDirective)

theorem loop {params : List Param} (h : r.Accounted) (hreceiver : Quiet receiver)
    (hparams : QuietParams params) :
    ({ warnings := (loopHead receiver params).2.2 } ++
      r.wrap (loopHead receiver params).2.1 endDirective : Rendered).Accounted := by
  have hnotes : Accounted { warnings := (loopHead receiver params).2.2 } := by
    refine ⟨?_, rfl⟩
    have hreasons : (loopHead receiver params).2.2.filter (!isLoopNote ·) = [] := by
      simpa using isLoopNote_loopHead receiver params
    rw [reasons, hreasons]
    exact .nil
  obtain ⟨warnings, heq⟩ := loopHead_eq receiver params
  refine hnotes.append (h.wrap ?_ marks_endDirective)
  rw [heq]
  exact marks_codeDirective (quiet_loopCode hreceiver hparams.loopItem hparams.loopIndex)

/-- The placeholders of the attributes of a tag stand before it. -/
theorem leading {ra : RenderedAttributes} (h : ra.Accounted) :
    Accounted { html := ra.leading, warnings := ra.warnings } := by
  refine ⟨?_, rfl⟩
  have hreasons : ra.warnings.filter (!isLoopNote ·) = ra.warnings := by
    simpa using h.warnings
  rw [reasons, hreasons]
  exact h.leading

theorem element {scope : Scope} {tag : Text} {attributes : List Attribute} (selfClosing : Bool)
    (h : r.Accounted) (htag : Quiet tag) (hhead : (resolveTag tag).1.head? ≠ some '!')
    (ha : ∀ a ∈ attributes, a.Quiet (resolveTag tag).2.isSome) :
    (renderElement scope tag attributes r selfClosing).Accounted := by
  have hnames := htag.resolveTag
  have hattributes := accounted_renderAttributes scope _ ha
  rw [renderElement]
  generalize resolveTag tag = resolved at hnames hhead hattributes
  obtain ⟨html, reference⟩ := resolved
  dsimp only at hnames hhead hattributes ⊢
  generalize renderAttributes scope reference.isSome attributes = ra at hattributes
  have hwritten : Harmless (html ++ (markerAttribute reference ++ ra.parts)) :=
    .append ⟨hnames.1, hhead⟩ ((harmless_marker hnames.2).append hattributes.parts)
  cases selfClosing with
  | true =>
    have htag : Accounted { html := _ } := .text (marks_openTag " />" hwritten (by decide))
    refine ((leading hattributes).append htag).congr ?_ rfl (congrArg (· ++ []) hattributes.misfits)
    change ra.leading ++ "<" ++ html ++ markerAttribute reference ++ ra.parts ++ " />" = _ ++ _
    simp only [List.append_assoc]
  | false =>
    have htag := h.wrap (marks_openTag ">" hwritten (by decide)) (marks_closeTag hnames.1)
    refine ((leading hattributes).append htag).congr ?_ rfl
      (congrArg (· ++ r.misfits) hattributes.misfits)
    change ra.leading ++ "<" ++ html ++ markerAttribute reference ++ ra.parts ++ ">" ++
        r.html ++ _ =
      ra.leading ++ ("<" ++ (html ++ (markerAttribute reference ++ ra.parts)) ++ ">" ++ r.html ++ _)
    simp only [List.append_assoc]

end Rendered.Accounted

def QuietLiteral (e : Expr) (source : Text) : LiteralKind → Prop
  | .null | .undefined | .boolean _ | .string => True
  | .number => '<' ∉ source
  | .template | .regex => e.Printable

mutual

/-- Markup that brings in no `<!` of its own: no text or numeral has a `<`, no code or name a `<!`,
no tag is written with a `!` in front, and every node is of a class that its place admits. -/
def Node.Quiet : Node → Prop
  | .element tag attributes children selfClosing =>
    Markup.Quiet tag ∧ (resolveTag tag).1.head? ≠ some '!' ∧
      (∀ a ∈ attributes, a.Quiet (resolveTag tag).2.isSome) ∧
      (selfClosing = true ∨ QuietNodes children)
  | .fragment children => QuietNodes children
  | .text value => '<' ∉ value
  | .container none => True
  | .container (some e) => e.Quiet
  | .unsupported .. => True
  | .misplaced _ => False

def QuietNodes : List Node → Prop
  | [] => True
  | n :: r => n.Quiet ∧ QuietNodes r

def Expr.Quiet (e : Expr) : Prop :=
  match e with
  | .conditional _ _ test consequent alternate =>
    test.Printable ∧ (consequent.isEmptyBranch = true ∨ consequent.Quiet) ∧
      (alternate.isEmptyBranch = true ∨ alternate.Quiet)
  | .logical _ _ .and left right =>
    left.Printable ∧ (right.isEmptyBranch = true ∨ right.Quiet)
  | .call _ _ _ [.function _ _ params body _] (some ['m', 'a', 'p']) (some receiver) =>
    match body with
    | none => True
    | some b =>
      receiver.Printable ∧ QuietParams params ∧ (b.isEmptyBranch = true ∨ b.Quiet)
  | .markup _ _ node => node.isRoot = true ∧ node.Quiet
  | .literal source _ kind => QuietLiteral e source kind
  | .function .. => True
  | .misplaced _ => False
  | _ => e.Printable

end

theorem accounted_renderLiteral {e : Expr} {source : Text} {kind : LiteralKind} (scope : Scope)
    (h : QuietLiteral e source kind) : (renderLiteral scope e source kind).Accounted := by
  cases kind with
  | string => exact .text (marks_text (not_mem_escape _))
  | number => exact .text (marks_text h)
  | template => exact .text (marks_outputDirective (Expr.Printable.quiet_code h scope))
  | regex => exact .text (marks_outputDirective (Expr.Printable.quiet_code h scope))
  | boolean b => exact .nil
  | null => exact .nil
  | undefined => exact .nil

/-- By induction over nodes, expressions and lists of nodes as the renderer goes through them. -/
theorem accounted_render :
    (∀ scope (n : Node), n.Quiet → (n.render scope).Accounted) ∧
    (∀ scope (e : Expr), e.Quiet → (e.render scope).Accounted) ∧
    (∀ scope ns, QuietNodes ns → (renderNodes scope ns).Accounted) := by
  apply Node.render.mutual_induct
    (fun scope n ↦ n.Quiet → (n.render scope).Accounted)
    (fun scope e ↦ e.Quiet → (e.render scope).Accounted)
    (fun scope ns ↦ QuietNodes ns → (renderNodes scope ns).Accounted)
  -- Expressions, the last case being those that are written as they stand.
  case case1 =>
    intro scope source refs test consequent alternate ihc iha h
    rw [Expr.Quiet] at h
    obtain ⟨htest, hc, ha⟩ := h
    rw [Expr.render]
    have hbranches := Rendered.Accounted.conditional (.branch (hc.imp_right ihc))
      (.branch (ha.imp_right iha)) (htest.quiet_code scope)
    exact hbranches.lacking htest.codeMisfits
  case case2 =>
    intro scope source refs left right ih h
    rw [Expr.Quiet] at h
    rw [Expr.render]
    have hguarded := Rendered.Accounted.guard (.branch (h.2.imp_right ih)) (h.1.quiet_code scope)
    exact hguarded.lacking h.1.codeMisfits
  case case3 =>
    intro scope source refs callee source' refs' params block receiver h
    rw [Expr.render]
    exact .failure rfl
  case case4 =>
    intro scope _ _ _ _ _ params _ receiver b bound head warnings hhead ih h
    rw [Expr.Quiet] at h
    obtain ⟨hreceiver, hparams, hb⟩ := h
    have hloop := Rendered.Accounted.loop (.branch (hb.imp_right ih))
      (hreceiver.quiet_code scope) hparams
    rw [hhead] at hloop
    rw [Expr.render, hhead]
    refine hloop.congr rfl rfl ?_
    rw [hparams.loopMisfits hreceiver]
  case case5 =>
    intro scope source refs node hroot ih h
    rw [Expr.Quiet] at h
    rw [Expr.render, if_pos hroot]
    exact ih h.2
  case case6 =>
    intro scope source refs node hroot h
    rw [Expr.Quiet] at h
    exact absurd h.1 hroot
  case case7 =>
    intro scope source refs kind h
    rw [Expr.Quiet] at h
    rw [Expr.render]
    exact accounted_renderLiteral scope h
  case case8 =>
    intro scope source refs params body block h
    rw [Expr.render]
    exact .failure rfl
  case case9 =>
    intro scope kind h
    rw [Expr.Quiet] at h
    exact h.elim
  case case10 =>
    intro e scope h₁ h₂ h₃ h₄ h₅ h₆ h₇ h
    rw [Expr.Quiet] at h <;> try assumption
    rw [Expr.render] <;> try assumption
    exact .text (marks_outputDirective (h.quiet_code scope))
  -- Nodes, then lists of nodes.
  case case11 =>
    intro scope tag attributes children selfClosing ih h
    rw [Node.Quiet] at h
    obtain ⟨htag, hhead, ha, hchildren⟩ := h
    rw [Node.render]
    refine .element selfClosing ?_ htag hhead ha
    split
    · exact .nil
    next hclosing => exact ih (hchildren.resolve_left hclosing)
  case case12 =>
    intro scope children ih h
    rw [Node.Quiet] at h
    rw [Node.render]
    exact ih h
  case case13 =>
    intro scope value h
    rw [Node.Quiet] at h
    rw [Node.render]
    exact .text (marks_text h)
  case case14 =>
    intro scope h
    rw [Node.render]
    exact .nil
  case case15 =>
    intro scope e ih h
    rw [Node.Quiet] at h
    rw [Node.render]
    exact ih h
  case case16 =>
    intro scope kind source h
    rw [Node.render]
    exact .failure rfl
  case case17 =>
    intro scope kind h
    rw [Node.Quiet] at h
    exact h.elim
  case case18 =>
    intro scope h
    rw [renderNodes]
    exact .nil
  case case19 =>
    intro scope n r ihn ihr h
    rw [QuietNodes] at h
    rw [renderNodes]
    exact (ihn h.1).append (ihr h.2)

/-- A root renders without misfits, the placeholders in what it renders to are the comments of its
reasons, one for one and in order, and so there are as many of them. -/
theorem placeholders_renderRoot (props : List Text) (root : Node) (hroot : root.isRoot = true)
    (h : root.Quiet) :
    ∃ r, renderRoot props root = .ok r ∧
      List.Forall₂ (fun reason e ↦ Placeholder.comment reason <+: e) r.reasons
        (placeholders r.html) ∧
      Placeholder.count r.html = r.reasons.length := by
  have haccounted := accounted_render.1 { props } root h
  obtain ⟨ends, heq, hends⟩ := haccounted.marks []
  have hall : placeholders (root.render { props }).html = ends := by
    rw [List.append_nil] at heq
    exact heq.trans (List.append_nil ends)
  refine ⟨root.render { props }, ?_, ?_, ?_⟩
  · simp only [renderRoot, if_pos hroot, haccounted.misfits]
  · rw [hall]
    exact hends
  · rw [← length_placeholders, hall, hends.length_eq]

/-- A tag that reports two attributes, around a loop with a pattern for a parameter whose body
reports something in either branch. -/
def reportedList : Node :=
  .element "ul"
    [.named "data" (some (.unsupported "jsx--element" [])), .named "className" none,
      .named "style" (some (.expression (some (.other "{ top }" [⟨2, "top", true⟩] "object"))))]
    [.container (some (.call "rows.map(({ id }) => ...)" [⟨0, "rows", false⟩]
        (.member "rows.map" [] (some "rows"))
        [.function "({ id }) => ..." [] [⟨none, "{ id }", none⟩]
          (some (.conditional "id ? ... : ..." [] (.identifier "id" [] "id")
            (.markup "<li>...</li>" [] (.element "li" [] [.unsupported "JSXSpreadChild" []] false))
            (.function "() => '<!-- TODO: -->'" [] [] none none))) none]
        (some ['m', 'a', 'p']) (some (.identifier "rows" [⟨0, "rows", false⟩] "rows"))))] false

theorem quiet_reportedList : reportedList.Quiet := by
  simp only [reportedList, Node.Quiet, QuietNodes, Expr.Quiet, List.forall_mem_cons]
  refine ⟨by decide, by decide,
    ⟨.inr ⟨by decide, ?_⟩, .inr ⟨by decide, ?_⟩, .inr ⟨by decide, ?_⟩, nofun⟩,
    .inr ⟨⟨?_, ?_, .inr ⟨?_, .inr ⟨rfl, by decide, by decide, nofun, .inr ⟨trivial, trivial⟩⟩,
      .inr trivial⟩⟩, trivial⟩⟩
  · rw [if_neg (by decide)]
    rintro _ ⟨⟩
    trivial
  · rw [if_neg (by decide)]
    exact nofun
  · rw [if_neg (by decide)]
    rintro _ ⟨⟩
    exact .inr ⟨by decide, by decide, by decide, trivial⟩
  · exact (by decide : Quiet "rows")
  · exact List.forall_mem_singleton.2 ⟨rfl, nofun⟩
  · exact (by decide : Quiet "id")

theorem placeholders_renderRoot_reportedList :
    (reportedList.isRoot = true ∧ reportedList.Quiet ∧
      ∃ r, renderRoot ["rows", "top"] reportedList = .ok r ∧
        List.Forall₂ (fun reason e ↦ Placeholder.comment reason <+: e) r.reasons
          (placeholders r.html) ∧
        Placeholder.count r.html = r.reasons.length) ∧
    (reportedList.render { props := ["rows", "top"] }).warnings.length = 5 ∧
    (reportedList.render { props := ["rows", "top"] }).reasons.length = 4 := by
  refine ⟨⟨rfl, quiet_reportedList, ?_⟩, by decide +kernel, by decide +kernel⟩
  exact placeholders_renderRoot _ reportedList rfl quiet_reportedList

def Unaccounted (props : List Text) (root : Node) : Prop :=
  ∃ r, renderRoot props root = .ok r ∧ r.reasons.length < Placeholder.count r.html

/-- It takes more than sources, tags and names without `<!`: a tag can begin with `!`, a variable
can be called otherwise than its source, and a reference can have a name that does not stand at
its place or stand before another that was written already. -/
theorem unaccounted_of_quiet :
    (Quiet "!-- TODO: x --" ∧ Unaccounted [] (.element "!-- TODO: x --" [] [] false)) ∧
    (Quiet "x" ∧ Unaccounted []
      (.fragment [.container (some (.identifier "x" [⟨0, "x", false⟩] "<!-- TODO: x -->"))])) ∧
    (Quiet "a<" ∧ Unaccounted ["!-- TODO: x -->"]
      (.fragment [.container (some (.other "a<" [⟨2, "!-- TODO: x -->", true⟩] "object"))])) ∧
    (Quiet "!-- TODO: x --> <" ∧ Unaccounted ["<", "!-- TODO: x -->"]
      (.fragment [.container (some (.other "!-- TODO: x --> <"
        [⟨16, "<", false⟩, ⟨0, "!-- TODO: x -->", true⟩] "object"))])) := by
  refine ⟨⟨by decide, _, rfl, ?_⟩, ⟨by decide, _, rfl, ?_⟩, ⟨by decide, _, rfl, ?_⟩,
    ⟨by decide, _, rfl, ?_⟩⟩
  all_goals decide +kernel

end ViewForge.Markup
