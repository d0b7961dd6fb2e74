import ViewForge.Component.Build
import ViewForge.Controller
import ViewForge.Proofs.Markup.Bindings

namespace ViewForge

/-- What a step for `a` brings about, and every step keeps, holds after a run that comes by `a`. -/
theorem foldl_of_mem {α σ : Type} {step : σ → α → σ} {P : σ → Prop} {a : α}
    (hkeep : ∀ s e, P s → P (step s e)) (hadd : ∀ s, P (step s a)) {l : List α} {s : σ}
    (h : P s ∨ a ∈ l) : P (l.foldl step s) := by
  induction l generalizing s with
  | nil => exact h.resolve_right List.not_mem_nil
  | cons e l ih =>
    refine ih ?_
    rcases h with h | h
    · exact .inl (hkeep s e h)
    · rcases List.mem_cons.1 h with rfl | h
      · exact .inl (hadd s)
      · exact .inr h

end ViewForge

namespace ViewForge.Controller

open Text Markup

def StandsIn (ls : List Text) (file : Text) : Prop := '\n' :: unlines ls ++ ['\n'] <:+: file

/-- The method that a handler is given, without its comments. -/
def handlerStub (handler : Text) : List Text :=
  [opening (handler ++ "(event)"), "    // TODO: port the handler logic", "  \x7d"]

theorem unlines_append {a b : List Text} (ha : a ≠ []) (hb : b ≠ []) :
    unlines (a ++ b) = unlines a ++ '\n' :: unlines b := by
  induction a with
  | nil => exact absurd rfl ha
  | cons l a ih =>
    obtain ⟨m, b, rfl⟩ := List.exists_cons_of_ne_nil hb
    cases a with
    | nil => simp [unlines, join, List.intercalate]
    | cons k a =>
      have hstep (r : List Text) : unlines (l :: k :: r) = l ++ '\n' :: unlines (k :: r) := by
        simp [unlines, join, List.intercalate]
      have happend := ih (List.cons_ne_nil k a)
      rw [List.cons_append] at happend
      rw [List.cons_append, List.cons_append, hstep, happend, hstep, List.append_assoc]
      rfl

theorem standsIn_unlines {a b c : List Text} (ha : a ≠ []) (hb : b ≠ []) (hc : c ≠ []) (r : Text) :
    StandsIn b (unlines (a ++ b ++ c) ++ r) := by
  refine ⟨unlines a, unlines c ++ r, ?_⟩
  rw [unlines_append (by simp [ha]) hc, unlines_append ha hb]
  simp

theorem separated_of_mem {g : List Text} {gs : List (List Text)} (h : g ∈ gs) :
    ∃ before after, separated gs = before ++ g ++ after := by
  fun_induction separated gs with
  | case1 => cases h
  | case2 g' =>
    cases List.mem_singleton.1 h
    exact ⟨[], [], (List.append_nil _).symm⟩
  | case3 g' gs _ ih =>
    rcases List.mem_cons.1 h with rfl | h
    · exact ⟨[], _, rfl⟩
    · obtain ⟨before, after, heq⟩ := ih h
      exact ⟨g' ++ [] :: before, after, by simp [heq]⟩

def header (c : Component) : List Text :=
  ["import \x7b Controller \x7d from \"@hotwired/stimulus\"", [],
   "// Connects to data-controller=\"" ++ c.controllerIdentifier ++ "\"",
   "export default class extends Controller \x7b"]

theorem file_eq (c : Component) :
    file c = unlines (header c ++ separated (methods c) ++ [['}']]) ++ "\n" := rfl

theorem standsIn_header (c : Component) :
    StandsIn ["// Connects to data-controller=\"" ++ c.controllerIdentifier ++ "\""] (file c) := by
  have hlines (l₁ l₂ l₃ l₄ : Text) (ls : List Text) :
      [l₁, l₂, l₃, l₄] ++ ls ++ [['}']] = [l₁, l₂] ++ [l₃] ++ (l₄ :: ls ++ [['}']]) := rfl
  rw [file_eq, header, hlines]
  exact standsIn_unlines (List.cons_ne_nil _ _) (List.cons_ne_nil _ _) (List.cons_ne_nil _ _) _

theorem standsIn_handlerStub {c : Component} {handler : Text} {group : List EventBinding}
    (h : (handler, group) ∈ handlers c.events) : StandsIn (handlerStub handler) (file c) := by
  have hmethod : handlerMethod c.controllerIdentifier handler group ∈ methods c := by
    rw [methods]
    exact List.mem_append.2 (.inl (List.mem_append.2 (.inr (List.mem_map.2 ⟨_, h, rfl⟩))))
  obtain ⟨before, after, heq⟩ := separated_of_mem hmethod
  obtain ⟨comments, hcomments⟩ : ∃ comments,
      handlerMethod c.controllerIdentifier handler group = comments ++ handlerStub handler :=
    ⟨_, rfl⟩
  have hlines : header c ++ separated (methods c) ++ [['}']] =
      header c ++ before ++ comments ++ handlerStub handler ++ (after ++ [['}']]) := by
    rw [heq, hcomments]
    simp only [List.append_assoc]
  rw [file_eq, hlines]
  exact standsIn_unlines (by simp [header]) (List.cons_ne_nil _ _) (by simp) _

/-- Grouping the bindings by handler loses no handler. -/
theorem mem_handlers {b : EventBinding} {events : List EventBinding} (h : b ∈ events) :
    b.handler ∈ (handlers events).map Prod.fst := by
  have hnames (groups : List (Text × List EventBinding))
      {f : Text × List EventBinding → Text × List EventBinding} (hf : ∀ g, (f g).1 = g.1) :
      (groups.map f).map Prod.fst = groups.map Prod.fst := by
    rw [List.map_map]
    exact List.map_congr_left fun g _ ↦ hf g
  refine foldl_of_mem (P := fun groups : List (Text × List EventBinding) ↦
    b.handler ∈ groups.map Prod.fst) (fun groups e hgroups ↦ ?_) (fun groups ↦ ?_) (.inr h)
  · split
    · rwa [hnames groups fun g ↦ by dsimp only; split <;> rfl]
    · rw [List.map_append]
      exact List.mem_append_left _ hgroups
  · split
    next hseen =>
      obtain ⟨g, hg, heq⟩ := List.any_eq_true.1 hseen
      rw [hnames groups fun g ↦ by dsimp only; split <;> rfl, ← beq_iff_eq.1 heq]
      exact List.mem_map_of_mem hg
    next =>
      rw [List.map_append]
      exact List.mem_append_right _ List.mem_cons_self

theorem exists_mem_handlers {b : EventBinding} {events : List EventBinding} (h : b ∈ events) :
    ∃ group, (b.handler, group) ∈ handlers events := by
  obtain ⟨⟨handler, group⟩, hmem, heq⟩ := List.mem_map.1 (mem_handlers h)
  exact ⟨group, heq ▸ hmem⟩

end ViewForge.Controller

namespace ViewForge

open Text Erb Markup Template

/-- Of the bindings of one handler to one event the first is kept. -/
theorem exists_mem_normalizeEvents {b : EventBinding} {events : List EventBinding}
    (h : b ∈ events) :
    ∃ e ∈ normalizeEvents events, e.event = b.event ∧ e.handler = b.handler := by
  refine foldl_of_mem (P := fun seen : List EventBinding ↦
      ∃ e ∈ seen, e.event = b.event ∧ e.handler = b.handler)
    (fun seen e ↦ ?_) (fun seen ↦ ?_) (.inr h)
  · rintro ⟨s, hs, heq⟩
    split
    · exact ⟨s, hs, heq⟩
    · exact ⟨s, List.mem_append_left _ hs, heq⟩
  · split
    next hseen =>
      obtain ⟨s, hs, heq⟩ := List.any_eq_true.1 hseen
      rw [Bool.and_eq_true, beq_iff_eq, beq_iff_eq] at heq
      exact ⟨s, hs, heq⟩
    next => exact ⟨b, List.mem_append_right _ List.mem_cons_self, rfl, rfl⟩

/-- The bindings that the template of a definition is written with, tag by tag. -/
def Definition.actionGroups (d : Definition) : List (List EventBinding) :=
  ((d.roots.head?.toList.flatMap fun root ↦ shown root.fates).map Element.bindings).filter
    (!·.isEmpty)

/-- Definitions whose events are those of their markup, and whose template is cut up as it is put
together and has no actions but these. -/
structure Definition.Wired (d : Definition) : Prop where
  events : d.events = eventBindings (d.roots.flatMap Node.elements)
  root : ∀ root ∈ d.roots.head?, root.isRoot = true ∧
    root.Lexable { props := (normalizeProps d.props).map (·.name) }
  attributes : ∀ e ∈ d.roots.flatMap Node.elements, ∀ a ∈ e.attributes,
    a.spelling? (resolveTag e.tag).2.isSome ≠ some "data-action"
  handlers : ∀ b ∈ d.events, b.handler.all isHandlerPart = true
  name : isQuotable d.name = true

section Template

theorem renderRoot_of_lexable {props : List Text} {root : Node} (hroot : root.isRoot = true)
    (h : root.Lexable { props }) : renderRoot props root = .ok (root.render { props }) := by
  simp only [renderRoot, if_pos hroot, (draws_render.1 _ root h).misfits]

/-- The template of a definition is what its root renders to, or the placeholder that stands for a
root that shows nothing. -/
theorem html_renderDefinition {props : List Text} {root? : Option Node}
    (h : ∀ root ∈ root?, root.isRoot = true ∧ root.Lexable { props }) :
    (∃ root, root? = some root ∧
      (renderDefinition props root?).html = (root.render { props }).html) ∨
    ∃ reason, CleanReason reason ∧
      (renderDefinition props root?).html = Placeholder.wholeTemplate reason ∧
      ∀ root ∈ root?, isBlankText (root.render { props }).html = true := by
  cases root? with
  | none =>
    exact .inr ⟨_, (by decide : ¬("---" : Text) <:+: noMarkupWarning), rfl, nofun⟩
  | some root =>
    obtain ⟨hroot, hlexable⟩ := h root rfl
    rw [renderDefinition, renderRoot_of_lexable hroot hlexable]
    dsimp only
    split
    next hblank =>
      refine .inr ⟨_, (by decide : ¬("---" : Text) <:+: emptyMarkupWarning), rfl, ?_⟩
      rintro _ ⟨⟩
      exact hblank
    next => exact .inl ⟨root, rfl, rfl⟩

theorem binds_wholeTemplate {reason : Text} (h : CleanReason reason) :
    Binds (Placeholder.wholeTemplate reason) [[]] := by
  have hdiv : Bears { name := "div" } [] := 
    ⟨by decide, rfl, ⟨[], rfl, List.forall_mem_nil _⟩, List.forall_mem_nil _⟩
  refine ⟨[⟨.openTag, "<div>"⟩, placeholderToken reason, closeToken "div"], ?_, ?_, ?_⟩
  · have hshape : Placeholder.wholeTemplate reason =
        "<div>" ++ Placeholder.comment reason ++ "</div>" := rfl
    rw [hshape]
    simp [render, placeholderToken, closeToken]
  · simp only [List.forall_mem_cons]
    exact ⟨hdiv.carries.loose, clean_placeholder h, .closeTag "div" (by decide),
      List.forall_mem_nil _⟩
  · exact .cons hdiv.carries .nil

/-- A template of nothing but white space has no tags. -/
theorem eq_nil_of_isBlankText {template : Text} {wss : List (List Text)} (h : Binds template wss)
    (hblank : isBlankText template = true) : wss = [] := by
  obtain ⟨ts, rfl, -, hcarries⟩ := h
  cases hfilter : ts.filter isOpenTag with
  | nil =>
    rw [hfilter] at hcarries
    exact List.forall₂_nil_right_iff.1 hcarries
  | cons k ks =>
    rw [hfilter] at hcarries
    obtain ⟨ws, -, ⟨tag, -, -, htext⟩, -, -⟩ := List.forall₂_cons_right_iff.1 hcarries
    have hk : k ∈ ts := List.mem_of_mem_filter (hfilter ▸ List.mem_cons_self)
    have hmem : '<' ∈ render ts := List.mem_flatMap.2 ⟨k, hk, htext.lt_mem⟩
    exact absurd (List.all_eq_true.1 hblank _ hmem) (by decide)

theorem mem_elements_of_mem_shown {root : Markup.Node} {e : Element} (h : e ∈ shown root.fates) :
    e ∈ root.elements := by
  obtain ⟨f, hf, rfl⟩ := List.mem_map.1 h
  rw [← map_fst_fates.1 root]
  exact List.mem_map_of_mem (List.mem_of_mem_filter hf)

variable {scope : Scope} {root : Markup.Node} (h : root.Lexable scope)

include h

theorem exists_lexable_of_mem_shown {e : Element} (he : e ∈ shown root.fates) :
    ∃ scope, e.Lexable scope := by
  have hboth : List.Forall₂ (fun e k ↦ (∃ scope, Element.Lexable scope e) ∧ Opens e k)
      (shown root.fates) (openTags (root.blocks scope)) :=
    (forall₂_opens.1 scope root h).imp fun e k hopens ↦
      ⟨⟨hopens.choose, hopens.choose_spec.1⟩, hopens⟩
  exact ((List.forall₂_and_left _ _).1 hboth).1 e he

/-- The tags of a rendered tree carry the bindings of their elements. -/
theorem binds_render (hne : ∀ e ∈ root.elements, ∀ a ∈ e.attributes,
      a.spelling? (resolveTag e.tag).2.isSome ≠ some "data-action") :
    Binds (root.render scope).html
      (((shown root.fates).map Element.bindings).map (·.map EventBinding.written)) := by
  have hdraws := draws_render.1 scope root h
  refine ⟨_, hdraws.html, loose_blocksTokens fun b hb ↦ (hdraws.clean b hb).loose, ?_⟩
  rw [List.map_map, List.forall₂_map_left_iff]
  have hplain : ∀ e ∈ shown root.fates, ∀ a ∈ e.attributes,
      a.spelling? (resolveTag e.tag).2.isSome ≠ some "data-action" :=
    fun e he ↦ hne e (mem_elements_of_mem_shown he)
  refine ((List.forall₂_and_left _ _).2 ⟨hplain, forall₂_opens.1 scope root h⟩).imp ?_
  rintro e k ⟨hplain, scope', hlexable, rfl⟩
  exact carries_token hlexable hplain

end Template

namespace Definition.Wired

variable {d : Definition} (h : d.Wired)

include h

theorem legible {g : List EventBinding} {b : EventBinding} (hg : g ∈ d.actionGroups)
    (hb : b ∈ g) : b.Legible ∧ b ∈ d.events := by
  obtain ⟨e, he, rfl⟩ := List.mem_map.1 (List.mem_of_mem_filter hg)
  obtain ⟨root, hroot, he⟩ := List.mem_flatMap.1 he
  have hhead : root ∈ d.roots.head? := Option.mem_toList.1 hroot
  obtain ⟨scope, hlexable⟩ := exists_lexable_of_mem_shown (h.root root hhead).2 he
  have hevents : b ∈ d.events := by
    have helement : e ∈ d.roots.flatMap Node.elements :=
      List.mem_flatMap.2 ⟨root, List.mem_of_mem_head? hhead, mem_elements_of_mem_shown he⟩
    rw [h.events]
    refine List.mem_flatMap.2 ⟨e, helement, ?_⟩
    rw [Element.bindings] at hb
    split at hb
    · cases hb
    · exact hb
  exact ⟨⟨hlexable.event hb, h.handlers b hevents⟩, hevents⟩

/-- Whatever becomes of the markup, the template has the tags of the first root that is shown, or
one tag that carries nothing. -/
theorem exists_binds (withSlots : Bool) :
    ∃ gs : List (List EventBinding), gs.filter (!·.isEmpty) = d.actionGroups ∧
      Binds (Component.ofDefinition withSlots d).html (gs.map (·.map EventBinding.written)) := by
  have hbinds (root : Markup.Node) (hroot : root ∈ d.roots.head?) :=
    binds_render (h.root root hroot).2 fun e he ↦
      h.attributes e (List.mem_flatMap.2 ⟨root, List.mem_of_mem_head? hroot, he⟩)
  change ∃ gs : List (List EventBinding), _ ∧ Binds (renderDefinition _ d.roots.head?).html _
  rcases html_renderDefinition h.root with ⟨root, hroot, hhtml⟩ | ⟨reason, hreason, hhtml, hblank⟩
  · refine ⟨_, ?_, hhtml ▸ hbinds root hroot⟩
    rw [Definition.actionGroups, hroot, Option.toList_some, List.flatMap_singleton]
  · refine ⟨[[]], ?_, hhtml ▸ binds_wholeTemplate hreason⟩
    rw [Definition.actionGroups]
    cases hroot : d.roots.head? with
    | none => rfl
    | some root =>
      have hnone := eq_nil_of_isBlankText (hbinds root hroot) (hblank root hroot)
      rw [Option.toList_some, List.flatMap_singleton, List.map_eq_nil_iff.1 hnone]
      rfl

end Definition.Wired

theorem map_join_filter (f : EventBinding → Text) (gs : List (List EventBinding)) :
    ((gs.map (·.map f)).filter (!·.isEmpty)).map (join " ") =
      (gs.filter (!·.isEmpty)).map fun g ↦ join " " (g.map f) := by
  have hempty : (fun ws : List Text ↦ !ws.isEmpty) ∘ (fun g : List EventBinding ↦ g.map f) =
      fun g ↦ !g.isEmpty := funext fun g ↦ by rw [Function.comp_apply, List.isEmpty_map]
  rw [List.filter_map, hempty, List.map_map]
  rfl

/-- A template with legible bindings has the same ones, with the controller's name, once it is
bound. -/
theorem binds_qualified {c : Component} {template : Text} {gs : List (List EventBinding)}
    (hid : isQuotable c.controllerIdentifier = true) (hlegible : ∀ g ∈ gs, ∀ b ∈ g, b.Legible)
    (h : Binds template (gs.map (·.map EventBinding.written))) :
    Binds (bindController c template)
      (gs.map (·.map (EventBinding.qualified c.controllerIdentifier))) := by
  have hwords : ∀ ws ∈ gs.map (·.map EventBinding.written), ∀ w ∈ ws, IsWord w := by
    simp only [List.forall_mem_map]
    exact fun g hg b hb ↦ (hlegible g hg b hb).isWord
  have hqualified : (gs.map (·.map EventBinding.written)).map
      (·.map (qualify c.controllerIdentifier)) =
        gs.map (·.map (EventBinding.qualified c.controllerIdentifier)) := by
    rw [List.map_map]
    refine List.map_congr_left fun g hg ↦ ?_
    rw [Function.comp_apply, List.map_map]
    exact List.map_congr_left fun b hb ↦ (hlegible g hg b hb).qualify_eq _
  rw [← hqualified]
  exact h.bindController hid hwords

/-- A list that is bound twice, with items that are bound in a loop and a component that binds an
event of its own. -/
def todoItems : Markup.Node :=
  .element "ul"
    [.named "onClick" (some (.expression (some (.identifier "select" [] "select")))),
      .named "onKeyDown" (some (.expression (some (.function [] [] [⟨some "e", "e", none⟩]
        (some (.call [] [] (.member "this.move" [] (some "this")) [] (some "move") none)) none))))]
    [.container (some (.call [] [] (.member "items.map" [] (some "items"))
        [.function [] [] [⟨some "item", "item", none⟩]
          (some (.markup [] [] (.element "li"
            [.named "onClick" (some (.expression (some (.identifier "select" [] "select"))))]
            [.text "one"] false))) none]
        (some ['m', 'a', 'p']) (some (.identifier "items" [] "items")))),
      .element "Footer" [.named "onClose" (some (.string "hide"))] [] true] false

def todoList : Definition where
  name := "TodoList"
  props := [{ name := "items" }]
  roots := [todoItems]
  events :=
    [{ event := "click", handler := "select" },
      { event := "keydown", handler := "move", params := [("e" : Text)] },
      { event := "click", handler := "select" }, { event := "close", handler := "hide" }]

theorem wired_todoList : todoList.Wired where
  events := by decide
  root := by
    rintro _ ⟨⟩
    refine ⟨rfl, ?_⟩
    have hbound (scope : Scope) (name : Text) (value : Option Value)
        (hname : isMarkupName name = true) (hevent : isEventName name = true)
        (hhandler : isQuotable (resolveHandler name value).1 = true ∧ handlerMisfits value = []) :
        Attribute.Lexable scope false (.named name value) := by
      refine .inr ⟨hname, ?_⟩
      rw [hevent]
      exact hhandler
    simp only [todoItems, Node.Lexable, LexableNodes, Expr.Lexable, List.forall_mem_cons]
    refine ⟨by decide, ⟨?_, ?_, List.forall_mem_nil _⟩, .inr ⟨⟨rfl, ⟨by decide, by decide⟩, by decide,
      ?_, .inr ⟨rfl, by decide, ⟨?_, List.forall_mem_nil _⟩, .inr ⟨by decide, trivial⟩⟩⟩,
      ⟨by decide, ⟨?_, List.forall_mem_nil _⟩, .inl trivial⟩, trivial⟩⟩
    · exact hbound _ _ _ (by decide) (by decide) ⟨by decide, rfl⟩
    · exact hbound _ _ _ (by decide) (by decide) ⟨by decide, rfl⟩
    · rintro _ ⟨⟩
    · exact hbound _ _ _ (by decide) (by decide) ⟨by decide, rfl⟩
    · refine .inr ⟨by decide, ?_⟩
      rw [if_neg (by decide)]
      rintro _ ⟨⟩
      trivial
  attributes := by decide +kernel
  handlers := by decide
  name := by decide

end ViewForge
