import ViewForge.Proofs.Erb.LayoutContent
import ViewForge.Proofs.Template.Wiring
import ViewForge.Ruby.Class
import ViewForge.Template.Basic

namespace ViewForge.Template

open Text Erb Markup

def mentions (p : Text) : Text → Bool
  | [] => false
  | c :: r =>
    (c == '@' && p.isPrefixOf r && !(r.drop p.length).head?.any isWord) || mentions p r

def tokenCodes (k : Token) : List Text :=
  match k.kind with
  | .output | .code => [k.code]
  | .openTag => directiveBodies k.text
  | _ => []

def refersTo (p : Text) (k : Token) : Bool := (tokenCodes k).any (mentions p)

def shows (p : Text) (k : Token) : Bool := k.kind == .output && k.code == '@' :: p

section Mentions

variable {p q : Text}

theorem mentions_of_not_mem (p : Text) {code : Text} (h : '@' ∉ code) :
    mentions p code = false := by
  induction code with
  | nil => rfl
  | cons c r ih =>
    rw [List.mem_cons, not_or] at h
    rw [mentions, beq_eq_false_iff_ne.2 (Ne.symm h.1), ih h.2]
    rfl

/-- A variable mentions no other prop, also not one whose name it begins with. -/
theorem eq_of_mentions (hq : q.all isWord = true) (h : mentions p ('@' :: q) = true) : p = q := by
  have hat : '@' ∉ q := fun hmem ↦ absurd (List.all_eq_true.1 hq _ hmem) (by decide)
  rw [mentions, mentions_of_not_mem p hat, Bool.or_false, beq_self_eq_true, Bool.true_and,
    Bool.and_eq_true, List.isPrefixOf_iff_prefix] at h
  obtain ⟨⟨r, rfl⟩, hnext⟩ := h
  rw [List.drop_left] at hnext
  cases r with
  | nil => exact (List.append_nil p).symm
  | cons c r =>
    have hc : isWord c = true := List.all_eq_true.1 hq c (by simp)
    rw [List.head?_cons, Option.any_some, hc] at hnext
    cases hnext

theorem mem_text_of_mem_code {k : Token} {c : Char} (h : c ∈ k.code) : c ∈ k.text := by
  have hstrip {t : Text} (hc : c ∈ strip t) : c ∈ t :=
    (List.dropWhile_sublist _).mem ((trimRight_isInfix _).subset hc)
  have htrimmed {t : Text} (hc : c ∈ if endsWith t "-" then t.dropLast else t) : c ∈ t := by
    split at hc
    · exact List.mem_of_mem_dropLast hc
    · exact hc
  have hbody := htrimmed (hstrip h)
  split at hbody
  -- The marker after the opening delimiter is no part of the code.
  case' h_1 _ _ heq | h_2 _ _ heq | h_3 _ _ heq =>
    have hinner := heq ▸ List.mem_cons_of_mem _ hbody
  case' h_4 => have hinner := hbody
  all_goals exact List.mem_of_mem_drop (List.mem_of_mem_take hinner)

theorem refersTo_of_not_mem (p : Text) {k : Token} (hkind : k.kind = .output ∨ k.kind = .code)
    (h : '@' ∉ k.text) : refersTo p k = false := by
  have hcodes : tokenCodes k = [k.code] := by
    rw [tokenCodes]
    rcases hkind with hkind | hkind <;> rw [hkind]
  have hcode : '@' ∉ k.code := fun hmem ↦ h (mem_text_of_mem_code hmem)
  rw [refersTo, hcodes, List.any_cons, mentions_of_not_mem p hcode]
  rfl

end Mentions

def slotItem (s : Slot) : Text :=
  if endsWith s.name "s" && 1 < s.name.length then s.name.dropLast else "item"

def slotTokens (s : Slot) : List Token :=
  match s.kind with
  | .one => [outputToken (s.name ++ " if " ++ s.name ++ "?")]
  | .many =>
    [codeToken (loopCode s.name (slotItem s) none), outputToken (slotItem s), codeToken "end"]

theorem render_slotTokens (s : Slot) : render (slotTokens s) = (slotToken s).text := by
  rw [slotTokens, slotToken]
  cases s.kind with
  | one => simp [render, outputToken, outputDirective]
  | many =>
    simp [render, outputToken, outputDirective, codeToken, codeDirective, loopCode, slotItem]

section SlotTokens

variable {s : Slot} (h : s.name.all isWord = true)

include h

theorem isVariable_name : isVariable s.name = true :=
  List.all_eq_true.2 fun c hc ↦ by rw [isNamePart, List.all_eq_true.1 h c hc]; rfl

theorem isVariable_slotItem : isVariable (slotItem s) = true := by
  rw [slotItem]
  split
  · exact List.all_eq_true.2 fun c hc ↦
      List.all_eq_true.1 (isVariable_name h) c (List.mem_of_mem_dropLast hc)
  · decide

theorem loose_slotTokens : ∀ k ∈ slotTokens s, k.Loose := by
  have hname := cleanCode_of_isVariable (isVariable_name h)
  have hitem := isVariable_slotItem h
  rw [slotTokens]
  cases s.kind with
  | one =>
    have hcode : CleanCode (s.name ++ " if " ++ s.name ++ "?") := by
      have hlast := hname.append_inert (c := '?') (p := []) (by decide) (by decide) rfl
      have hcond := (cleanCode_condition hlast).cons (c := ' ') (by decide) (by decide)
      have hall := hcond.inert_append (all_isInert_of_isVariable (isVariable_name h))
      simpa using hall
    exact List.forall_mem_singleton.2 (.directive (cleanDirective_output hcode))
  | many =>
    simp only [List.forall_mem_cons]
    exact ⟨clean_codeToken (cleanCode_loopCode hname hitem nofun),
      .directive (cleanDirective_output (cleanCode_of_isVariable hitem)), loose_end,
      List.forall_mem_nil _⟩

theorem refersTo_slotTokens (p : Text) : ∀ k ∈ slotTokens s, refersTo p k = false := by
  have hname : '@' ∉ s.name := not_mem_of_isVariable (isVariable_name h) (by decide)
  have hitem : '@' ∉ slotItem s := not_mem_of_isVariable (isVariable_slotItem h) (by decide)
  rw [slotTokens]
  cases s.kind with
  | one =>
    refine List.forall_mem_singleton.2 (refersTo_of_not_mem p (.inl rfl) ?_)
    simp [outputToken, outputDirective, hname]
  | many =>
    simp only [List.forall_mem_cons]
    refine ⟨refersTo_of_not_mem p (.inr rfl) ?_, refersTo_of_not_mem p (.inl rfl) ?_,
      refersTo_of_not_mem p (.inr rfl) (by decide), List.forall_mem_nil _⟩
    · simp [codeToken, codeDirective, loopCode, hname, hitem]
    · simp [outputToken, outputDirective, hitem]

end SlotTokens

/-- The tokens that stand in a template for one of them once its slots are shown. -/
def slotted (slots : List Slot) (k : Token) : List Token :=
  if k.kind == .output then ((slotFor? slots k.code).map slotTokens).getD [k] else [k]

theorem renderSlots_eq (c : Component) (template : Text) :
    renderSlots c template = render ((tokenize template).flatMap (slotted c.slots)) := by
  rw [renderSlots, render, render, List.flatMap_map, List.flatMap_assoc]
  congr 1
  funext k
  rw [slotted]
  split
  · cases slotFor? c.slots k.code with
    | none => exact (List.append_nil _).symm
    | some s => exact (render_slotTokens s).symm
  · exact (List.append_nil _).symm

section Slotted

variable {slots : List Slot}

theorem slotted_cases (slots : List Slot) (k : Token) :
    (∃ s ∈ slots, shows s.prop k = true ∧ slotted slots k = slotTokens s) ∨
    (∀ s ∈ slots, shows s.prop k = false) ∧ slotted slots k = [k] := by
  by_cases hkind : k.kind = .output
  · cases hfind : slotFor? slots k.code with
    | none =>
      refine .inr ⟨fun s hs ↦ ?_, by simp [slotted, hkind, hfind]⟩
      have hne := List.find?_eq_none.1 hfind s (List.mem_reverse.2 hs)
      have hcode : k.code ≠ '@' :: s.prop := fun heq ↦ hne (beq_iff_eq.2 heq.symm)
      rw [shows, beq_eq_false_iff_ne.2 hcode, Bool.and_false]
    | some s =>
      have hslotted : slotted slots k = slotTokens s := by simp [slotted, hkind, hfind]
      have hmem := List.mem_reverse.1 (List.mem_of_find?_eq_some hfind)
      have hcode : '@' :: s.prop = k.code := by
        have hfound := List.find?_some hfind
        exact beq_iff_eq.1 hfound
      exact .inl ⟨s, hmem, by simp [shows, hkind, ← hcode], hslotted⟩
  · exact .inr ⟨fun s _ ↦ by simp [shows, hkind], by simp [slotted, hkind]⟩

variable (h : ∀ s ∈ slots, s.name.all isWord = true ∧ s.prop.all isWord = true)

include h

theorem loose_slotted {k : Token} (hk : k.Loose) : ∀ j ∈ slotted slots k, j.Loose := by
  rcases slotted_cases slots k with ⟨s, hs, -, heq⟩ | ⟨-, heq⟩
  · rw [heq]
    exact loose_slotTokens (h s hs).1
  · rw [heq]
    exact List.forall_mem_singleton.2 hk

/-- Of the tokens that refer to a slotted prop those that show it go, and no other. -/
theorem filter_slotted {s : Slot} (hs : s ∈ slots) (k : Token) :
    (slotted slots k).filter (refersTo s.prop) =
      [k].filter fun k ↦ refersTo s.prop k && !shows s.prop k := by
  rcases slotted_cases slots k with ⟨s', hs', hshows, heq⟩ | ⟨hshows, heq⟩
  · have hnone : (slotTokens s').filter (refersTo s.prop) = [] :=
      List.filter_eq_nil_iff.2 fun j hj ↦ by simp [refersTo_slotTokens (h s' hs').1 s.prop j hj]
    have hdropped : (refersTo s.prop k && !shows s.prop k) = false := by
      rw [shows, Bool.and_eq_true, beq_iff_eq, beq_iff_eq] at hshows
      cases hrefers : refersTo s.prop k with
      | false => rfl
      | true =>
        have hmentions : mentions s.prop ('@' :: s'.prop) = true := by
          simpa [refersTo, tokenCodes, hshows] using hrefers
        simp [shows, hshows, eq_of_mentions (h s' hs').2 hmentions]
    rw [heq, hnone, List.filter_cons, hdropped]
    rfl
  · rw [heq, List.filter_cons, List.filter_cons, hshows s hs, Bool.not_false, Bool.and_true]
    rfl

/-- What still refers to a slotted prop once the slots are shown. -/
theorem filter_refersTo_renderSlots {c : Component} {template : Text} (hc : c.slots = slots)
    (htokens : ∀ k ∈ tokenize template, k.Loose) {s : Slot} (hs : s ∈ slots) :
    (tokenize (renderSlots c template)).filter (refersTo s.prop) =
      (tokenize template).filter fun k ↦ refersTo s.prop k && !shows s.prop k := by
  have hloose : ∀ j ∈ (tokenize template).flatMap (slotted slots), j.Loose := by
    intro j hj
    obtain ⟨k, hk, hj⟩ := List.mem_flatMap.1 hj
    exact loose_slotted h (htokens k hk) j hj
  rw [renderSlots_eq, hc, tokenize_render_of_loose hloose, joinTexts_filter fun _ ↦ rfl,
    List.filter_flatMap]
  induction tokenize template with
  | nil => rfl
  | cons k ts ih =>
    rw [List.flatMap_cons, filter_slotted h hs, ih, ← List.filter_append]
    rfl

end Slotted

end ViewForge.Template

namespace ViewForge

open Text Erb Markup Template

theorem mem_detectSlots {props : List Property} {root : Markup.Node} {s : Slot}
    (h : s ∈ detectSlots props root) :
    s.name = s.prop ∧ s.prop ∈ singleSlotNames ++ multiSlotNames := by
  obtain ⟨p, -, hp⟩ := List.mem_filterMap.1 h
  split at hp
  · cases hp
  · split at hp
    next hsingle =>
      cases hp
      exact ⟨rfl, List.mem_append_left _ (List.contains_iff_mem.1 hsingle)⟩
    next =>
      split at hp
      next hmulti =>
        cases hp
        exact ⟨rfl, List.mem_append_right _ (List.contains_iff_mem.1 hmulti)⟩
      next => cases hp

theorem slotNames_spec : ∀ n ∈ singleSlotNames ++ multiSlotNames,
    n.all isWord = true ∧ n ∉ [("variant" : Text), "size", "color", "html_class"] := by
  decide +kernel

theorem mem_slots {d : Definition} {s : Slot} (h : s ∈ (Component.ofDefinition true d).slots) :
    s.name = s.prop ∧ s.prop ∈ singleSlotNames ++ multiSlotNames := by
  change s ∈ (d.roots.head?.map (detectSlots (normalizeProps d.props))).getD [] at h
  cases hroot : d.roots.head? with
  | none =>
    rw [hroot] at h
    cases h
  | some root =>
    rw [hroot] at h
    exact mem_detectSlots h

theorem shapeParameters_subset (c : Component) :
    c.shapeParameters ⊆ [("variant" : Text), "size", "color", "html_class"] := by
  rw [Component.shapeParameters]
  split
  · decide
  · split <;> decide

/-- The constructor stores no prop that a slot has taken the place of. -/
theorem not_mem_storedNames {c : Component} {s : Slot} (hs : s ∈ c.slots)
    (hshape : s.prop ∉ c.shapeParameters) : s.prop ∉ Ruby.storedNames c := by
  have hclass {p : Property} (hp : p ∈ c.classProps) : p.name ≠ s.prop := by
    intro heq
    have hfree := (List.mem_filter.1 hp).2
    rw [Component.isSlotted, heq, Bool.not_eq_true', List.any_eq_false] at hfree
    exact hfree s hs (beq_self_eq_true _)
  rw [Ruby.storedNames, List.mem_append, List.mem_append, not_or, not_or]
  refine ⟨⟨fun hmem ↦ ?_, hshape⟩, fun hmem ↦ ?_⟩
  · obtain ⟨p, hp, heq⟩ := List.mem_map.1 hmem
    exact hclass (List.mem_of_mem_filter hp) heq
  · obtain ⟨p, hp, heq⟩ := Option.map_eq_some_iff.1 (Option.mem_toList.1 hmem)
    exact hclass (List.mem_of_mem_filter (List.mem_of_getLast? hp)) heq

theorem loose_tokenize_html (withSlots : Bool) {d : Definition}
    (h : ∀ root ∈ d.roots.head?, root.isRoot = true ∧
      root.Lexable { props := (normalizeProps d.props).map (·.name) }) :
    ∀ k ∈ tokenize (Component.ofDefinition withSlots d).html, k.Loose := by
  have hloose : ∃ ts, (Component.ofDefinition withSlots d).html = render ts ∧
      ∀ k ∈ ts, k.Loose := by
    rcases html_renderDefinition h with ⟨root, hroot, hhtml⟩ | ⟨reason, hreason, hhtml, -⟩
    · have hdraws := draws_render.1 _ root (h root hroot).2
      exact ⟨_, hhtml.trans hdraws.html,
        loose_blocksTokens fun b hb ↦ (hdraws.clean b hb).loose⟩
    · obtain ⟨ts, hts, hloose, -⟩ := binds_wholeTemplate hreason
      exact ⟨ts, hhtml.trans hts, hloose⟩
  obtain ⟨ts, hts, hloose⟩ := hloose
  rw [hts, tokenize_render_of_loose hloose]
  exact fun k hk ↦ (loose_joinTexts hloose k hk).1

/-- The class declares each slot and does not store its prop. Of the directives that refer to the
prop, those that output it alone show the slot, and all others are left. -/
theorem filter_refersTo_slot (d : Definition)
    (h : ∀ root ∈ d.roots.head?, root.isRoot = true ∧
      root.Lexable { props := (normalizeProps d.props).map (·.name) }) :
    let c := Component.ofDefinition true d
    ∀ s ∈ c.slots, s.prop ∉ Ruby.storedNames c ∧
      .line (s.kind.label ++ " :" ++ s.prop) ∈ Ruby.slotLines c ∧
      (tokenize (renderSlots c c.html)).filter (refersTo s.prop) =
        (tokenize c.html).filter fun k ↦ refersTo s.prop k && !shows s.prop k := by
  intro c s hs
  have hnames {s : Slot} (hs : s ∈ c.slots) :
      s.name.all isWord = true ∧ s.prop.all isWord = true := by
    obtain ⟨hname, hmem⟩ := mem_slots hs
    rw [hname]
    exact ⟨(slotNames_spec _ hmem).1, (slotNames_spec _ hmem).1⟩
  obtain ⟨hname, hmem⟩ := mem_slots hs
  refine ⟨not_mem_storedNames hs fun hshape ↦ ?_, ?_, ?_⟩
  · exact (slotNames_spec _ hmem).2 (shapeParameters_subset c hshape)
  · have hany : (!c.slots.isEmpty) = true := by simpa using List.ne_nil_of_mem hs
    rw [Ruby.slotLines, if_pos hany, ← hname]
    exact List.mem_map.2 ⟨s, hs, rfl⟩
  · exact filter_refersTo_renderSlots (fun _ ↦ hnames) rfl (loose_tokenize_html true h) hs

def panel (props : List Text) (more : List Markup.Node) : Definition where
  name := "Panel"
  props := props.map fun name ↦ { name }
  roots := [.element "section" []
    (.container (some (.logical [] [] .and (.identifier "header" [] "header")
      (.markup [] [] (.element "header" []
        [.container (some (.identifier "header" [] "header"))] false)))) :: more) false]

def actionPanel : Definition :=
  panel ["header", "actions"] [.container (some (.identifier "actions" [] "actions"))]

theorem filter_refersTo_slot_actionPanel :
    let c := Component.ofDefinition true actionPanel
    c.slots = [⟨"header", .one, "header"⟩, ⟨"actions", .many, "actions"⟩] ∧
      (tokenize (renderSlots c c.html)).filter (refersTo "header") = [codeToken "if @header"] ∧
      (tokenize (renderSlots c c.html)).filter (refersTo "actions") = [] := by
  have hlexable : ∀ root ∈ actionPanel.roots.head?, root.isRoot = true ∧
      root.Lexable { props := (normalizeProps actionPanel.props).map (·.name) } := by
    rintro _ ⟨⟩
    refine ⟨rfl, ?_⟩
    simp only [Node.Lexable, LexableNodes, Expr.Lexable]
    exact ⟨by decide, List.forall_mem_nil _, .inr ⟨⟨⟨rfl, by decide, by decide⟩, .inr ⟨rfl, by decide,
      List.forall_mem_nil _, .inr ⟨⟨by decide, by decide⟩, trivial⟩⟩⟩, ⟨by decide, by decide⟩,
      trivial⟩⟩
  have hslots : (Component.ofDefinition true actionPanel).slots =
      [⟨"header", .one, "header"⟩, ⟨"actions", .many, "actions"⟩] := by decide
  have hleft := filter_refersTo_slot actionPanel hlexable
  have hheader := (hleft ⟨"header", .one, "header"⟩ (by rw [hslots]; decide)).2.2
  have hactions := (hleft ⟨"actions", .many, "actions"⟩ (by rw [hslots]; decide)).2.2
  exact ⟨hslots, hheader.trans (by decide +kernel), hactions.trans (by decide +kernel)⟩

/-- The header becomes a slot, but the finished template still asks for its variable. -/
theorem refersTo_unset_panel :
    let c := Component.ofDefinition true (panel ["header"] [])
    c.slots = [⟨"header", .one, "header"⟩] ∧ Ruby.storedNames c = [("html_class" : Text)] ∧
      Template.ofComponent c "ui" false =
        "<section><% if @header %><header><%= header if header? %></header><% end %></section>\n" ∧
      codeToken "if @header" ∈ tokenize (Template.ofComponent c "ui" false) ∧
      refersTo "header" (codeToken "if @header") = true := by
  exact ⟨by decide, by decide, by decide +kernel, by decide +kernel, by decide⟩

end ViewForge
