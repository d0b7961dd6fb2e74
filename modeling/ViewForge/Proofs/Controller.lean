import Mathlib.Data.List.Flatten
import Mathlib.Data.List.Nodup
import ViewForge.Proofs.Template.Wiring
import ViewForge.Proofs.Text.Splitting

namespace ViewForge.Controller

open Text Markup

def lifecycleNames : List Text := ["connect", "disconnect"]

def handlerNames (c : Component) : List Text := (handlers c.events).map Prod.fst

def stubNames (c : Component) : List Text := (stubs c.name (handlerNames c)).map Prod.fst

def methodNames (c : Component) : List Text := lifecycleNames ++ handlerNames c ++ stubNames c

/-- The name that a line of a class body declares. Members are indented by two blanks; those lines
that hold a comment or close a method declare nothing. -/
def declaredName? : Text → Option Text
  | ' ' :: ' ' :: d :: r =>
    if d == ' ' || d == '/' || d == '}' then none else some ((d :: r).takeWhile (· != '('))
  | _ => none

def declaredNames (file : Text) : List Text := (lines file).filterMap declaredName?

/-- A text that can stand as the name of a method, written without escapes. -/
def isMethodName : Text → Bool
  | [] => false
  | d :: r =>
    d != ' ' && d != '/' && d != '}' && (d :: r).all fun c ↦ c != '(' && c != '\n' && c != '\\'

/-- The texts of a component that its controller quotes stay on their lines. -/
structure Legible (c : Component) : Prop where
  identifier : '\n' ∉ c.controllerIdentifier
  handler : ∀ e ∈ c.events, isMethodName e.handler = true
  event : ∀ e ∈ c.events, '\n' ∉ e.event
  params : ∀ e ∈ c.events, ∀ p ∈ e.params, '\n' ∉ p

section Grouping

variable {groups : List (Text × List EventBinding)} {e : EventBinding}

def addBinding (groups : List (Text × List EventBinding)) (e : EventBinding) :
    List (Text × List EventBinding) :=
  if groups.any (·.1 == e.handler) then
    groups.map fun (h, bs) ↦ if h == e.handler then (h, bs ++ [e]) else (h, bs)
  else groups ++ [(e.handler, [e])]

theorem handlers_eq (events : List EventBinding) : handlers events = events.foldl addBinding [] :=
  rfl

theorem any_handler_iff :
    groups.any (·.1 == e.handler) = true ↔ e.handler ∈ groups.map Prod.fst := by
  rw [List.any_eq_true, List.mem_map]
  simp only [beq_iff_eq]

theorem names_addBinding :
    (addBinding groups e).map Prod.fst =
      if e.handler ∈ groups.map Prod.fst then groups.map Prod.fst
      else groups.map Prod.fst ++ [e.handler] := by
  unfold addBinding
  split
  next hseen =>
    rw [if_pos (any_handler_iff.1 hseen), List.map_map]
    apply List.map_congr_left
    intro g _
    dsimp only [Function.comp]
    split <;> rfl
  next hnew =>
    rw [if_neg fun h ↦ hnew (any_handler_iff.2 h), List.map_append]
    rfl

theorem nodup_addBinding (h : (groups.map Prod.fst).Nodup) :
    ((addBinding groups e).map Prod.fst).Nodup := by
  rw [names_addBinding]
  split
  · exact h
  next hnew =>
    refine List.nodup_append'.2 ⟨h, List.nodup_singleton _, ?_⟩
    exact List.disjoint_singleton.2 hnew

/-- Every binding of a group is one of the bindings given. -/
theorem mem_addBinding {events : List EventBinding} (he : e ∈ events)
    (h : ∀ g ∈ groups, g.2 ≠ [] ∧ ∀ b ∈ g.2, b ∈ events ∧ b.handler = g.1) :
    ∀ g ∈ addBinding groups e, g.2 ≠ [] ∧ ∀ b ∈ g.2, b ∈ events ∧ b.handler = g.1 := by
  intro g hg
  unfold addBinding at hg
  split at hg
  · obtain ⟨g', hg', rfl⟩ := List.mem_map.1 hg
    obtain ⟨hne, hall⟩ := h g' hg'
    dsimp only
    split
    next heq =>
      refine ⟨by simp, fun b hb ↦ ?_⟩
      rcases List.mem_append.1 hb with hb | hb
      · exact hall b hb
      · cases List.mem_singleton.1 hb
        exact ⟨he, (beq_iff_eq.1 heq).symm⟩
    next => exact ⟨hne, hall⟩
  · rcases List.mem_append.1 hg with hg | hg
    · exact h g hg
    · cases List.mem_singleton.1 hg
      refine ⟨List.cons_ne_nil _ _, fun b hb ↦ ?_⟩
      cases List.mem_singleton.1 hb
      exact ⟨he, rfl⟩

theorem nodup_foldl_addBinding (events : List EventBinding) (h : (groups.map Prod.fst).Nodup) :
    ((events.foldl addBinding groups).map Prod.fst).Nodup := by
  induction events generalizing groups with
  | nil => exact h
  | cons e events ih => exact ih (nodup_addBinding h)

theorem mem_foldl_addBinding {all events : List EventBinding} (hsub : events ⊆ all)
    (h : ∀ g ∈ groups, g.2 ≠ [] ∧ ∀ b ∈ g.2, b ∈ all ∧ b.handler = g.1) :
    ∀ g ∈ events.foldl addBinding groups, g.2 ≠ [] ∧ ∀ b ∈ g.2, b ∈ all ∧ b.handler = g.1 := by
  induction events generalizing groups with
  | nil => exact h
  | cons e events ih =>
    obtain ⟨he, hsub⟩ := List.cons_subset.1 hsub
    exact ih hsub (mem_addBinding he h)

/-- A group holds bindings of its handler, and at least one. -/
theorem mem_group {events : List EventBinding} {g : Text × List EventBinding}
    (hg : g ∈ handlers events) : g.2 ≠ [] ∧ ∀ b ∈ g.2, b ∈ events ∧ b.handler = g.1 := by
  rw [handlers_eq] at hg
  exact mem_foldl_addBinding (List.Subset.refl _) (fun _ h ↦ absurd h List.not_mem_nil) g hg

theorem nodup_handlerNames (c : Component) : (handlerNames c).Nodup := by
  rw [handlerNames, handlers_eq]
  exact nodup_foldl_addBinding _ List.nodup_nil

theorem mem_handlerNames_iff {c : Component} {name : Text} :
    name ∈ handlerNames c ↔ ∃ e ∈ c.events, e.handler = name := by
  constructor
  · intro h
    obtain ⟨⟨name, group⟩, hg, rfl⟩ := List.mem_map.1 h
    obtain ⟨hne, hall⟩ := mem_group hg
    obtain ⟨b, hb⟩ := List.exists_mem_of_ne_nil group hne
    exact ⟨b, hall b hb⟩
  · rintro ⟨e, he, rfl⟩
    exact mem_handlers he

end Grouping

section Stubs

def allStubNames : List Text := (suggestedStubs.flatMap (·.2)).map Prod.fst

theorem stubs_sublist (name : Text) (taken : List Text) :
    (stubs name taken).Sublist (suggestedStubs.flatMap (·.2)) := by
  apply (List.Sublist.flatMap_right _ _).trans (List.filter_sublist.flatMap _)
  intro s _
  exact List.filter_sublist

theorem stubNames_sublist (c : Component) : (stubNames c).Sublist allStubNames :=
  (stubs_sublist _ _).map _

theorem nodup_stubNames (c : Component) : (stubNames c).Nodup :=
  (stubNames_sublist c).nodup (by decide)

theorem disjoint_handlerNames_stubNames (c : Component) :
    (handlerNames c).Disjoint (stubNames c) := by
  intro name hhandler hstub
  obtain ⟨stub, hmem, rfl⟩ := List.mem_map.1 hstub
  obtain ⟨s, _, hstub⟩ := List.mem_flatMap.1 hmem
  have hfree := (List.mem_filter.1 hstub).2
  rw [Bool.not_eq_true', List.contains_eq_mem, decide_eq_false_iff_not] at hfree
  exact hfree hhandler

theorem disjoint_lifecycleNames_stubNames (c : Component) :
    lifecycleNames.Disjoint (stubNames c) := by
  intro name hname hstub
  have hnone : ∀ name ∈ lifecycleNames, name ∉ allStubNames := by decide
  exact hnone name hname ((stubNames_sublist c).subset hstub)

theorem nodup_methodNames (c : Component) :
    (methodNames c).Nodup ↔ ∀ e ∈ c.events, e.handler ∉ lifecycleNames := by
  have hstubs : (lifecycleNames ++ handlerNames c).Disjoint (stubNames c) :=
    List.disjoint_append_left.2
      ⟨disjoint_lifecycleNames_stubNames c, disjoint_handlerNames_stubNames c⟩
  have hlifecycle : lifecycleNames.Nodup := by decide
  rw [methodNames, List.nodup_append', List.nodup_append']
  simp only [hlifecycle, nodup_handlerNames, nodup_stubNames, hstubs, true_and, and_true]
  constructor
  · intro hdisjoint e he hname
    exact hdisjoint hname (mem_handlerNames_iff.2 ⟨e, he, rfl⟩)
  · intro hfree name hname hhandler
    obtain ⟨e, he, rfl⟩ := mem_handlerNames_iff.1 hhandler
    exact hfree e he hname

end Stubs

section Reading

variable {c : Component}

theorem not_mem_of_isMethodName {name : Text} (h : isMethodName name = true) : '\n' ∉ name := by
  cases name with
  | nil => cases h
  | cons d r =>
    simp only [isMethodName, Bool.and_eq_true, List.all_eq_true, bne_iff_ne] at h
    exact fun hmem ↦ (h.2 _ hmem).1.2 rfl

theorem declaredName?_opening {name params : Text} (h : isMethodName name = true) :
    declaredName? (opening (name ++ '(' :: params)) = some name := by
  cases name with
  | nil => cases h
  | cons d r =>
    simp only [isMethodName, Bool.and_eq_true, List.all_eq_true, bne_iff_ne] at h
    obtain ⟨⟨⟨hblank, hslash⟩, hbrace⟩, hall⟩ := h
    have hline : opening (d :: r ++ '(' :: params) =
        ' ' :: ' ' :: d :: (r ++ '(' :: (params ++ " \x7b")) := by
      simp [opening]
    have htake : (d :: (r ++ '(' :: (params ++ " \x7b"))).takeWhile (· != '(') = d :: r := by
      rw [← List.cons_append,
        List.takeWhile_append_of_pos fun a ha ↦ bne_iff_ne.2 (hall a ha).1.1]
      simp
    rw [hline, declaredName?, htake]
    simp [hblank, hslash, hbrace]

/-- The lines of a method that declare one name, and stay the lines they are in a file. -/
structure Declares (ls : List Text) (name : Text) : Prop where
  no_break : ∀ l ∈ ls, '\n' ∉ l
  names : ls.filterMap declaredName? = [name]

theorem not_mem_opening {head : Text} (h : '\n' ∉ head) : '\n' ∉ opening head := by
  simp [opening, h]

/-- A method is what its opening line declares: the lines around it are comments and statements. -/
theorem declares_method {name : Text} (hname : isMethodName name = true) (before body : List Text)
    {params : Text} (hparams : '\n' ∉ params)
    (hquiet : ∀ l ∈ before ++ body, '\n' ∉ l ∧ declaredName? l = none) :
    Declares (before ++ opening (name ++ '(' :: params) :: body) name := by
  have hnone (ls : List Text) (h : ∀ l ∈ ls, l ∈ before ++ body) :
      ls.filterMap declaredName? = [] :=
    List.filterMap_eq_nil_iff.2 fun l hl ↦ (hquiet l (h l hl)).2
  constructor
  · intro l hl
    rcases List.mem_append.1 hl with hl | hl
    · exact (hquiet l (List.mem_append_left _ hl)).1
    rcases List.mem_cons.1 hl with rfl | hl
    · apply not_mem_opening
      simp [not_mem_of_isMethodName hname, hparams]
    · exact (hquiet l (List.mem_append_right _ hl)).1
  · rw [List.filterMap_append, List.filterMap_cons, declaredName?_opening hname,
      hnone before fun _ ↦ List.mem_append_left _, hnone body fun _ ↦ List.mem_append_right _,
      List.nil_append]

theorem declares_lifecycleMethod (hc : '\n' ∉ c.controllerIdentifier) {name event : Text}
    (hname : isMethodName name = true) (hevent : '\n' ∉ event) :
    Declares (lifecycleMethod c.controllerIdentifier name event) name := by
  refine declares_method hname [] _ (by decide : '\n' ∉ [')']) ?_
  rintro l hl
  rcases List.mem_cons.1 hl with rfl | hl
  · exact ⟨by simp [hc, hevent], rfl⟩
  · cases List.mem_singleton.1 hl
    exact ⟨by decide, rfl⟩

theorem mem_of_mem_sortedNames {name : Text} {names : List Text} (h : name ∈ sortedNames names) :
    name ∈ names := by
  -- Repetitions are dropped by a loop that keeps the last name and those before it in reverse.
  have hloop (last : Text) (rest kept : List Text)
      (h : name ∈ List.eraseRepsBy.loop (· == ·) last rest kept) :
      name ∈ kept ∨ name ∈ last :: rest := by
    induction rest generalizing last kept with
    | nil => simpa [List.eraseRepsBy.loop] using h
    | cons n rest ih =>
      rw [List.eraseRepsBy.loop] at h
      split at h
      · rcases ih _ _ h with h | h
        · exact .inl h
        · exact .inr (by simp at h ⊢; tauto)
      · rcases ih _ _ h with h | h
        · simp at h ⊢; tauto
        · exact .inr (by simp at h ⊢; tauto)
  unfold sortedNames List.eraseReps List.eraseRepsBy at h
  split at h
  · cases h
  next last rest heq =>
    apply List.mem_mergeSort.1
    rw [heq]
    exact (hloop _ _ _ h).resolve_left List.not_mem_nil

theorem declares_handlerMethod (h : Legible c) {g : Text × List EventBinding}
    (hg : g ∈ handlers c.events) :
    Declares (handlerMethod c.controllerIdentifier g.1 g.2) g.1 := by
  obtain ⟨hne, hgroup⟩ := mem_group hg
  have hname : isMethodName g.1 = true := by
    obtain ⟨b, hb⟩ := List.exists_mem_of_ne_nil _ hne
    rw [← (hgroup b hb).2]
    exact h.handler b (hgroup b hb).1
  have hevents : '\n' ∉ join [',', ' '] (sortedNames (g.2.map (·.event))) := by
    refine not_mem_join (by decide) fun name hsorted ↦ ?_
    obtain ⟨b, hb, rfl⟩ := List.mem_map.1 (mem_of_mem_sortedNames hsorted)
    exact h.event b (hgroup b hb).1
  -- The first binding of the group gives the event and the parameters that the comments name.
  obtain ⟨first, hfirst⟩ : ∃ first, g.2.head? = some first :=
    ⟨g.2.head hne, List.head?_eq_some_head hne⟩
  have hmem : first ∈ c.events := (hgroup first (List.mem_of_mem_head? hfirst)).1
  have hparams : '\n' ∉ join [',', ' '] first.params :=
    not_mem_join (by decide) (h.params first hmem)
  refine declares_method hname _ _ (by decide : '\n' ∉ "event)".toList) ?_
  intro l hl
  simp only [hfirst, Option.map_some, Option.getD_some, List.mem_append, List.mem_cons,
    List.not_mem_nil, or_false] at hl
  rcases hl with (rfl | hl) | rfl | rfl
  · refine ⟨?_, rfl⟩
    simp [hevents, h.event first hmem, h.identifier, not_mem_of_isMethodName hname]
  · split at hl
    · cases hl
    · cases List.mem_singleton.1 hl
      exact ⟨by simp [hparams], rfl⟩
  · exact ⟨by decide, rfl⟩
  · exact ⟨by decide, rfl⟩

theorem declares_stubMethod {stub : Text × Text} (h : stub ∈ suggestedStubs.flatMap (·.2)) :
    Declares (stubMethod stub) stub.1 := by
  have hall : ∀ stub ∈ suggestedStubs.flatMap (·.2),
      isMethodName stub.1 = true ∧ '\n' ∉ stub.2 := by decide +kernel
  obtain ⟨hname, hdoc⟩ := hall stub h
  refine declares_method hname [_] _ (by decide : '\n' ∉ [')']) ?_
  intro l hl
  rcases List.mem_cons.1 hl with rfl | hl
  · exact ⟨by simp [hdoc], rfl⟩
  · cases List.mem_singleton.1 hl
    exact ⟨by decide, rfl⟩

theorem forall₂_declares (h : Legible c) : List.Forall₂ Declares (methods c) (methodNames c) := by
  refine List.rel_append (List.rel_append ?_ ?_) ?_
  · exact .cons (declares_lifecycleMethod h.identifier (by decide) (by decide))
      (.cons (declares_lifecycleMethod h.identifier (by decide) (by decide)) .nil)
  · rw [handlerNames, List.forall₂_map_left_iff, List.forall₂_map_right_iff, List.forall₂_same]
    intro g hg
    exact declares_handlerMethod h hg
  · change List.Forall₂ Declares ((stubs c.name (handlerNames c)).map stubMethod) (stubNames c)
    rw [stubNames, List.forall₂_map_left_iff, List.forall₂_map_right_iff, List.forall₂_same]
    intro stub hstub
    exact declares_stubMethod ((stubs_sublist _ _).subset hstub)

/-- Groups of lines keep their names when empty lines go between them. -/
theorem declares_separated {gs : List (List Text)} {names : List Text}
    (h : List.Forall₂ Declares gs names) :
    (∀ l ∈ separated gs, '\n' ∉ l) ∧ (separated gs).filterMap declaredName? = names := by
  fun_induction separated gs generalizing names with
  | case1 =>
    cases h
    exact ⟨List.forall_mem_nil _, rfl⟩
  | case2 g =>
    cases h with
    | cons hg hnil =>
      cases hnil
      exact ⟨hg.no_break, hg.names⟩
  | case3 g gs _ ih =>
    cases h with
    | cons hg hgs =>
      obtain ⟨hbreak, hnames⟩ := ih hgs
      refine ⟨?_, ?_⟩
      · intro l hl
        rcases List.mem_append.1 hl with hl | hl
        · exact hg.no_break l hl
        rcases List.mem_cons.1 hl with rfl | hl
        · exact List.not_mem_nil
        · exact hbreak l hl
      · rw [List.filterMap_append, List.filterMap_cons_none rfl, hg.names, hnames]
        rfl

theorem lines_file (hbreak : ∀ l ∈ header c ++ separated (methods c), '\n' ∉ l) :
    lines (file c) = header c ++ separated (methods c) ++ [['}'], []] := by
  have hfile : file c = unlines (header c ++ separated (methods c) ++ [['}'], []]) := by
    have hsplit : header c ++ separated (methods c) ++ [['}'], []] =
        header c ++ separated (methods c) ++ [['}']] ++ [[]] := by simp
    rw [file_eq, hsplit, unlines_append (b := [[]]) (by simp) (by simp)]
    rfl
  have hend : ∀ l ∈ [['}'], []], '\n' ∉ l := by decide
  rw [hfile]
  apply splitOn_join
  · intro l hl
    rcases List.mem_append.1 hl with hl | hl
    · exact hbreak l hl
    · exact hend l hl
  · simp

/-- What a reader finds declared in the file of a controller. -/
theorem declaredNames_file (h : Legible c) : declaredNames (file c) = methodNames c := by
  obtain ⟨hbreak, hnames⟩ := declares_separated (forall₂_declares h)
  have hheader : ∀ l ∈ header c, '\n' ∉ l ∧ declaredName? l = none := by
    intro l hl
    simp only [header, List.mem_cons, List.not_mem_nil, or_false] at hl
    rcases hl with rfl | rfl | rfl | rfl
    · exact ⟨by decide, rfl⟩
    · exact ⟨List.not_mem_nil, rfl⟩
    · exact ⟨by simp [h.identifier], rfl⟩
    · exact ⟨by decide, rfl⟩
  have hlines : ∀ l ∈ header c ++ separated (methods c), '\n' ∉ l := by
    intro l hl
    rcases List.mem_append.1 hl with hl | hl
    · exact (hheader l hl).1
    · exact hbreak l hl
  rw [declaredNames, lines_file hlines, List.filterMap_append, List.filterMap_append, hnames,
    List.filterMap_eq_nil_iff.2 fun l hl ↦ (hheader l hl).2]
  exact List.append_nil _

end Reading

/-- The methods of a controller have different names just if no handler is called like one of the
methods that every controller has; and they are the methods that its file declares. -/
theorem nodup_methodNames_iff (c : Component) :
    ((methodNames c).Nodup ↔ ∀ e ∈ c.events, e.handler ∉ lifecycleNames) ∧
    (Legible c → declaredNames (file c) = methodNames c) :=
  ⟨nodup_methodNames c, declaredNames_file⟩

/-- A menu whose two entries share a handler that has the name of a suggested stub. -/
def sharedMenu : Component where
  name := "DropdownMenu"
  snakeName := "dropdown_menu"
  html := []
  events := [{ event := "click", handler := "toggle" },
    { event := "keydown", handler := "search", params := ["e"] },
    { event := "blur", handler := "toggle" }]

theorem nodup_methodNames_iff_sharedMenu :
    declaredNames (file sharedMenu) =
      ["connect", "disconnect", "toggle", "search", "open", "close"] ∧
    (declaredNames (file sharedMenu)).Nodup := by
  obtain ⟨hnodup, hfile⟩ := nodup_methodNames_iff sharedMenu
  have hlegible : Legible sharedMenu := ⟨by decide, by decide, by decide, by decide⟩
  rw [hfile hlegible]
  exact ⟨by decide, hnodup.2 (by decide)⟩

/-- The handler of a button that connects something takes the place of the method that runs when
the controller is connected. -/
def connectButton : Component where
  name := "Chat"
  snakeName := "chat"
  html := []
  events := [{ event := "click", handler := "connect" }]

theorem not_nodup_connectButton :
    declaredNames (file connectButton) = ["connect", "disconnect", "connect"] ∧
    ¬(declaredNames (file connectButton)).Nodup := by
  have hlegible : Legible connectButton := ⟨by decide, by decide, by decide, by decide⟩
  rw [declaredNames_file hlegible]
  exact ⟨by decide, by decide⟩

end ViewForge.Controller
