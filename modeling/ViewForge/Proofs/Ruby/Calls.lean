import Mathlib.Data.List.Forall2
import ViewForge.Proofs.Ruby.Constructor
import ViewForge.Ruby.Companion

namespace ViewForge.Ruby

open Text

section Code

mutual

/-- The lines of a statement, without their indentation. -/
def Stmt.code : Stmt → List Text
  | .line t => [t]
  | .blank => [[]]
  | .block head body => head :: (codeOf body ++ [("end" : Text)])
  | .branches head body => head :: (body ++ [("end" : Text)])

def codeOf : List Stmt → List Text
  | [] => []
  | s :: r => s.code ++ codeOf r

end

def Prints (file : Text) (code : List Text) : Prop :=
  ∃ ls, file = unlines ls ++ "\n" ∧
    List.Forall₂ (fun l t ↦ ∃ depth, l = indented depth t) ls code

theorem forall₂_indented (depth : Nat) (ts : List Text) :
    List.Forall₂ (fun l t ↦ ∃ depth, l = indented depth t) (ts.map (indented depth)) ts := by
  rw [List.forall₂_map_left_iff]
  exact List.forall₂_same.2 fun t _ ↦ ⟨depth, rfl⟩

mutual

theorem forall₂_lines (depth : Nat) (s : Stmt) :
    List.Forall₂ (fun l t ↦ ∃ depth, l = indented depth t) (s.lines depth) s.code := by
  cases s with
  | line t => exact forall₂_indented depth [t]
  | blank => exact forall₂_indented 0 [[]]
  | block head body =>
    exact .cons ⟨depth, rfl⟩
      (List.rel_append (forall₂_stmtsLines (depth + 1) body) (forall₂_indented depth ["end"]))
  | branches head body =>
    exact .cons ⟨depth, rfl⟩
      (List.rel_append (forall₂_indented depth body) (forall₂_indented depth ["end"]))

theorem forall₂_stmtsLines (depth : Nat) (ss : List Stmt) :
    List.Forall₂ (fun l t ↦ ∃ depth, l = indented depth t) (stmtsLines depth ss) (codeOf ss) := by
  cases ss with
  | nil => exact .nil
  | cons s ss => exact List.rel_append (forall₂_lines depth s) (forall₂_stmtsLines depth ss)

end

theorem prints_fileText (ss : List Stmt) : Prints (fileText ss) (codeOf ss) :=
  ⟨stmtsLines 0 ss, rfl, forall₂_stmtsLines 0 ss⟩

@[simp]
theorem codeOf_nil : codeOf [] = [] := rfl

@[simp]
theorem codeOf_cons (s : Stmt) (ss : List Stmt) : codeOf (s :: ss) = s.code ++ codeOf ss := rfl

@[simp]
theorem codeOf_append (ss ss' : List Stmt) : codeOf (ss ++ ss') = codeOf ss ++ codeOf ss' := by
  induction ss with
  | nil => rfl
  | cons s ss ih => simp [ih]

@[simp]
theorem code_line (t : Text) : (Stmt.line t).code = [t] := rfl

@[simp]
theorem code_blank : Stmt.blank.code = [[]] := rfl

@[simp]
theorem code_block (head : Text) (body : List Stmt) :
    (Stmt.block head body).code = head :: (codeOf body ++ [("end" : Text)]) := rfl

@[simp]
theorem code_branches (head : Text) (body : List Text) :
    (Stmt.branches head body).code = head :: (body ++ [("end" : Text)]) := rfl

@[simp]
theorem code_method (signature : Text) (body : List Text) :
    (method signature body).code = ("def " ++ signature) :: (body ++ [("end" : Text)]) := by
  have hbody : codeOf (body.map fun l ↦ if l.isEmpty then .blank else .line l) = body := by
    induction body with
    | nil => rfl
    | cons l body ih =>
      rw [List.map_cons, codeOf_cons, ih]
      cases l <;> rfl
  rw [method, code_block, hbody]

theorem codeOf_map_line {α : Type} (f : α → Text) (xs : List α) :
    codeOf (xs.map fun x ↦ .line (f x)) = xs.map f := by
  induction xs with
  | nil => rfl
  | cons x xs ih => simp [ih]

def linesFrom (start : Text) (ss : List Stmt) : List Text := (codeOf ss).filter (startsWith · start)

theorem linesFrom_append (start : Text) (ss ss' : List Stmt) :
    linesFrom start (ss ++ ss') = linesFrom start ss ++ linesFrom start ss' := by
  simp [linesFrom]

def Avoids (a : Char) (ss : List Stmt) : Prop := ∀ l ∈ codeOf ss, l.head? ≠ some a

theorem Avoids.append {a : Char} {ss ss' : List Stmt} (h : Avoids a ss) (h' : Avoids a ss') :
    Avoids a (ss ++ ss') := by
  rw [Avoids, codeOf_append, List.forall_mem_append]
  exact ⟨h, h'⟩

theorem Avoids.linesFrom_eq_nil {a : Char} {ss : List Stmt} (h : Avoids a ss) (r : Text) :
    linesFrom (a :: r) ss = [] := by
  rw [linesFrom, List.filter_eq_nil_iff]
  intro l hl hstarts
  cases l with
  | nil => cases hstarts
  | cons b l =>
    simp only [startsWith, List.isPrefixOf_cons_cons, Bool.and_eq_true, beq_iff_eq] at hstarts
    exact h _ hl (congrArg some hstarts.1.symm)

/-- Blank lines between groups of statements are not among the lines that begin in some way. -/
theorem linesFrom_separated {start : Text} (hstart : start ≠ []) (gs : List (List Stmt)) :
    linesFrom start (separated gs) = gs.flatMap (linesFrom start) := by
  have hblank : startsWith [] start = false := by
    cases start with
    | nil => exact absurd rfl hstart
    | cons c start => rfl
  fun_induction separated gs with
  | case1 => rfl
  | case2 g => simp
  | case3 g gs _ ih =>
    rw [List.flatMap_cons, ← ih]
    simp [linesFrom, hblank]

theorem linesFrom_block {start head : Text} (body : List Stmt)
    (hhead : startsWith head start = false) (hend : startsWith "end" start = false) :
    linesFrom start [.block head body] = linesFrom start body := by
  simp only [linesFrom, codeOf_cons, codeOf_nil, code_block, List.append_nil, List.filter_cons,
    List.filter_append, List.filter_nil, hhead, hend, Bool.false_eq_true, if_false]

theorem linesFrom_inModules {start : Text} (names : List Text) (ss : List Stmt)
    (hmodule : ∀ name, startsWith ("module " ++ name) start = false)
    (hend : startsWith "end" start = false) :
    linesFrom start (inModules names ss) = linesFrom start ss := by
  induction names with
  | nil => rfl
  | cons name names ih =>
    rw [inModules, linesFrom_block _ (hmodule name) hend]
    exact ih

theorem infix_separated {g : List Stmt} {gs : List (List Stmt)} (h : g ∈ gs) :
    codeOf g <:+: codeOf (separated gs) := by
  fun_induction separated gs with
  | case1 => cases h
  | case2 g' =>
    cases List.mem_singleton.1 h
    exact List.infix_rfl
  | case3 g' gs _ ih =>
    rw [codeOf_append, codeOf_cons]
    rcases List.mem_cons.1 h with rfl | h
    · exact (List.prefix_append _ _).isInfix
    · exact (ih h).trans ((List.suffix_append _ _).trans (List.suffix_append _ _)).isInfix

theorem infix_block (head : Text) (body : List Stmt) :
    codeOf body <:+: codeOf [.block head body] :=
  ⟨[head], [("end" : Text)], by simp⟩

theorem infix_inModules (names : List Text) (ss : List Stmt) :
    codeOf ss <:+: codeOf (inModules names ss) := by
  induction names with
  | nil => exact List.infix_rfl
  | cons name names ih => exact ih.trans (infix_block _ _)

end Code

section Names

variable (c : Component)

theorem storedNames_eq : storedNames c = (keywords c).map Keyword.name := by
  have hrest (o : Option Property) :
      (o.map (·.name)).toList = (o.toList.map (Keyword.rest ·.name)).map Keyword.name := by
    cases o <;> rfl
  have hregular : Keyword.name ∘ Keyword.ofProperty = (·.name) := funext Keyword.name_ofProperty
  have hshape : Keyword.name ∘ (Keyword.optional · "nil") = id := rfl
  simp only [storedNames, keywords, List.map_append, hrest, List.map_map, hregular, hshape,
    List.map_id]

def Keyword.isRequired : Keyword → Bool
  | .required _ => true
  | .optional .. | .rest _ => false

def Keyword.isRest : Keyword → Bool
  | .rest _ => true
  | .required _ | .optional .. => false

structure Argument where
  name : Text
  value : Text

def Argument.text (a : Argument) : Text := a.name ++ ": " ++ a.value

/-- What a test or a preview passes, for a variant or without one. -/
def arguments (variant : Option Text) : List Argument :=
  (c.props.filter fun p ↦ !p.isRest && !c.isSlotted p.name).map (fun p ↦ ⟨p.name, exampleValue p⟩) ++
    (variant.map fun v ↦ ⟨"variant", quoted v⟩).toList

def callText (constant : Text) (as : List Argument) : Text :=
  constant ++ ".new(" ++ join ", " (as.map Argument.text) ++ ")"

theorem newCall_eq (namespaceName : Text) (variant : Option Text) :
    newCall c namespaceName variant = callText (c.constant namespaceName) (arguments c variant) := by
  have harguments : exampleArguments c variant =
      join ", " ((arguments c variant).map Argument.text) := by
    cases variant <;> simp [exampleArguments, arguments, Argument.text, Function.comp_def]
  rw [newCall, callText, harguments]

/-- A call that a signature takes: nothing it asks for is left out, and nothing is passed that it
does not name. -/
structure Accepts (ks : List Keyword) (as : List Argument) : Prop where
  complete : ∀ k ∈ ks, k.isRequired = true → k.name ∈ as.map (·.name)
  declared : ∀ a ∈ as, ∃ k ∈ ks, k.isRest = false ∧ k.name = a.name

theorem mem_classProps_iff {p : Property} (hp : p.isRest = false) :
    p ∈ c.classProps ↔ p ∈ c.props ∧ c.isSlotted p.name = false := by
  have hrest : p ∉ c.restProp?.toList := by
    intro hmem
    rw [Component.restProp?_toList] at hmem
    have hfound := (List.mem_filter.1 (List.mem_of_mem_take hmem)).2
    simp [hp] at hfound
  rw [Component.classProps, List.mem_filter, List.mem_append,
    c.requiredProps_append_optionalProps.mem_iff, List.mem_filter]
  simp [hp, hrest]

variable {c}

theorem mem_keywords_iff {k : Keyword} :
    k ∈ keywords c ↔
      (∃ p ∈ c.props, p.isRest = false ∧ c.isSlotted p.name = false ∧ k = .ofProperty p) ∨
      (∃ name ∈ c.shapeParameters, k = .optional name "nil") ∨
      ∃ p ∈ c.classProps.filter (·.isRest), k = .rest p.name := by
  rw [keywords, ← c.classProps_filter_isRest]
  simp only [List.mem_append, List.mem_map, List.mem_filter, or_assoc]
  constructor
  · rintro (⟨p, ⟨hp, hrest⟩, rfl⟩ | ⟨name, hname, rfl⟩ | ⟨p, hp, rfl⟩)
    · have hrest : p.isRest = false := by simpa using hrest
      obtain ⟨hprops, hslot⟩ := (mem_classProps_iff c hrest).1 hp
      exact .inl ⟨p, hprops, hrest, hslot, rfl⟩
    · exact .inr (.inl ⟨name, hname, rfl⟩)
    · exact .inr (.inr ⟨p, hp, rfl⟩)
  · rintro (⟨p, hp, hrest, hslot, rfl⟩ | ⟨name, hname, rfl⟩ | ⟨p, hp, rfl⟩)
    · exact .inl ⟨p, ⟨(mem_classProps_iff c hrest).2 ⟨hp, hslot⟩, by simp [hrest]⟩, rfl⟩
    · exact .inr (.inl ⟨name, hname, rfl⟩)
    · exact .inr (.inr ⟨p, hp, rfl⟩)

theorem Keyword.isRest_ofProperty (p : Property) : (ofProperty p).isRest = false := by
  unfold ofProperty
  split <;> rfl

theorem accepts_arguments {variant : Option Text}
    (h : variant.isSome = true → c.isInteractive = true) :
    Accepts (keywords c) (arguments c variant) where
  complete k hk hrequired := by
    rcases mem_keywords_iff.1 hk with ⟨p, hp, hrest, hslot, rfl⟩ | ⟨name, -, rfl⟩ | ⟨p, -, rfl⟩
    · rw [Keyword.name_ofProperty, arguments, List.map_append, List.map_map]
      refine List.mem_append_left _ (List.mem_map.2 ⟨p, ?_, rfl⟩)
      simp [hp, hrest, hslot]
    · cases hrequired
    · cases hrequired
  declared a ha := by
    rcases List.mem_append.1 ha with ha | ha
    · obtain ⟨p, hp, rfl⟩ := List.mem_map.1 ha
      simp only [List.mem_filter, Bool.and_eq_true, Bool.not_eq_true'] at hp
      exact ⟨.ofProperty p, mem_keywords_iff.2 (.inl ⟨p, hp.1, hp.2.1, hp.2.2, rfl⟩),
        Keyword.isRest_ofProperty p, Keyword.name_ofProperty p⟩
    · cases variant with
      | none => cases ha
      | some v =>
        cases List.mem_singleton.1 ha
        have hshape : "variant".toList ∈ c.shapeParameters := by
          rw [Component.shapeParameters, if_pos (h rfl)]
          exact List.mem_cons_self
        exact ⟨.optional "variant" "nil", mem_keywords_iff.2 (.inr (.inl ⟨_, hshape, rfl⟩)), rfl, rfl⟩

end Names

section Files

/-- What a component is rendered for: once without a variant, and once for each of its variants. -/
def scenarios (c : Component) : List (Option Text) := none :: c.variants.map some

theorem isInteractive_of_variant {withSlots : Bool} {d : Definition} {variant : Option Text}
    (h : variant ∈ scenarios (.ofDefinition withSlots d)) (hsome : variant.isSome = true) :
    (Component.ofDefinition withSlots d).isInteractive = true := by
  rcases List.mem_cons.1 h with rfl | h
  · cases hsome
  · obtain ⟨v, hv, rfl⟩ := List.mem_map.1 h
    change v ∈ (Shape.ofRoot d.name d.roots.head?).variants at hv
    change (Shape.ofRoot d.name d.roots.head?).isInteractive = true
    by_contra hplain
    have hstyles : (Shape.ofRoot d.name d.roots.head?).styles = none := if_neg hplain
    rw [Shape.variants, hstyles] at hv
    cases hv

variable (c : Component) (namespaceName : Text)

theorem exists_testFile : ∃ ss, testFile c namespaceName = fileText ss ∧
    linesFrom "render_inline(" ss = ((scenarios c).map (arguments c)).map fun as ↦
      "render_inline(" ++ callText (c.constant namespaceName) as ++ ")" := by
  have hrender (name : Text) (variant : Option Text) :
      linesFrom "render_inline(" (renderTest c namespaceName name variant) =
        ["render_inline(" ++ callText (c.constant namespaceName) (arguments c variant) ++ ")"] := by
    rw [← newCall_eq]
    rfl
  refine ⟨_, rfl, ?_⟩
  rw [linesFrom_append, linesFrom_inModules _ _ (fun _ ↦ rfl) rfl, linesFrom_block _ rfl rfl,
    linesFrom_separated (by decide), scenarios, List.flatMap_cons, List.flatMap_map, List.map_map,
    List.map_cons, List.map_map, List.map_eq_flatMap]
  simp only [hrender]
  rfl

theorem exists_previewFile : ∃ ss block, previewFile c namespaceName = fileText ss ∧
    linesFrom "render(" ss = ((scenarios c).map (arguments c)).map fun as ↦
      "render(" ++ callText (c.constant namespaceName) as ++ ")" ++ block := by
  refine ⟨_, if c.isInteractive then " \x7b " ++ quoted c.name ++ " \x7d" else [], rfl, ?_⟩
  rw [linesFrom_append, linesFrom_inModules _ _ (fun _ ↦ rfl) rfl, linesFrom_block _ rfl rfl,
    linesFrom_separated (by decide), scenarios, List.flatMap_cons, List.flatMap_map, List.map_map,
    List.map_cons, List.map_map, List.map_eq_flatMap]
  simp only [newCall_eq]
  rfl

section Avoids

variable {a : Char} (ha : a = 'a' ∨ a = 'n')

include ha

theorem avoids_slotLines : Avoids a (slotLines c) := by
  rw [slotLines]
  split
  · have hcode := codeOf_map_line (fun s : Slot ↦ s.kind.label ++ " :" ++ s.name) c.slots
    rw [Avoids, hcode, List.forall_mem_map]
    intro s _
    have hlabel : s.kind.label.head? = some 'r' := by cases s.kind <;> rfl
    rw [List.append_assoc, List.head?_append, hlabel]
    rcases ha with rfl | rfl <;> simp
  · split
    · rcases ha with rfl | rfl <;> simp [Avoids]
    · simp [Avoids]

theorem avoids_constructor : Avoids a (constructor c) := by
  simp only [Avoids, constructor, codeOf_cons, codeOf_nil, code_method, List.append_nil,
    List.forall_mem_cons, List.forall_mem_append, List.forall_mem_map]
  rcases ha with rfl | rfl <;> simp

theorem avoids_styleMethods : Avoids a (styleMethods c) := by
  rw [styleMethods]
  split
  · simp only [Avoids, separated, caseMethod, codeOf_cons, codeOf_nil, codeOf_append, code_method,
      code_block, code_branches, code_blank, List.append_nil, List.forall_mem_cons,
      List.forall_mem_append, List.forall_mem_map]
    rcases ha with rfl | rfl <;> simp [quoted]
  · simp [Avoids]

theorem avoids_buttonType : Avoids a (buttonType c) := by
  rw [buttonType]
  split
  · rcases ha with rfl | rfl <;> simp [Avoids]
  · simp [Avoids]

theorem linesFrom_classBody (r : Text) :
    linesFrom (a :: r) (classBody c) =
      linesFrom (a :: r) (readers c) ++ linesFrom (a :: r) (attributeRenderer c) ++
        linesFrom (a :: r) (collectionFactory c) := by
  have hfilter (gs : List (List Stmt)) :
      (gs.filter (!·.isEmpty)).flatMap (linesFrom (a :: r)) = gs.flatMap (linesFrom (a :: r)) := by
    induction gs with
    | nil => rfl
    | cons g gs ih => cases g <;> simp [ih, linesFrom]
  rw [classBody, linesFrom_separated (List.cons_ne_nil a r), hfilter]
  simp [(avoids_slotLines c ha).linesFrom_eq_nil, (avoids_constructor c ha).linesFrom_eq_nil,
    (avoids_styleMethods c ha).linesFrom_eq_nil, (avoids_buttonType c ha).linesFrom_eq_nil]

end Avoids

theorem exists_classFile : ∃ ss, classFile c namespaceName = fileText ss ∧
    codeOf (constructor c) <:+: codeOf ss ∧
    ∀ a, a = 'a' ∨ a = 'n' → ∀ r, linesFrom (a :: r) ss = linesFrom (a :: r) (classBody c) := by
  refine ⟨_, rfl, ?_, fun a ha r ↦ ?_⟩
  · have hbody : codeOf (constructor c) <:+: codeOf (classBody c) := by
      apply infix_separated
      simp [constructor]
    rw [codeOf_append]
    exact hbody.trans ((infix_block _ _).trans
      ((infix_inModules _ _).trans (List.suffix_append _ _).isInfix))
  · have hwarnings : Avoids a (c.warnings.map fun w ↦ .line ("# WARNING: " ++ w)) := by
      rw [Avoids, codeOf_map_line, List.forall_mem_map]
      rcases ha with rfl | rfl <;> simp
    have hopening : Avoids a (if (c.warnings.map fun w ↦ Stmt.line ("# WARNING: " ++ w)).isEmpty
        then [] else c.warnings.map (fun w ↦ .line ("# WARNING: " ++ w)) ++ [.blank]) := by
      split
      · simp [Avoids]
      · exact hwarnings.append (by simp [Avoids])
    have hheader : Avoids a [frozenComment, .blank] := by
      rcases ha with rfl | rfl <;> simp [Avoids, frozenComment]
    rw [linesFrom_append, (hopening.append hheader).linesFrom_eq_nil, List.nil_append,
      linesFrom_inModules, linesFrom_block]
    all_goals rcases ha with rfl | rfl <;> intros <;> rfl

theorem linesFrom_attributeRenderer {word : Text} (h : word = "attr_reader " ∨ word = "new(") :
    linesFrom word (attributeRenderer c) = [] := by
  rw [attributeRenderer]
  split
  · -- the one line is long, and its characters are only read off it once
    repeat rw [String.toList_ofList]
    rcases h with rfl | rfl <;> decide +kernel
  · rfl

theorem linesFrom_readers :
    linesFrom "attr_reader " (classBody c) = ["attr_reader " ++
      join ", " ((c.classProps.map (·.name) ++ c.shapeParameters).map (':' :: ·))] := by
  have hfactory : linesFrom "attr_reader " (collectionFactory c) = [] := by
    rw [collectionFactory]
    split <;> rfl
  refine (linesFrom_classBody c (.inl rfl) "ttr_reader ").trans ?_
  change linesFrom "attr_reader " _ ++ linesFrom "attr_reader " _ ++ linesFrom "attr_reader " _ = _
  rw [linesFrom_attributeRenderer c (.inl rfl), hfactory]
  rfl

def collectionCall (name : Text) : Text := "new(" ++ name ++ ": collection.to_a, **options)"

theorem linesFrom_factory :
    linesFrom "new(" (classBody c) =
      (c.classProps.find? (·.isListLike)).toList.map (collectionCall ·.name) := by
  have hfactory : linesFrom "new(" (collectionFactory c) =
      (c.classProps.find? (·.isListLike)).toList.map (collectionCall ·.name) := by
    rw [collectionFactory]
    cases c.classProps.find? (·.isListLike) <;> rfl
  refine (linesFrom_classBody c (.inr rfl) "ew(").trans ?_
  change linesFrom "new(" _ ++ linesFrom "new(" _ ++ linesFrom "new(" _ = _
  rw [linesFrom_attributeRenderer c (.inr rfl), hfactory]
  rfl

theorem listLike_classProps {p : Property} (h : c.classProps.find? (·.isListLike) = some p) :
    (p ∈ c.props ∧ c.isSlotted p.name = false) ∧ p.isRest = false := by
  have hlist : p.isListLike = true := List.find?_some h
  rw [Property.isListLike, Bool.and_eq_true, Bool.not_eq_true'] at hlist
  exact ⟨(mem_classProps_iff c hlist.1).1 (List.mem_of_find?_eq_some h), hlist.1⟩

end Files

end ViewForge.Ruby
