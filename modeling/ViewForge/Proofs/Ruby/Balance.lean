import ViewForge.Proofs.Erb.Partition
import ViewForge.Proofs.Project.ConstantPaths
import ViewForge.Proofs.Ruby.Blocks
import ViewForge.Proofs.Ruby.Constructor
import ViewForge.Ruby.Companion

namespace ViewForge

open Text

/-- No name, default, class or warning of a component spans lines. -/
structure Component.IsUnbroken (c : Component) : Prop where
  name : '\n' ∉ c.name
  snakeName : '\n' ∉ c.snakeName
  warnings : ∀ w ∈ c.warnings, '\n' ∉ w
  props : ∀ p ∈ c.props, '\n' ∉ p.name ∧ ∀ d ∈ p.default, '\n' ∉ d
  slots : ∀ s ∈ c.slots, '\n' ∉ s.name
  variants : ∀ v ∈ c.variants, '\n' ∉ v
  sizes : ∀ s ∈ c.sizes, '\n' ∉ s
  base : ∀ s ∈ c.styles, '\n' ∉ s.base
  classes : ∀ s ∈ c.styles, ∀ e ∈ s.variants ++ s.sizes, '\n' ∉ e.1 ∧ '\n' ∉ e.2

namespace Ruby

section Characters

variable {t : Text}

theorem not_mem_quoted (h : '\n' ∉ t) : '\n' ∉ quoted t := by
  have hescape : '\n' ∉ escape t := by
    fun_induction escape t <;> simp_all
  simp [quoted, hescape]

theorem not_mem_of_mem_segments {d : Char} (h : d ∉ t) {s : Text} (hs : s ∈ Naming.segments t) :
    d ∉ s := by
  have hfrom : ∀ s ∈ Naming.segmentsFrom t, d ∉ s := by
    clear hs s
    fun_induction Naming.segmentsFrom t with
    | case1 => simp
    | case2 r ih => simp_all
    | case3 c r hc hnil ih => exact absurd hnil (Naming.segmentsFrom_ne_nil r)
    | case4 c r hc u us hrest hslash ih => simp_all
    | case5 c r hc u us hrest hslash ih => simp_all
  exact hfrom s (List.mem_filter.1 hs).1

theorem not_mem_constantPath (h : '\n' ∉ t) : '\n' ∉ Naming.constantPath t := by
  refine not_mem_join (by decide) (List.forall_mem_map.2 fun s hs ↦ ?_)
  exact Naming.not_mem_pascalCase (by decide) (by decide) (by decide) (not_mem_of_mem_segments h hs)

theorem not_mem_of_mem_moduleNames (h : '\n' ∉ t) {n : Text} (hn : n ∈ Naming.moduleNames t) :
    '\n' ∉ n := by
  have hjoin : join "::" (Naming.moduleNames t) = Naming.constantPath t :=
    join_splitOnTextFrom (by decide) 0 _
  exact fun hmem ↦ not_mem_constantPath h (hjoin ▸ mem_join hn hmem)

/-- The text of an opening tag does not begin as that of a closing tag. -/
theorem not_close_of_openTag {html : Text} {token : Erb.Token} (h : token ∈ Erb.tokenize html)
    (hkind : token.kind = .openTag) : startsWith token.text "</" = false := by
  refine Erb.forall_mem_tokenize
    (P := fun k ↦ k.kind = .openTag → startsWith k.text "</" = false) ?_ html token h hkind
  intro t _ hopen
  rw [← Bool.not_eq_true]
  intro hclose
  obtain ⟨r, rfl⟩ := (List.isPrefixOf_iff_prefix.1 hclose).trans (List.take_prefix _ t)
  have hlexeme : (Erb.lexeme ("</" ++ r)).1 ≠ .openTag := by
    have hdirective : Erb.startsDirective ("</" ++ r) = false := rfl
    have hcomment : Erb.startsHtmlComment ("</" ++ r) = false := rfl
    have hslash : (("</" ++ r : Text)[1]? == some '/') = true := rfl
    rw [Erb.lexeme, hdirective, hcomment, hslash]
    cases hstart : Erb.startsTag ("</" ++ r) <;> simp
  exact hlexeme hopen

theorem not_mem_rootTag {html name : Text} (h : Erb.rootTag? html = some name) : '\n' ∉ name := by
  obtain ⟨token, htoken, rfl⟩ := Option.map_eq_some_iff.1 h
  have hopen := not_close_of_openTag (List.mem_of_find?_eq_some htoken)
    (by simpa using List.find?_some htoken)
  rw [Erb.parseTag, hopen, if_neg Bool.false_ne_true]
  intro hmem
  exact absurd (List.mem_takeWhile_imp hmem) (by decide)

end Characters

section Files

variable {c : Component} {ns : Text}

theorem not_mem_rubyDefault (h : c.IsUnbroken) {p : Property} (hp : p ∈ c.props) :
    '\n' ∉ p.rubyDefault := by
  have hdefault := (h.props p hp).2
  rw [Property.rubyDefault]
  split
  · decide
  next d hd =>
    split
    · decide
    · exact hdefault d hd

theorem mem_props_of_mem_classProps {p : Property} (hp : p ∈ c.classProps) : p ∈ c.props :=
  (normalizeProps_subperm c.props).subset ((Component.classProps_subperm c).subset hp)

theorem not_mem_classProps (h : c.IsUnbroken) {p : Property} (hp : p ∈ c.classProps) :
    '\n' ∉ p.name :=
  (h.props p (mem_props_of_mem_classProps hp)).1

theorem keeps_slotLines (h : c.IsUnbroken) : Keeps (slotLines c) := by
  rw [slotLines]
  split
  · refine keeps_map fun s hs ↦ ?_
    have hname := h.slots s hs
    cases hkind : s.kind
    · exact ⟨List.not_mem_append (by decide) hname, rfl, rfl⟩
    · exact ⟨List.not_mem_append (by decide) hname, rfl, rfl⟩
  split
  · exact IsPlain.keeps ⟨by decide, by decide, by decide⟩
  · exact keeps_nil

theorem not_mem_shapeParameters (c : Component) : ∀ n ∈ c.shapeParameters, '\n' ∉ n := by
  rw [Component.shapeParameters]
  split
  · decide
  split <;> decide

theorem keeps_readers (h : c.IsUnbroken) : Keeps (readers c) := by
  refine IsPlain.keeps ⟨List.not_mem_append (by decide) (not_mem_join (by decide) ?_), rfl, rfl⟩
  rw [List.forall_mem_map, List.forall_mem_append, List.forall_mem_map]
  refine ⟨fun p hp ↦ ?_, fun n hn ↦ ?_⟩
  · simp [not_mem_classProps h hp]
  · simp [not_mem_shapeParameters c n hn]

theorem not_mem_constructorParameters (h : c.IsUnbroken) :
    ∀ t ∈ constructorParameters c, '\n' ∉ t := by
  simp only [constructorParameters, List.forall_mem_append, List.forall_mem_map]
  refine ⟨⟨fun p hp ↦ ?_, fun n hn ↦ ?_⟩, fun t ht ↦ ?_⟩
  · have hprop := (List.mem_filter.1 hp).1
    have hname := not_mem_classProps h hprop
    rw [parameter]
    split
    · exact List.not_mem_append hname (by decide)
    · exact List.not_mem_append (List.not_mem_append hname (by decide))
        (not_mem_rubyDefault h (mem_props_of_mem_classProps hprop))
  · exact List.not_mem_append (not_mem_shapeParameters c n hn) (by decide)
  · simp only [Option.mem_toList, Option.map_eq_some_iff] at ht
    obtain ⟨p, hp, rfl⟩ := ht
    have hmem := (List.mem_filter.1 (List.mem_of_getLast? hp)).1
    simp [not_mem_classProps h hmem]

theorem not_mem_storedNames (h : c.IsUnbroken) : ∀ n ∈ storedNames c, '\n' ∉ n := by
  simp only [storedNames, List.forall_mem_append, List.forall_mem_map]
  refine ⟨⟨fun p hp ↦ ?_, not_mem_shapeParameters c⟩, fun t ht ↦ ?_⟩
  · exact not_mem_classProps h (List.mem_filter.1 hp).1
  · simp only [Option.mem_toList, Option.map_eq_some_iff] at ht
    obtain ⟨p, hp, rfl⟩ := ht
    exact not_mem_classProps h (List.mem_filter.1 (List.mem_of_getLast? hp)).1

theorem keeps_constructor (h : c.IsUnbroken) : Keeps (constructor c) := by
  refine keeps_method ?_ (List.forall_mem_map.2 fun n hn ↦ ?_)
  · exact List.not_mem_append (List.not_mem_append (by decide)
      (not_mem_join (by decide) (not_mem_constructorParameters h))) (by decide)
  · have hname := not_mem_storedNames h n hn
    exact ⟨List.not_mem_append (List.not_mem_append (List.not_mem_append (by decide) hname)
      (by decide)) hname, rfl, rfl⟩

theorem keeps_attributeRenderer (c : Component) : Keeps (attributeRenderer c) := by
  rw [attributeRenderer]
  split
  · refine keeps_method (by decide) (List.forall_mem_singleton.2 ?_)
    -- the literal is long, and its characters are only read off it once
    rw [String.toList_ofList]
    exact ⟨by decide, by decide, by decide⟩
  · exact keeps_nil

theorem keeps_collectionFactory (h : c.IsUnbroken) : Keeps (collectionFactory c) := by
  rw [collectionFactory]
  split
  · exact keeps_nil
  next p hp =>
    have hname := not_mem_classProps h (List.mem_of_find?_eq_some hp)
    refine keeps_method (by decide) (List.forall_mem_singleton.2 ⟨?_, rfl, rfl⟩)
    exact List.not_mem_append (List.not_mem_append (by decide) hname) (by decide)

theorem isPlain_quoted {t : Text} (h : '\n' ∉ t) : IsPlain (quoted t) :=
  ⟨not_mem_quoted h, rfl, rfl⟩

theorem keeps_caseMethod {name selector : Text} {classes : List (Text × Text)} (hname : '\n' ∉ name)
    (hselector : '\n' ∉ selector) (h : ∀ e ∈ classes, '\n' ∉ e.1 ∧ '\n' ∉ e.2) :
    Keeps [caseMethod name selector classes] := by
  refine (isHead_append (by decide) hname).keeps_block (IsHead.keeps_branches ?_ ?_)
  · rw [List.append_assoc]
    exact isHead_append (by decide) (List.not_mem_append hselector (by decide))
  · rw [List.forall_mem_append, List.forall_mem_map, List.forall_mem_singleton]
    refine ⟨fun e he ↦ ⟨?_, rfl, rfl⟩, by decide, by decide, by decide⟩
    obtain ⟨hkey, hvalue⟩ := h e he
    exact List.not_mem_append (List.not_mem_append (List.not_mem_append (by decide)
      (not_mem_quoted hkey)) (by decide)) (not_mem_quoted hvalue)

theorem keeps_styleMethods (h : c.IsUnbroken) : Keeps (styleMethods c) := by
  have hbase : '\n' ∉ (c.styles.getD {}).base := by
    cases hs : c.styles with
    | none => exact List.not_mem_nil
    | some s => exact h.base s hs
  have hclasses : ∀ e ∈ (c.styles.getD {}).variants ++ (c.styles.getD {}).sizes,
      '\n' ∉ e.1 ∧ '\n' ∉ e.2 := by
    cases hs : c.styles with
    | none => exact nofun
    | some s => exact h.classes s hs
  rw [List.forall_mem_append] at hclasses
  rw [styleMethods]
  split
  · refine keeps_separated ?_
    simp only [List.forall_mem_cons, List.not_mem_nil, false_imp_iff, implies_true, and_true]
    refine ⟨keeps_method (by decide) (List.forall_mem_singleton.2 (isPlain_quoted hbase)),
      keeps_caseMethod (by decide) (by decide) hclasses.1,
      keeps_caseMethod (by decide) (by decide) hclasses.2,
      keeps_method (by decide) (List.forall_mem_singleton.2 ?_)⟩
    rw [String.toList_ofList]
    exact ⟨by decide, by decide, by decide⟩
  · exact keeps_nil

theorem keeps_buttonType (c : Component) : Keeps (buttonType c) := by
  rw [buttonType]
  split
  · exact keeps_method (by decide) (List.forall_mem_singleton.2 ⟨by decide, by decide, by decide⟩)
  · exact keeps_nil

theorem keeps_classBody (h : c.IsUnbroken) : Keeps (classBody c) := by
  refine keeps_separated fun g hg ↦ ?_
  have hg := (List.mem_filter.1 hg).1
  simp only [List.mem_cons, List.not_mem_nil, or_false] at hg
  rcases hg with rfl | rfl | rfl | rfl | rfl | rfl | rfl
  · exact keeps_slotLines h
  · exact keeps_readers h
  · exact keeps_constructor h
  · exact keeps_attributeRenderer c
  · exact keeps_collectionFactory h
  · exact keeps_styleMethods h
  · exact keeps_buttonType c

theorem not_mem_pascalCase_name (h : c.IsUnbroken) : '\n' ∉ Naming.pascalCase c.name :=
  Naming.not_mem_pascalCase (by decide) (by decide) (by decide) h.name

theorem not_mem_className (h : c.IsUnbroken) : '\n' ∉ c.className :=
  List.not_mem_append (not_mem_pascalCase_name h) (by decide)

/-- Comments, blank lines and other plain lines, and behind them modules. -/
theorem keeps_modules {front : List Stmt} (hfront : Keeps front) (hns : '\n' ∉ ns)
    (h : Keeps stmts) : Keeps (front ++ inModules (Naming.moduleNames ns) stmts) :=
  hfront.append (keeps_inModules (fun _ hn ↦ not_mem_of_mem_moduleNames hns hn) h)

theorem keeps_frozenComment : Keeps [frozenComment, .blank] :=
  (IsPlain.keeps ⟨by decide, by decide, by decide⟩).append keeps_blank

theorem isBalanced_classFile (h : c.IsUnbroken) (hns : '\n' ∉ ns) :
    IsBalanced (classFile c ns) := by
  have hwarnings : Keeps (c.warnings.map fun w ↦ .line ("# WARNING: " ++ w)) :=
    keeps_map fun w hw ↦ ⟨List.not_mem_append (by decide) (h.warnings w hw), rfl, rfl⟩
  refine (isBalanced_fileText (keeps_modules (Keeps.append ?_ keeps_frozenComment) hns ?_)).2 rfl
  · split
    · exact keeps_nil
    · exact hwarnings.append keeps_blank
  · rw [List.append_assoc]
    refine (isHead_append (by decide) ?_).keeps_block (keeps_classBody h)
    exact List.not_mem_append (not_mem_className h) (by decide)

theorem not_mem_exampleValue {p : Property} (h : c.IsUnbroken) (hp : p ∈ c.props) :
    '\n' ∉ exampleValue p := by
  obtain ⟨hname, -⟩ := h.props p hp
  rw [exampleValue]
  split
  · exact not_mem_quoted (List.not_mem_append (by decide) hname)
  · decide
  · decide
  · decide
  · decide
  · exact not_mem_rubyDefault h hp

theorem not_mem_constant (h : c.IsUnbroken) (hns : '\n' ∉ ns) : '\n' ∉ c.constant ns :=
  List.not_mem_append (List.not_mem_append (not_mem_constantPath hns) (by decide))
    (not_mem_className h)

theorem not_mem_newCall (h : c.IsUnbroken) (hns : '\n' ∉ ns) {variant : Option Text}
    (hvariant : ∀ v ∈ variant, '\n' ∉ v) : '\n' ∉ newCall c ns variant := by
  have harguments : '\n' ∉ exampleArguments c variant := by
    refine not_mem_join (by decide) (List.forall_mem_append.2 ⟨?_, fun t ht ↦ ?_⟩)
    · refine List.forall_mem_map.2 fun p hp ↦ ?_
      have hp := (List.mem_filter.1 hp).1
      exact List.not_mem_append (List.not_mem_append (h.props p hp).1 (by decide))
        (not_mem_exampleValue h hp)
    · simp only [Option.mem_toList, Option.map_eq_some_iff] at ht
      obtain ⟨v, hv, rfl⟩ := ht
      exact List.not_mem_append (by decide) (not_mem_quoted (hvariant v hv))
  exact List.not_mem_append (List.not_mem_append (List.not_mem_append (not_mem_constant h hns)
    (by decide)) harguments) (by decide)

theorem keeps_renderTest (h : c.IsUnbroken) (hns : '\n' ∉ ns) {name : Text} (hname : '\n' ∉ name)
    {variant : Option Text} (hvariant : ∀ v ∈ variant, '\n' ∉ v) :
    Keeps (renderTest c ns name variant) := by
  have hselector : '\n' ∉ (Erb.rootTag? c.html).getD "div" := by
    cases htag : Erb.rootTag? c.html with
    | none => decide
    | some tag => exact not_mem_rootTag htag
  refine keeps_method hname ?_
  simp only [List.forall_mem_cons, List.not_mem_nil, false_imp_iff, implies_true, and_true]
  refine ⟨⟨?_, rfl, rfl⟩, ⟨nofun, rfl, rfl⟩, ⟨?_, rfl, rfl⟩⟩
  · exact List.not_mem_append (List.not_mem_append (by decide) (not_mem_newCall h hns hvariant))
      (by decide)
  · exact List.not_mem_append (List.not_mem_append (by decide) (not_mem_quoted hselector))
      (by decide)

theorem isBalanced_testFile (h : c.IsUnbroken) (hns : '\n' ∉ ns) : IsBalanced (testFile c ns) := by
  refine (isBalanced_fileText (keeps_modules ?_ hns ?_)).2 rfl
  · exact keeps_frozenComment.append
      ((IsPlain.keeps ⟨by decide, by decide, by decide⟩).append keeps_blank)
  · rw [List.append_assoc]
    refine (isHead_append (by decide) ?_).keeps_block (keeps_separated ?_)
    · exact List.not_mem_append (not_mem_className h) (by decide)
    · rw [List.forall_mem_cons, List.forall_mem_map]
      refine ⟨keeps_renderTest h hns (by decide) nofun, fun v hv ↦ ?_⟩
      have hvariant := h.variants v hv
      refine keeps_renderTest h hns ?_ fun w hw ↦ Option.mem_some.1 hw ▸ hvariant
      exact List.not_mem_append (List.not_mem_append (by decide) hvariant) (by decide)

theorem keeps_scenario (h : c.IsUnbroken) (hns : '\n' ∉ ns) {name block : Text}
    (hname : '\n' ∉ name) (hblock : '\n' ∉ block) {variant : Option Text}
    (hvariant : ∀ v ∈ variant, '\n' ∉ v) :
    Keeps [method name [("render(" ++ newCall c ns variant ++ ")" ++ block : Text)]] := by
  refine keeps_method hname (List.forall_mem_singleton.2 ⟨?_, rfl, rfl⟩)
  exact List.not_mem_append (List.not_mem_append (List.not_mem_append (by decide)
    (not_mem_newCall h hns hvariant)) (by decide)) hblock

theorem isBalanced_previewFile (h : c.IsUnbroken) (hns : '\n' ∉ ns) :
    IsBalanced (previewFile c ns) := by
  refine (isBalanced_fileText (keeps_modules keeps_frozenComment hns ?_)).2 rfl
  rw [List.append_assoc]
  refine (isHead_append (by decide) ?_).keeps_block (keeps_separated ?_)
  · exact List.not_mem_append (not_mem_className h) (by decide)
  have hblock : '\n' ∉
      (if c.isInteractive then " \x7b " ++ quoted c.name ++ " \x7d" else [] : Text) := by
    split
    · exact List.not_mem_append (List.not_mem_append (by decide) (not_mem_quoted h.name))
        (by decide)
    · exact List.not_mem_nil
  rw [List.forall_mem_cons, List.forall_mem_map]
  refine ⟨keeps_scenario h hns (by decide) hblock nofun, fun v hv ↦ ?_⟩
  exact keeps_scenario h hns (h.variants v hv) hblock fun w hw ↦
    Option.mem_some.1 hw ▸ h.variants v hv

end Files

section Helpers

variable {c : Component} {ns : Text}

/-- A call goes on with its arguments, so the line begins with the word that the name begins
with. -/
theorem leadingWord_call (name arguments : Text) :
    leadingWord (name ++ '(' :: arguments) = leadingWord name := by
  have hstop (u : Text) : (u ++ '(' :: arguments).takeWhile isIdentifierPart =
      u.takeWhile isIdentifierPart := by
    induction u with
    | nil => rfl
    | cons c u ih => rw [List.cons_append, List.takeWhile_cons, List.takeWhile_cons, ih]
  rw [leadingWord, leadingWord, List.dropWhile_append]
  split
  next hnil =>
    rw [List.isEmpty_iff] at hnil
    rw [hnil]
    rfl
  next => exact hstop _

def isBlockWord (name : Text) : Bool := isOpener name || isCloser name

/-- A group that keeps the depth unless the component has a name that reads as a word of Ruby's. -/
def Hinges (c : Component) (group : List Stmt) : Prop :=
  (isBlockWord c.snakeName = false → Keeps group) ∧ (isBlockWord c.snakeName = true → Fails group)

theorem hinges_call {signature arguments : Text} (h : c.IsUnbroken) (hsignature : '\n' ∉ signature)
    (harguments : '\n' ∉ arguments) :
    Hinges c [method signature [c.snakeName ++ '(' :: arguments]] := by
  have hunbroken : '\n' ∉ c.snakeName ++ '(' :: arguments :=
    List.not_mem_append h.snakeName (by simp [harguments])
  have hopener : isOpener (c.snakeName ++ '(' :: arguments) = isOpener c.snakeName := by
    rw [isOpener, leadingWord_call, isOpener]
  have hcloser : isCloser (c.snakeName ++ '(' :: arguments) = isCloser c.snakeName := by
    rw [isCloser, leadingWord_call, isCloser]
  rw [Hinges, isBlockWord, Bool.or_eq_false_iff, Bool.or_eq_true]
  refine ⟨fun hword ↦ ?_, fun hword ↦ ?_⟩
  · refine keeps_method hsignature (List.forall_mem_singleton.2 ?_)
    exact ⟨hunbroken, hopener.trans hword.1, hcloser.trans hword.2⟩
  · rw [← hopener, ← hcloser] at hword
    exact fails_method hsignature hunbroken hword

def callsHelper (c : Component) : Bool :=
  if c.isInteractive then !c.variants.isEmpty || !c.sizes.isEmpty else c.isIcon

theorem hinges_interactiveHelpers (h : c.IsUnbroken) {constant : Text}
    (hconstant : '\n' ∉ constant) :
    ∃ own calls, interactiveHelpers c constant = own :: calls ∧ Keeps own ∧
      (∀ g ∈ calls, Hinges c g) ∧ (calls = [] ↔ c.variants = [] ∧ c.sizes = []) := by
  have hsignature {n : Text} (hn : '\n' ∉ n) : '\n' ∉ n ++ "(text = nil, **options, &block)" :=
    List.not_mem_append hn (by decide)
  have hcall {n key value : Text} (hn : '\n' ∉ n) (hkey : '\n' ∉ key) (hvalue : '\n' ∉ value) :
      Hinges c [method (n ++ "(text = nil, **options, &block)")
        [c.snakeName ++ "(text, **options.merge(" ++ key ++ ": " ++ quoted value ++
          "), &block)"]] := by
    have hshape : c.snakeName ++ "(text, **options.merge(" ++ key ++ ": " ++ quoted value ++
        "), &block)" = c.snakeName ++ '(' ::
          ("text, **options.merge(" ++ key ++ ": " ++ quoted value ++ "), &block)" : Text) := by
      simp only [List.append_assoc]
      rfl
    rw [hshape]
    refine hinges_call h (hsignature hn) ?_
    exact List.not_mem_append (List.not_mem_append (List.not_mem_append (List.not_mem_append
      (by decide) hkey) (by decide)) (not_mem_quoted hvalue)) (by decide)
  refine ⟨_, _, rfl, keeps_method (hsignature h.snakeName) ?_, ?_, by simp⟩
  · simp only [List.forall_mem_cons, List.not_mem_nil, false_imp_iff, implies_true, and_true]
    refine ⟨⟨?_, rfl, rfl⟩, ⟨by decide, by decide, by decide⟩, ⟨nofun, rfl, rfl⟩,
      ⟨by decide, by decide, by decide⟩⟩
    exact List.not_mem_append (List.not_mem_append (by decide) hconstant) (by decide)
  · refine List.forall_mem_append.2
      ⟨List.forall_mem_map.2 fun v hv ↦ ?_, List.forall_mem_map.2 fun s hs ↦ ?_⟩
    · exact hcall (List.not_mem_append (List.not_mem_append (h.variants v hv) (by decide))
        h.snakeName) (by decide) (h.variants v hv)
    · exact hcall (List.not_mem_append (List.not_mem_append h.snakeName (by decide))
        (h.sizes s hs)) (by decide) (h.sizes s hs)

theorem helperMethods_cases (h : c.IsUnbroken) {constant : Text} (hconstant : '\n' ∉ constant) :
    (∀ g ∈ helperMethods c constant, Keeps g ∨ callsHelper c = true ∧ Hinges c g) ∧
      (callsHelper c = true → ∃ g ∈ helperMethods c constant, Hinges c g) := by
  have hname {rest : Text} (hrest : '\n' ∉ rest) : '\n' ∉ c.snakeName ++ rest :=
    List.not_mem_append h.snakeName hrest
  have hrender {rest : Text} (hrest : '\n' ∉ rest) : '\n' ∉ "render(" ++ constant ++ rest :=
    List.not_mem_append (List.not_mem_append (by decide) hconstant) hrest
  rw [helperMethods, callsHelper]
  split
  · obtain ⟨own, calls, heq, hown, hcalls, hnil⟩ := hinges_interactiveHelpers h hconstant
    have hsome : (!c.variants.isEmpty || !c.sizes.isEmpty) = true ↔ calls ≠ [] := by
      simp [hnil, ← not_and_or]
    rw [heq, hsome, List.forall_mem_cons]
    refine ⟨⟨.inl hown, fun g hg ↦ .inr ⟨List.ne_nil_of_mem hg, hcalls g hg⟩⟩, fun hne ↦ ?_⟩
    obtain ⟨g, hg⟩ := List.exists_mem_of_ne_nil calls hne
    exact ⟨g, List.mem_cons_of_mem own hg, hcalls g hg⟩
  split
  next hicon =>
    have hsized : Hinges c [method (c.snakeName ++ "_sized(size, **options)")
        [c.snakeName ++ "(**options.merge(size: size))"]] :=
      hinges_call h (hname (by decide)) (by decide)
    refine ⟨List.forall_mem_cons.2 ⟨.inl ?_, List.forall_mem_singleton.2 (.inr ⟨hicon, hsized⟩)⟩,
      fun _ ↦ ⟨_, List.mem_cons_of_mem _ (List.mem_singleton_self _), hsized⟩⟩
    exact keeps_method (hname (by decide))
      (List.forall_mem_singleton.2 ⟨hrender (by decide), rfl, rfl⟩)
  next hicon =>
    refine ⟨List.forall_mem_cons.2 ⟨.inl ?_, List.forall_mem_singleton.2 (.inl ?_)⟩,
      fun hcall ↦ absurd hcall hicon⟩
    · exact keeps_method (hname (by decide))
        (List.forall_mem_singleton.2 ⟨hrender (by decide), rfl, rfl⟩)
    · exact keeps_method (hname (by decide))
        (List.forall_mem_singleton.2 ⟨hrender (by decide), rfl, rfl⟩)

/-- The helpers are balanced unless one of them calls another by a name that reads as a word of
Ruby's. -/
theorem isBalanced_helperFile (h : c.IsUnbroken) (hns : '\n' ∉ ns) :
    IsBalanced (helperFile c ns) ↔ ¬(callsHelper c = true ∧ isBlockWord c.snakeName = true) := by
  have hmodules : ∀ n ∈ Naming.moduleNames ns ++ [Naming.pascalCase c.name ++ "Helper"],
      '\n' ∉ n := by
    rw [List.forall_mem_append, List.forall_mem_singleton]
    exact ⟨fun n hn ↦ not_mem_of_mem_moduleNames hns hn,
      List.not_mem_append (not_mem_pascalCase_name h) (by decide)⟩
  obtain ⟨hgroups, hcalls⟩ := helperMethods_cases h (not_mem_constant h hns)
  constructor
  · rintro hbalanced ⟨hcall, hword⟩
    obtain ⟨g, hg, hhinges⟩ := hcalls hcall
    have hfails : Fails (separated (helperMethods c (c.constant ns))) := by
      refine fails_separated (fun g hg ↦ ?_) hg (hhinges.2 hword)
      exact (hgroups g hg).imp_right fun hg ↦ hg.2.2 hword
    exact absurd ((isBalanced_fileText (keeps_frozenComment.append
      (fails_inModules hmodules hfails))).1 hbalanced) nofun
  · intro hsafe
    refine (isBalanced_fileText (keeps_frozenComment.append
      (keeps_inModules hmodules (keeps_separated fun g hg ↦ ?_)))).2 rfl
    rcases hgroups g hg with hg | ⟨hcall, hg⟩
    · exact hg
    · exact hg.1 (Bool.eq_false_iff.2 fun hword ↦ hsafe ⟨hcall, hword⟩)

/-- The class, the test and the preview of a component without line breaks in its texts are
balanced, and so are its helpers unless one of them calls another by a name that reads as a word of
Ruby's. -/
theorem isBalanced_files (c : Component) (ns : Text) (h : c.IsUnbroken) (hns : '\n' ∉ ns) :
    IsBalanced (classFile c ns) ∧ IsBalanced (testFile c ns) ∧ IsBalanced (previewFile c ns) ∧
      (IsBalanced (helperFile c ns) ↔ ¬(callsHelper c = true ∧ isBlockWord c.snakeName = true)) :=
  ⟨isBalanced_classFile h hns, isBalanced_testFile h hns, isBalanced_previewFile h hns,
    isBalanced_helperFile h hns⟩

def adminButton : Component where
  name := "Button"
  snakeName := "button"
  props := [{ name := "tags", type := .array, required := false, default := some "[]" },
    { name := "icon" }, { name := "attrs", isRest := true }]
  html := "<button><%= render_attributes(attrs) %><%= icon %></button>"
  warnings := ["Component uses React hook: useId."]
  slots := [{ name := "icon", prop := "icon" }]
  isInteractive := true
  variants := ["primary", "plain"]
  sizes := ["lg"]
  styles := some { base := "btn", variants := [("primary", "btn-blue")], sizes := [("lg", "p-4")] }

theorem isBalanced_files_adminButton :
    adminButton.IsUnbroken ∧ IsBalanced (classFile adminButton "Admin::Forms") ∧
      IsBalanced (testFile adminButton "Admin::Forms") ∧
      IsBalanced (previewFile adminButton "Admin::Forms") ∧
      IsBalanced (helperFile adminButton "Admin::Forms") := by
  have h : adminButton.IsUnbroken :=
    ⟨by decide, by decide, by decide, by decide, by decide, by decide, by decide, by decide,
      by decide⟩
  obtain ⟨hclass, htest, hpreview, hhelper⟩ :=
    isBalanced_files adminButton "Admin::Forms" h (by decide)
  exact ⟨h, hclass, htest, hpreview, hhelper.2 (by decide)⟩

def namedIcon (name : Text) : Component where
  name := name
  snakeName := Naming.snakeCase name
  html := "<svg><path /></svg>"
  isIcon := true
  svg := some "<svg><path /></svg>"

/-- Two icons whose sized helper begins its only line with `case` and with `def`. -/
theorem not_isBalanced_namedIcon :
    ((namedIcon "Case").IsUnbroken ∧ ¬IsBalanced (helperFile (namedIcon "Case") "Ui")) ∧
      (namedIcon "def menu").IsUnbroken ∧
      ¬IsBalanced (helperFile (namedIcon "def menu") "Ui") := by
  have hcase : (namedIcon "Case").IsUnbroken :=
    ⟨by decide, by decide, by decide, by decide, by decide, by decide, by decide, by decide,
      by decide⟩
  have hdef : (namedIcon "def menu").IsUnbroken :=
    ⟨by decide, by decide, by decide, by decide, by decide, by decide, by decide, by decide,
      by decide⟩
  refine ⟨⟨hcase, fun hbalanced ↦ ?_⟩, hdef, fun hbalanced ↦ ?_⟩
  · exact (isBalanced_helperFile hcase (by decide)).1 hbalanced ⟨rfl, by decide⟩
  · exact (isBalanced_helperFile hdef (by decide)).1 hbalanced ⟨rfl, by decide⟩

end Helpers

end Ruby

end ViewForge
