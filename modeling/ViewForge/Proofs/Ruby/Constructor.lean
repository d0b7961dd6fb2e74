import Mathlib.Data.List.Nodup
import Mathlib.Data.List.Perm.Subperm
import ViewForge.Component.Build
import ViewForge.Ruby.Class

namespace ViewForge

theorem nodup_names_of_subperm {ps qs : List Property} (h : ps.Subperm qs)
    (hq : (qs.map (·.name)).Nodup) : (ps.map (·.name)).Nodup := by
  obtain ⟨l, hl, hsub⟩ := h
  exact (hl.map _).nodup_iff.1 ((hsub.map _).nodup hq)

theorem normalizeProps_subperm (ps : List Property) : (normalizeProps ps).Subperm ps := by
  have hrest := (List.take_sublist 1 (ps.filter (·.isRest))).append_left (ps.filter (!·.isRest))
  have hsplit : (ps.filter (!·.isRest) ++ ps.filter (·.isRest)).Perm ps :=
    List.perm_append_comm.trans (List.filter_append_perm _ _)
  exact hrest.subperm.trans hsplit.subperm

namespace Component

theorem requiredProps_append_optionalProps (c : Component) :
    (c.requiredProps ++ c.optionalProps).Perm (c.props.filter (!·.isRest)) := by
  have hrequired : c.requiredProps = (c.props.filter (!·.isRest)).filter (·.required) := by
    rw [requiredProps, List.filter_filter]
  have hoptional : c.optionalProps = (c.props.filter (!·.isRest)).filter (!·.required) := by
    rw [optionalProps, List.filter_filter]
  rw [hrequired, hoptional]
  exact List.filter_append_perm _ _

theorem restProp?_toList (c : Component) :
    c.restProp?.toList = (c.props.filter (·.isRest)).take 1 := by
  rw [restProp?, ← List.head?_filter]
  cases c.props.filter (·.isRest) <;> rfl

theorem classProps_subperm (c : Component) : c.classProps.Subperm (normalizeProps c.props) := by
  rw [classProps, restProp?_toList]
  exact List.filter_sublist.subperm.trans
    (c.requiredProps_append_optionalProps.append_right _).subperm

/-- The rest prop is the only one of the class, and stands last. -/
theorem classProps_filter_isRest (c : Component) :
    c.classProps.filter (·.isRest) = (c.classProps.filter (·.isRest)).getLast?.toList := by
  have hregular (p : Property) (hp : p ∈ c.requiredProps ++ c.optionalProps) :
      p.isRest = false := by
    have hmem := c.requiredProps_append_optionalProps.subset hp
    simpa using (List.mem_filter.1 hmem).2
  have hrest : (c.requiredProps ++ c.optionalProps).filter (·.isRest) = [] :=
    List.filter_eq_nil_iff.2 fun p hp ↦ by simp [hregular p hp]
  have hlength : (c.classProps.filter (·.isRest)).length ≤ 1 := by
    rw [classProps, List.filter_comm, List.filter_append, hrest, restProp?_toList,
      List.nil_append]
    calc _ ≤ _ := List.length_filter_le _ _
      _ ≤ _ := List.length_filter_le _ _
      _ ≤ 1 := List.length_take_le 1 _
  generalize c.classProps.filter (·.isRest) = ps at hlength
  match ps, hlength with
  | [], _ => rfl
  | [p], _ => rfl

end Component

namespace Ruby

/-- A keyword parameter as a signature declares it. -/
inductive Keyword where
  | required (name : Text)
  | optional (name default : Text)
  | rest (name : Text)

namespace Keyword

def name : Keyword → Text
  | .required name | .optional name _ | .rest name => name

def text : Keyword → Text
  | .required name => name ++ [':']
  | .optional name default => name ++ ": " ++ default
  | .rest name => '*' :: '*' :: name

def ofProperty (p : Property) : Keyword :=
  if p.required then .required p.name else .optional p.name p.rubyDefault

theorem name_ofProperty (p : Property) : (ofProperty p).name = p.name := by
  unfold ofProperty
  split <;> rfl

theorem text_ofProperty (p : Property) : (ofProperty p).text = parameter p := by
  unfold ofProperty parameter
  split <;> rfl

end Keyword

/-- The parameters of the constructor: those of the props, those of the shape, and the rest. -/
def keywords (c : Component) : List Keyword :=
  (c.classProps.filter (!·.isRest)).map .ofProperty ++
    c.shapeParameters.map (.optional · "nil") ++
    (c.classProps.filter (·.isRest)).getLast?.toList.map (.rest ·.name)

theorem constructorParameters_eq (c : Component) :
    constructorParameters c = (keywords c).map Keyword.text := by
  have hrest (o : Option Property) : (o.map fun p ↦ '*' :: '*' :: p.name).toList =
      (o.toList.map (Keyword.rest ·.name)).map Keyword.text := by
    cases o <;> rfl
  have hregular : Keyword.text ∘ Keyword.ofProperty = parameter := funext Keyword.text_ofProperty
  have hshape : Keyword.text ∘ (Keyword.optional · "nil") = fun n : Text ↦ n ++ ": nil" := by
    funext n
    simp [Keyword.text]
  simp only [constructorParameters, keywords, List.map_append, hrest, List.map_map, hregular,
    hshape]

/-- The names of the parameters are those of the class's props and those of the shape. -/
theorem names_keywords_perm (c : Component) :
    ((keywords c).map Keyword.name).Perm (c.classProps.map (·.name) ++ c.shapeParameters) := by
  have hregular : ((c.classProps.filter (!·.isRest)).map Keyword.ofProperty).map Keyword.name =
      (c.classProps.filter (!·.isRest)).map (·.name) := by
    rw [List.map_map]
    exact List.map_congr_left fun p _ ↦ Keyword.name_ofProperty p
  have hshape : (c.shapeParameters.map (Keyword.optional · "nil")).map Keyword.name =
      c.shapeParameters := by
    rw [List.map_map]
    exact List.map_id _
  have hsplit : (c.classProps.filter (!·.isRest) ++ c.classProps.filter (·.isRest)).Perm
      c.classProps := List.perm_append_comm.trans (List.filter_append_perm _ _)
  rw [keywords, ← c.classProps_filter_isRest, List.map_append, List.map_append, hregular, hshape,
    List.map_map, List.append_assoc]
  refine (List.perm_append_comm.append_left _).trans ?_
  rw [← List.append_assoc]
  refine List.Perm.append_right _ ?_
  have hnames := hsplit.map (·.name)
  rwa [List.map_append] at hnames

theorem nodup_shapeParameters (c : Component) : c.shapeParameters.Nodup := by
  unfold Component.shapeParameters
  split
  · decide
  · split <;> decide

/-- The parameters of a constructor have different names just if no prop of the class has a name
that the shape of the component also uses. -/
theorem nodup_keywords_iff (withSlots : Bool) (d : Definition)
    (h : (d.props.map (·.name)).Nodup) :
    constructorParameters (.ofDefinition withSlots d) =
      (keywords (.ofDefinition withSlots d)).map Keyword.text ∧
    (((keywords (.ofDefinition withSlots d)).map Keyword.name).Nodup ↔
      ∀ p ∈ (Component.ofDefinition withSlots d).classProps,
        p.name ∉ (Component.ofDefinition withSlots d).shapeParameters) := by
  have hprops : ((Component.ofDefinition withSlots d).props.map (·.name)).Nodup :=
    nodup_names_of_subperm (normalizeProps_subperm d.props) h
  generalize Component.ofDefinition withSlots d = c at hprops
  have hclass : (c.classProps.map (·.name)).Nodup :=
    nodup_names_of_subperm (c.classProps_subperm.trans (normalizeProps_subperm _)) hprops
  refine ⟨constructorParameters_eq c, ?_⟩
  rw [(names_keywords_perm c).nodup_iff, List.nodup_append']
  simp only [hclass, nodup_shapeParameters, true_and]
  rw [List.disjoint_left, List.forall_mem_map]

def sized (name tag : Text) : Definition where
  name
  props := [{ name := "size" }, { name := "others", required := false, isRest := true },
    { name := "label" }]
  roots := [.element tag [] [.container (some (.identifier "label" [] "label"))] false]

theorem nodup_keywords_iff_sizedBox :
    constructorParameters (.ofDefinition true (sized "Box" "div")) =
      ["size:", "label:", "html_class: nil", "**others"] ∧
    ((keywords (.ofDefinition true (sized "Box" "div"))).map Keyword.name).Nodup := by
  obtain ⟨hparameters, hnodup⟩ := nodup_keywords_iff true (sized "Box" "div") (by decide)
  exact ⟨hparameters.trans (by decide +kernel), hnodup.2 (by decide +kernel)⟩

/-- The shape of a button brings a size of its own. -/
theorem not_nodup_keywords_sizedButton :
    ((sized "Button" "button").props.map (·.name)).Nodup ∧
    constructorParameters (.ofDefinition true (sized "Button" "button")) =
      ["size:", "label:", "variant: nil", "size: nil", "html_class: nil", "**others"] ∧
    ¬((keywords (.ofDefinition true (sized "Button" "button"))).map Keyword.name).Nodup := by
  exact ⟨by decide, by decide +kernel, by decide +kernel⟩

end Ruby

end ViewForge
