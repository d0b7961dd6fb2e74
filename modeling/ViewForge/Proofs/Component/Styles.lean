import ViewForge.Component.Build
import ViewForge.Proofs.Template.Actions

namespace ViewForge

open Text Markup Template

namespace Shape

/-- Each group has the classes that hold its name as a word, in their order. -/
structure Groups (classes names : List Text) (groups : List (Text × Text)) : Prop where
  keys : (groups.map (·.1)).Sublist names
  found : ∀ g ∈ groups, words g.2 = classes.filter (hasWord g.1)
  complete : ∀ w ∈ classes, ∀ key ∈ names, hasWord key w = true → ∃ g ∈ groups, g.1 = key

def isGrouped (w : Text) : Bool := (variantNames ++ sizeNames).any (hasWord · w)

/-- The classes are shared out: those of no group, in their order, are the base. -/
structure SharesOut (classes : List Text) (s : StyleVariants) : Prop where
  base : words s.base = classes.filter (!isGrouped ·)
  variants : Groups classes variantNames s.variants
  sizes : Groups classes sizeNames s.sizes

section Group

variable {classes names : List Text} {groups : List (Text × Text)} {w : Text}

theorem group_cons (classes : List Text) (key : Text) (names : List Text) :
    group classes (key :: names) =
      if (classes.filter (hasWord key)).isEmpty then group classes names
      else (key, join " " (classes.filter (hasWord key))) :: group classes names := by
  rw [group, List.filterMap_cons]
  dsimp only
  split
  next h =>
    rw [if_pos (by simpa using h)]
    rfl
  next h =>
    obtain ⟨hfound, hg⟩ := Option.ite_none_left_eq_some.1 h
    rw [if_neg hfound, ← Option.some.inj hg]
    rfl

theorem keys_group (classes names : List Text) :
    ((group classes names).map (·.1)).Sublist names := by
  induction names with
  | nil => exact List.Sublist.refl []
  | cons key names ih =>
    rw [group_cons]
    split
    · exact ih.cons key
    · exact ih.cons_cons key

theorem mem_group {classes names : List Text} {g : Text × Text} : g ∈ group classes names ↔
    g.1 ∈ names ∧ classes.filter (hasWord g.1) ≠ [] ∧
      g.2 = join " " (classes.filter (hasWord g.1)) := by
  rw [group, List.mem_filterMap]
  constructor
  · rintro ⟨key, hkey, h⟩
    obtain ⟨hfound, hg⟩ := Option.ite_none_left_eq_some.1 h
    cases hg
    exact ⟨hkey, by simpa using hfound, rfl⟩
  · rintro ⟨hkey, hfound, htext⟩
    refine ⟨g.1, hkey, Option.ite_none_left_eq_some.2 ⟨by simpa using hfound, ?_⟩⟩
    rw [← htext]

theorem groups_group (h : ∀ w ∈ classes, IsWord w) (names : List Text) :
    Groups classes names (group classes names) := by
  refine ⟨keys_group classes names, fun g hg ↦ ?_, fun w hw key hkey hword ↦ ?_⟩
  · rw [(mem_group.1 hg).2.2]
    exact words_join fun w hw ↦ h w (List.mem_filter.1 hw).1
  · have hfound : w ∈ classes.filter (hasWord key) := List.mem_filter.2 ⟨hw, hword⟩
    exact ⟨(key, join " " (classes.filter (hasWord key))),
      mem_group.2 ⟨hkey, List.ne_nil_of_mem hfound, rfl⟩, rfl⟩

theorem Groups.exists_mem_iff (h : Groups classes names groups) (hw : w ∈ classes) :
    (∃ g ∈ groups, w ∈ words g.2) ↔ ∃ key ∈ names, hasWord key w = true := by
  constructor
  · rintro ⟨g, hg, hmem⟩
    rw [h.found g hg] at hmem
    exact ⟨g.1, h.keys.subset (List.mem_map_of_mem hg), (List.mem_filter.1 hmem).2⟩
  · rintro ⟨key, hkey, hword⟩
    obtain ⟨g, hg, rfl⟩ := h.complete w hw key hkey hword
    refine ⟨g, hg, ?_⟩
    rw [h.found g hg]
    exact List.mem_filter.2 ⟨hw, hword⟩

/-- Splitting a class list loses none of its classes. -/
theorem sharesOut_splitClasses (h : ∀ w ∈ classes, IsWord w) :
    SharesOut classes (splitClasses classes) := by
  have hvariants := groups_group h variantNames
  have hsizes := groups_group h sizeNames
  refine ⟨?_, hvariants, hsizes⟩
  rw [splitClasses]
  dsimp only
  rw [words_join fun w hw ↦ h w (List.mem_filter.1 hw).1]
  refine List.filter_congr fun w hw ↦ congrArg (!·) ?_
  rw [Bool.eq_iff_iff, List.contains_iff_mem, List.mem_flatMap, isGrouped, List.any_eq_true]
  simp only [List.mem_append, or_and_right, exists_or]
  exact or_congr (hvariants.exists_mem_iff hw) (hsizes.exists_mem_iff hw)

/-- Every class is in the base, or in a group. -/
theorem SharesOut.mem {s : StyleVariants} (h : SharesOut classes s) (hw : w ∈ classes) :
    w ∈ words s.base ∨ ∃ g ∈ s.variants ++ s.sizes, w ∈ words g.2 := by
  cases hgrouped : isGrouped w with
  | false =>
    rw [h.base]
    exact .inl (List.mem_filter.2 ⟨hw, by rw [hgrouped]; rfl⟩)
  | true =>
    rw [isGrouped, List.any_append, Bool.or_eq_true, List.any_eq_true, List.any_eq_true] at hgrouped
    rcases hgrouped with hkey | hkey
    · obtain ⟨g, hg, hmem⟩ := (h.variants.exists_mem_iff hw).2 hkey
      exact .inr ⟨g, List.mem_append_left _ hg, hmem⟩
    · obtain ⟨g, hg, hmem⟩ := (h.sizes.exists_mem_iff hw).2 hkey
      exact .inr ⟨g, List.mem_append_right _ hg, hmem⟩

end Group

end Shape

/-- An interactive component has the classes of its root's literal class list in its styles. -/
theorem exists_styles (withSlots : Bool) (d : Definition) {e : Element}
    (hroot : d.roots.head?.bind Node.rootElement? = some e)
    (h : (Component.ofDefinition withSlots d).isInteractive = true) :
    ∃ s, (Component.ofDefinition withSlots d).styles = some s ∧
      Shape.SharesOut (words ((Shape.staticClass? e).getD [])) s := by
  refine ⟨_, ?_, Shape.sharesOut_splitClasses fun w ↦ isWord_of_mem_words⟩
  have hinteractive : (Shape.ofRoot d.name d.roots.head?).isInteractive = true := h
  have hstyles : (Component.ofDefinition withSlots d).styles =
      (Shape.ofRoot d.name d.roots.head?).styles := rfl
  rw [hstyles]
  rw [Shape.ofRoot, hroot] at hinteractive ⊢
  exact if_pos hinteractive

end ViewForge
