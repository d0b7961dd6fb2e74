import Mathlib.Data.List.Chain
import ViewForge.Proofs.Erb.DirectiveLayout
import ViewForge.Proofs.Markup.Bindings
import ViewForge.Proofs.Text.Splitting

namespace ViewForge.Markup

open Text Erb

def Quiet (t : Text) : Prop := ¬("<!" : Text) <:+: t

instance (t : Text) : Decidable (Quiet t) := inferInstanceAs (Decidable (¬_))

variable {t u : Text}

section Pieces

theorem quiet_iff_isChain : Quiet t ↔ t.IsChain fun a b ↦ a ≠ '<' ∨ b ≠ '!' := by
  induction t with
  | nil => simp [Quiet]
  | cons c t ih =>
    have hstart : ("<!" : Text) <+: c :: t ↔ c = '<' ∧ t.head? = some '!' := by
      cases t with
      | nil => simp
      | cons d t =>
        change ['<', '!'] <+: _ ↔ _
        simp [List.cons_prefix_cons, eq_comm]
    rw [List.isChain_cons, ← ih, Quiet, List.infix_cons_iff, hstart, Quiet]
    constructor
    · intro h
      refine ⟨fun d hd ↦ ?_, fun hin ↦ h (.inr hin)⟩
      by_contra hboth
      simp only [ne_eq, not_or, not_not] at hboth
      exact h (.inl ⟨hboth.1, hboth.2 ▸ hd⟩)
    · rintro ⟨hhead, hquiet⟩ (⟨rfl, hd⟩ | hin)
      · exact (hhead '!' hd).elim (fun h ↦ h rfl) fun h ↦ h rfl
      · exact hquiet hin

theorem quiet_append_iff : Quiet (t ++ u) ↔
    Quiet t ∧ Quiet u ∧ (t.getLast? = some '<' → u.head? ≠ some '!') := by
  rw [quiet_iff_isChain, quiet_iff_isChain, quiet_iff_isChain, List.isChain_append]
  refine and_congr_right fun _ ↦ and_congr_right fun _ ↦
    ⟨fun h hlast hhead ↦ ?_, fun h a ha b hb ↦ ?_⟩
  · exact (h '<' hlast '!' hhead).elim (fun h ↦ h rfl) fun h ↦ h rfl
  · by_contra hboth
    simp only [ne_eq, not_or, not_not] at hboth
    obtain ⟨rfl, rfl⟩ := hboth
    exact h ha hb

theorem Quiet.within (h : Quiet t) (hin : u <:+: t) : Quiet u := fun hu ↦ h (hu.trans hin)

theorem Quiet.append_of_last (ht : Quiet t) (hu : Quiet u) (hlast : t.getLast? ≠ some '<') :
    Quiet (t ++ u) :=
  quiet_append_iff.2 ⟨ht, hu, fun h ↦ absurd h hlast⟩

theorem Quiet.append_of_head (ht : Quiet t) (hu : Quiet u) (hhead : u.head? ≠ some '!') :
    Quiet (t ++ u) :=
  quiet_append_iff.2 ⟨ht, hu, fun _ ↦ hhead⟩

theorem quiet_of_not_mem (h : '<' ∉ t) : Quiet t := fun hin ↦ h (hin.subset (by decide))

/-- Text between two pieces of which the first does not end in `<` and the second does not begin
with `!`. -/
theorem Quiet.enclosed {before after : Text} (ht : Quiet t) (hbefore : Quiet before)
    (hlast : before.getLast? ≠ some '<') (hafter : Quiet after) (hhead : after.head? ≠ some '!') :
    Quiet (before ++ t ++ after) :=
  (hbefore.append_of_last ht hlast).append_of_head hafter hhead

theorem Quiet.joined {sep : Text} (ht : Quiet t) (hu : Quiet u)
    (hsep : sep ≠ [] ∧ '<' ∉ sep ∧ '!' ∉ sep) : Quiet (t ++ sep ++ u) := by
  obtain ⟨hne, hlt, hbang⟩ := hsep
  have hfront : Quiet (t ++ sep) := by
    refine ht.append_of_head (quiet_of_not_mem hlt) fun hhead ↦ ?_
    exact hbang (List.mem_of_head? hhead)
  refine hfront.append_of_last hu fun hlast ↦ ?_
  rw [List.getLast?_append_of_ne_nil t hne] at hlast
  exact hlt (List.mem_of_getLast? hlast)

end Pieces

section Spelling

/-- Letters exchanged for others, none of which is a mark of its own. -/
inductive Respelt : Text → Text → Prop
  | nil : Respelt [] []
  | same (c : Char) {t u : Text} : Respelt t u → Respelt (c :: t) (c :: u)
  | other (c : Char) {w t u : Text} : w ≠ [] → (∀ d ∈ w, d ≠ '<' ∧ d ≠ '!') → Respelt t u →
      Respelt (c :: t) (w ++ u)

theorem Respelt.head (h : Respelt t u) (hu : u.head? = some '!') : t.head? = some '!' := by
  cases h with
  | nil => exact hu
  | same => exact hu
  | @other c w t u hne hw =>
    obtain ⟨d, w, rfl⟩ := List.exists_cons_of_ne_nil hne
    exact absurd (Option.some.inj hu) (hw d List.mem_cons_self).2

theorem Respelt.quiet (h : Respelt t u) (ht : Quiet t) : Quiet u := by
  induction h with
  | nil => exact ht
  | same c h ih =>
    obtain ⟨hc, ht, hhead⟩ := quiet_append_iff.1 (show Quiet ([c] ++ _) from ht)
    exact quiet_append_iff.2 ⟨hc, ih ht, fun hlast hu ↦ hhead hlast (h.head hu)⟩
  | @other c w t u hne hw h ih =>
    have hmark : '<' ∉ w := fun hmem ↦ (hw '<' hmem).1 rfl
    refine (quiet_of_not_mem hmark).append_of_last (ih (ht.within (List.suffix_cons c t).isInfix)) ?_
    exact fun hlast ↦ hmark (List.mem_of_getLast? hlast)

theorem Respelt.char {c d : Char} (h : Respelt t u) (hd : d = c ∨ d ≠ '<' ∧ d ≠ '!') :
    Respelt (c :: t) (d :: u) := by
  rcases hd with rfl | hd
  · exact .same d h
  · exact .other c (List.cons_ne_nil d []) (List.forall_mem_singleton.2 hd) h

theorem respelt_lowerFrom (inWord : Bool) (t : Text) : Respelt t (lowerFrom inWord t) := by
  induction t generalizing inWord with
  | nil => exact .nil
  | cons c t ih =>
    rw [lowerFrom]
    have hrest := ih (isCased c || (inWord && isCaseIgnorable c))
    split
    · refine hrest.char (.inr ?_)
      split <;> decide
    · split
      · refine .other c (List.cons_ne_nil 'i' [Char.ofNat 0x307]) ?_ hrest
        exact List.forall_mem_cons.2 ⟨by decide, List.forall_mem_singleton.2 (by decide)⟩
      · refine hrest.char ?_
        have hmark {d : Char} (hd : d.toNat < 97) (h : 97 ≤ (lowerChar c).toNat) :
            lowerChar c ≠ d := by
          rintro rfl
          omega
        rcases lowerChar_cases c with heq | hletter | heq
        · exact .inl heq
        · exact .inr ⟨hmark (by decide) hletter, hmark (by decide) hletter⟩
        · exact .inr (by rw [heq]; decide)

theorem Quiet.lower (h : Quiet t) : Quiet (lower t) := (respelt_lowerFrom false t).quiet h

theorem Quiet.kebabCase (h : Quiet t) : Quiet (Naming.kebabCase t) := by
  have hsplit : Respelt t (t.flatMap fun c ↦ if isAsciiUpper c then ['_', c] else [c]) := by
    induction t with
    | nil => exact .nil
    | cons c t ih =>
      have hrest := ih (h.within (List.suffix_cons c t).isInfix)
      rw [List.flatMap_cons]
      split
      next hupper =>
        refine .other c (List.cons_ne_nil _ _) (List.forall_mem_cons.2 ⟨by decide,
          List.forall_mem_singleton.2 ?_⟩) hrest
        constructor <;> rintro rfl <;> exact absurd hupper (by decide)
      next => exact .same c hrest
  have hdashes (u : Text) : Respelt u (u.map fun c ↦ if c == '_' then '-' else c) := by
    induction u with
    | nil => exact .nil
    | cons c u ih =>
      refine ih.char ?_
      dsimp only
      split
      · exact .inr (by decide)
      · exact .inl rfl
  refine (hdashes _).quiet (Quiet.lower ?_)
  exact (hsplit.quiet h).within (List.dropWhile_suffix _).isInfix

theorem quiet_renamedAttributes : ∀ e ∈ renamedAttributes, Quiet e.2.toList := by decide

theorem Quiet.attributeName (h : Quiet t) : Quiet (attributeName t) := by
  unfold Markup.attributeName
  split
  next old new hfind => exact quiet_renamedAttributes _ (List.mem_of_find?_eq_some hfind)
  next =>
    split
    · exact h.lower
    · split
      · exact h
      · exact h.kebabCase

theorem Quiet.eventOf (h : Quiet t) : Quiet (eventOf t) :=
  (h.within (List.drop_suffix 2 t).isInfix).lower

theorem Quiet.resolveTag (h : Quiet t) :
    Quiet (resolveTag t).1 ∧ ∀ name ∈ (resolveTag t).2, Quiet name := by
  have hfinal : Quiet ((splitOn '.' t).getLastD []) := by
    rw [List.getLastD_eq_getLast?]
    cases hlast : (splitOn '.' t).getLast? with
    | none => exact quiet_of_not_mem nofun
    | some final => exact h.within (isInfix_of_mem_splitOn (List.mem_of_getLast? hlast))
  unfold Markup.resolveTag
  dsimp only
  split
  · refine ⟨hfinal.lower, fun name hname ↦ ?_⟩
    split at hname
    · cases hname
    · cases hname
      exact hfinal
  · exact ⟨h, nofun⟩

end Spelling

section Code

/-- References that stand where their offsets say, from the cursor on and in order. -/
def Placed (source : Text) : Nat → List Ref → Prop
  | _, [] => True
  | cursor, ref :: rest =>
    cursor ≤ ref.offset ∧ ref.name <+: source.drop ref.offset ∧
      Placed source (ref.offset + ref.name.length) rest

def Expr.Printable (e : Expr) : Prop :=
  match e with
  | .identifier _ _ name => Quiet name
  | .misplaced _ => False
  | _ => Quiet e.source ∧ Placed e.source 0 e.refs

theorem Expr.Printable.codeMisfits {e : Expr} (h : e.Printable) : e.codeMisfits = [] := by
  cases e with
  | misplaced kind => exact h.elim
  | _ => rfl

theorem Placed.mono {source : Text} {cursor cursor' : Nat} {refs : List Ref}
    (h : Placed source cursor' refs) (hle : cursor ≤ cursor') : Placed source cursor refs := by
  cases refs with
  | nil => trivial
  | cons ref rest => exact ⟨Nat.le_trans hle h.1, h.2⟩

/-- A stretch of the source, then something that does not begin with `!`. -/
theorem quiet_stretch {source lead x : Text} (hs : Quiet source) (hlead : lead <+: source)
    (hx : Quiet x) (hhead : x.head? ≠ some '!') :
    Quiet (lead ++ x) ∧ ((lead ++ x).head? = some '!' → source.head? = some '!') := by
  refine ⟨(hs.within hlead.isInfix).append_of_head hx hhead, fun h ↦ ?_⟩
  cases lead with
  | nil => exact absurd h hhead
  | cons c lead =>
    obtain ⟨rest, rfl⟩ := hlead
    exact h

/-- Replaced references bring in no `<!`: what stands before and after a name is what stood there,
or the mark of a variable. -/
theorem quiet_substituteFrom {source : Text} {replacement : Text → Option Text} {cursor : Nat}
    {refs : List Ref} (hs : Quiet source)
    (hnew : ∀ name new, replacement name = some new → new = '@' :: name)
    (h : Placed source cursor refs) :
    Quiet (substituteFrom source replacement cursor refs) ∧
      ((substituteFrom source replacement cursor refs).head? = some '!' →
        (source.drop cursor).head? = some '!') := by
  induction refs generalizing cursor with
  | nil => exact ⟨hs.within (List.drop_suffix _ _).isInfix, id⟩
  | cons ref rest ih =>
    obtain ⟨hcursor, hname, hrest⟩ := h
    rw [substituteFrom]
    cases hreplaced : replacement ref.name with
    | none => exact ih (hrest.mono (by omega))
    | some new =>
      rw [hnew _ _ hreplaced]
      obtain ⟨hafter, hhead⟩ := ih hrest
      have hdrop : source.drop ref.offset =
          ref.name ++ source.drop (ref.offset + ref.name.length) := by
        rw [← List.drop_drop]
        exact (List.prefix_iff_eq_append.1 hname).symm
      have hbefore : source.drop cursor =
          (source.take ref.offset).drop cursor ++ source.drop ref.offset := by
        have hlater : source.drop ref.offset =
            (source.drop cursor).drop (ref.offset - cursor) := by
          rw [List.drop_drop, Nat.add_sub_cancel' hcursor]
        rw [List.drop_take, hlater, List.take_append_drop]
      have hcursor_quiet := hs.within (List.drop_suffix cursor source).isInfix
      -- The name and what follows it, which may be replaced in its turn.
      have hjoined : Quiet (ref.name ++ substituteFrom source replacement
          (ref.offset + ref.name.length) rest) := by
        have hplain := hs.within (List.drop_suffix ref.offset source).isInfix
        rw [hdrop, quiet_append_iff] at hplain
        exact quiet_append_iff.2 ⟨hplain.1, hafter, fun hlast h ↦ hplain.2.2 hlast (hhead h)⟩
      have hat := (show Quiet ['@'] by decide).append_of_last hjoined (by decide)
      cases ref.shorthand with
      | false =>
        have hlead : (source.take ref.offset).drop cursor <+: source.drop cursor := by
          rw [hbefore]
          exact List.prefix_append _ _
        simpa using quiet_stretch hcursor_quiet hlead hat (by simp)
      | true =>
        have hlead : (source.take ref.offset).drop cursor ++ ref.name <+: source.drop cursor := by
          rw [hbefore, hdrop, ← List.append_assoc]
          exact List.prefix_append _ _
        have hcolon := (show Quiet [':', ' '] by decide).append_of_last hat (by decide)
        simpa using quiet_stretch hcursor_quiet hlead hcolon (by simp)

theorem reference_eq {scope : Scope} {name new : Text} (h : scope.reference name = some new) :
    new = '@' :: name := by
  rw [Scope.reference] at h
  split at h
  · exact (Option.some.inj h).symm
  · cases h

theorem Expr.Printable.quiet_code {e : Expr} (h : e.Printable) (scope : Scope) :
    Quiet (e.code scope) := by
  have hprinted (hs : Quiet e.source) (hrefs : Placed e.source 0 e.refs) :
      Quiet (strip (joinLines (e.substitute scope.reference))) := by
    have hquiet : Quiet (e.substitute scope.reference) :=
      (quiet_substituteFrom hs (fun _ _ ↦ reference_eq) hrefs).1
    have hline : Quiet (joinLines (e.substitute scope.reference)) :=
      fun hin ↦ hquiet (respaces_joinLines.infix_of_infix (ink_eq_self_iff.1 rfl) hin)
    exact hline.within (strip_isInfix _)
  cases e with
  | identifier source refs name =>
    change Quiet ((scope.reference name).getD name)
    cases hreference : scope.reference name with
    | none => exact h
    | some new =>
      rw [Option.getD_some, reference_eq hreference]
      exact (show Quiet ['@'] by decide).append_of_last h (by decide)
  | misplaced kind => exact h.elim
  | _ => exact hprinted h.1 h.2

end Code

end ViewForge.Markup
