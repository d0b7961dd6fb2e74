import ViewForge.Proofs.Erb.DirectiveLayout
import ViewForge.Proofs.Template.Forest
import ViewForge.Ruby.Class
import ViewForge.Template.Basic

namespace ViewForge

open Text Erb

namespace Template

section Neutral

variable {c : Char} {r w : Text}

def neutral (warning : Text) : Text := replace "%>" "% >" warning

theorem neutral_close (r : Text) : neutral ('%' :: '>' :: r) = '%' :: ' ' :: '>' :: neutral r :=
  replace_append (by decide : ("%>" : Text) ≠ []) "% >" r

theorem neutral_cons (h : ¬("%>" : Text) <+: c :: r) : neutral (c :: r) = c :: neutral r :=
  replace_plain h

theorem close_induction {motive : Text → Prop} (nil : motive [])
    (close : ∀ r, motive r → motive ('%' :: '>' :: r))
    (cons : ∀ c r, ¬("%>" : Text) <+: c :: r → motive r → motive (c :: r)) (w : Text) :
    motive w := by
  -- On the length, since a mark takes two characters at once.
  induction hn : w.length using Nat.strong_induction_on generalizing w with
  | _ n ih =>
    cases w with
    | nil => exact nil
    | cons c r =>
      by_cases hpre : ("%>" : Text) <+: c :: r
      · obtain ⟨s, hs⟩ := hpre
        rw [← hs] at hn ⊢
        exact close s (ih s.length (by simp at hn; omega) s rfl)
      · exact cons c r hpre (ih r.length (by simp at hn; omega) r rfl)

theorem head?_neutral (w : Text) : (neutral w).head? = w.head? := by
  cases w using close_induction with
  | nil => rfl
  | close r => rw [neutral_close]; rfl
  | cons c r hpre => rw [neutral_cons hpre]; rfl

theorem not_close_neutral (w : Text) : ¬("%>" : Text) <:+: neutral w := by
  induction w using close_induction with
  | nil => decide
  | close r ih =>
    rw [neutral_close]
    simpa [List.infix_cons_iff, List.cons_prefix_cons] using ih
  | cons c r hpre ih =>
    rw [neutral_cons hpre]
    intro hin
    rcases List.infix_cons_iff.1 hin with hstart | hin
    · -- The head of what follows is kept, so the mark would have stood in the warning.
      obtain ⟨u, hu⟩ := hstart
      change '%' :: '>' :: u = c :: neutral r at hu
      rw [List.cons.injEq] at hu
      obtain ⟨rfl, hu⟩ := hu
      have hhead := head?_neutral r
      rw [← hu] at hhead
      obtain ⟨s, rfl⟩ := List.head?_eq_some_iff.1 hhead.symm
      exact hpre ⟨s, rfl⟩
    · exact ih hin

theorem ink_neutral (w : Text) : ink (neutral w) = ink w := by
  induction w using close_induction with
  | nil => rfl
  | close r ih =>
    rw [neutral_close]
    simp [ink_cons_of_solid, ink_cons_of_blank, isBlank, ih]
  | cons c r hpre ih =>
    rw [neutral_cons hpre]
    cases hc : isBlank c with
    | true => rw [ink_cons_of_blank hc, ink_cons_of_blank hc, ih]
    | false => rw [ink_cons_of_solid hc, ink_cons_of_solid hc, ih]

end Neutral

def banner (comments : List Text) : List Token :=
  (comments.map (Token.mk .comment)).intersperse ⟨.text, "\n"⟩

structure IsBanner (ks : List Text) : Prop where
  ne_nil : ks ≠ []
  clean : ∀ k ∈ ks, CleanDirective .comment k

def PassesOver (f : List Token → List Token) : Prop :=
  ∀ k ts, k.kind = .comment ∨ k = ⟨.text, "\n"⟩ → f (k :: ts) = k :: f ts

/-- A stage that leaves a banner in front, perhaps with more comments before it. What it adds and
what it makes of the rest does not depend on the banner. -/
def KeepsBanner (stage : Text → Text) : Prop :=
  ∀ x, ∃ added rest, (∀ k ∈ added, CleanDirective .comment k) ∧
    ∀ ks, IsBanner ks → stage (unlines ks ++ x) = unlines (added ++ ks) ++ rest

section Banner

variable {ks : List Text}

theorem banner_cons (k l : Text) (ks : List Text) :
    banner (k :: l :: ks) = ⟨.comment, k⟩ :: ⟨.text, "\n"⟩ :: banner (l :: ks) := rfl

theorem unlines_cons_cons (k l : Text) (ks : List Text) :
    unlines (k :: l :: ks) = k ++ '\n' :: unlines (l :: ks) := by
  simp [unlines, join]

theorem IsBanner.tail {k l : Text} (h : IsBanner (k :: l :: ks)) : IsBanner (l :: ks) :=
  ⟨List.cons_ne_nil _ _, (List.forall_mem_cons.1 h.clean).2⟩

theorem IsBanner.append {added : List Text} (hadded : ∀ k ∈ added, CleanDirective .comment k)
    (h : IsBanner ks) : IsBanner (added ++ ks) :=
  ⟨List.append_ne_nil_of_right_ne_nil _ h.ne_nil, List.forall_mem_append.2 ⟨hadded, h.clean⟩⟩

theorem startsMarkup_unlines {l : Text} (h : CleanDirective .comment l) (ls : List Text)
    (x : Text) : startsMarkup (unlines (l :: ls) ++ x) = true := by
  have hstart (r : Text) : startsMarkup (l ++ r) = true :=
    (Token.Clean.directive h).startsMarkup nofun r
  cases ls with
  | nil =>
    rw [unlines, join, List.intercalate_singleton]
    exact hstart x
  | cons m ls =>
    rw [unlines_cons_cons, List.append_assoc]
    exact hstart _

theorem render_banner (ks : List Text) : render (banner ks) = unlines ks := by
  induction ks with
  | nil => rfl
  | cons k ks ih =>
    cases ks with
    | nil => simp [render, banner, unlines, join]
    | cons l ks =>
      rw [banner_cons, unlines_cons_cons, ← ih]
      rfl

theorem render_banner_append (ks : List Text) (ts : List Token) :
    render (banner ks ++ ts) = unlines ks ++ render ts := by
  rw [render, List.flatMap_append, ← render, ← render, render_banner]

theorem IsBanner.unlines_cons (h : IsBanner ks) (k : Text) :
    unlines (k :: ks) = k ++ '\n' :: unlines ks := by
  obtain ⟨l, ls, rfl⟩ := List.exists_cons_of_ne_nil h.ne_nil
  exact unlines_cons_cons k l ls

theorem tokenize_banner (h : IsBanner ks) (x : Text) :
    tokenize (unlines ks ++ x) = banner ks ++ tokenize x := by
  have hbreak : Token.Clean ⟨.text, "\n"⟩ := .text (List.cons_ne_nil _ _) rfl
  induction ks with
  | nil => exact absurd rfl h.ne_nil
  | cons k ks ih =>
    have hk (r : Text) : tokenize (k ++ r) = ⟨.comment, k⟩ :: tokenize r :=
      (Token.Clean.directive (h.clean k List.mem_cons_self)).tokenize_append r
        fun hkind ↦ by cases hkind
    cases ks with
    | nil =>
      rw [unlines, join, List.intercalate_singleton]
      exact hk x
    | cons l ks =>
      have hl := h.tail.clean l List.mem_cons_self
      have hrest : tokenize ('\n' :: (unlines (l :: ks) ++ x)) =
          ⟨.text, "\n"⟩ :: tokenize (unlines (l :: ks) ++ x) :=
        hbreak.tokenize_append _ fun _ ↦ .inr (startsMarkup_unlines hl ks x)
      rw [unlines_cons_cons, List.append_assoc, hk, List.cons_append, hrest, ih h.tail]
      rfl

theorem PassesOver.banner_append {f : List Token → List Token} (hf : PassesOver f)
    (ks : List Text) (ts : List Token) : f (banner ks ++ ts) = banner ks ++ f ts := by
  induction ks with
  | nil => rfl
  | cons k ks ih =>
    cases ks with
    | nil => exact hf _ _ (.inl rfl)
    | cons l ks =>
      rw [banner_cons, List.cons_append, List.cons_append, hf _ _ (.inl rfl), hf _ _ (.inr rfl), ih]
      rfl

end Banner

section Stages

variable {f : List Token → List Token} {g stage : Text → Text} {ks : List Text}

theorem KeepsBanner.of_passesOver (hf : PassesOver f) :
    KeepsBanner fun t ↦ render (f (tokenize t)) := by
  intro x
  refine ⟨[], render (f (tokenize x)), nofun, fun ks hks ↦ ?_⟩
  beta_reduce
  rw [tokenize_banner hks, hf.banner_append, render_banner_append, List.nil_append]

theorem KeepsBanner.comp (hg : KeepsBanner g) (hs : KeepsBanner stage) :
    KeepsBanner fun t ↦ stage (g t) := by
  intro x
  obtain ⟨added, rest, hadded, hg⟩ := hg x
  obtain ⟨added', rest', hadded', hs⟩ := hs rest
  -- What the second stage adds stands before what the first one added.
  refine ⟨added' ++ added, rest', List.forall_mem_append.2 ⟨hadded', hadded⟩, fun ks hks ↦ ?_⟩
  beta_reduce
  rw [hg ks hks, hs _ (hks.append hadded), List.append_assoc]

theorem KeepsBanner.applyIf {condition : Bool} (hs : condition = true → KeepsBanner stage) :
    KeepsBanner (applyIf condition stage) := by
  cases condition with
  | true => exact hs rfl
  | false => exact fun x ↦ ⟨[], x, nofun, fun ks _ ↦ rfl⟩

theorem PassesOver.map {f : Token → Token} (hcomment : ∀ k : Token, k.kind = .comment → f k = k)
    (hbreak : f ⟨.text, "\n"⟩ = ⟨.text, "\n"⟩) : PassesOver (List.map f) := by
  rintro k ts (hk | rfl)
  · rw [List.map_cons, hcomment k hk]
  · rw [List.map_cons, hbreak]

theorem keepsBanner_substituteChildren : KeepsBanner substituteChildren := by
  refine .of_passesOver (.map (fun k hk ↦ ?_) rfl)
  simp [isChildrenOutput, hk]

theorem keepsBanner_renderSlots (c : Component) : KeepsBanner (renderSlots c) := by
  refine .of_passesOver (.map (fun k hk ↦ ?_) rfl)
  simp [hk]

theorem keepsBanner_mapDirectiveCode (f : Text → Text) : KeepsBanner (mapDirectiveCode f) := by
  refine .of_passesOver (.map (fun k hk ↦ ?_) rfl)
  simp [mapTokenCode, hk]

theorem keepsBanner_enhance (c : Component) : KeepsBanner (enhance c) := by
  have hshown : KeepsBanner fun t ↦ render ((tokenize t).map fun token ↦
      if token.kind == .text then
        { token with text := outputBraces (c.props.map (·.name)) token.text }
      else token) := by
    refine .of_passesOver (.map (fun k hk ↦ ?_) rfl)
    simp [hk]
  exact hshown.comp (keepsBanner_mapDirectiveCode _)

theorem not_isOpenTag {k : Token} (hk : k.kind = .comment ∨ k = ⟨.text, "\n"⟩) :
    isOpenTag k = false := by
  rcases hk with hk | rfl
  · rw [isOpenTag, hk]
    rfl
  · rfl

theorem keepsBanner_renderComponentReferences (ns : Text) :
    KeepsBanner (renderComponentReferences ns) := by
  refine .of_passesOver fun k ts hk ↦ Node.renderReferences_kept ts fun hopen ↦ ?_
  have hclosed := not_isOpenTag hk
  rw [isOpenTag, hopen] at hclosed
  cases hclosed

theorem editFirstTag?_banner (p : Tag → Bool) (edit : Tag → Tag) (ks : List Text)
    (ts : List Token) :
    editFirstTag? p edit (banner ks ++ ts) = (editFirstTag? p edit ts).map (banner ks ++ ·) := by
  have hpass {k : Token} (ts : List Token) (hk : k.kind = .comment ∨ k = ⟨.text, "\n"⟩) :
      editFirstTag? p edit (k :: ts) = (editFirstTag? p edit ts).map (k :: ·) := by
    rw [editFirstTag?, not_isOpenTag hk]
    rfl
  induction ks with
  | nil => exact Option.map_id'.symm
  | cons k ks ih =>
    cases ks with
    | nil => exact hpass ts (.inl rfl)
    | cons l ks =>
      rw [banner_cons, List.cons_append, List.cons_append, hpass _ (.inl rfl), hpass _ (.inr rfl),
        ih, Option.map_map, Option.map_map]
      rfl

theorem passesOver_openLabel : PassesOver openLabel := by
  intro k ts hk
  match ts with
  | [] => rfl
  | [l] => rfl
  | l :: m :: ts =>
    rw [openLabel, not_isOpenTag hk]
    simp

/-- An edit of the first tag of some sort, and what is put in front of it. -/
theorem KeepsBanner.of_editFirstTag (added : List Text) (lead : Text) (p : Tag → Bool)
    (edit : Tag → Tag) (hf : PassesOver f) (hadded : ∀ k ∈ added, CleanDirective .comment k)
    (hlead : ∀ ks, IsBanner ks → lead ++ unlines ks = unlines (added ++ ks)) :
    KeepsBanner fun t ↦
      match editFirstTag? p edit (tokenize t) with
      | none => t
      | some ts => lead ++ render (f ts) := by
  intro x
  cases hedit : editFirstTag? p edit (tokenize x) with
  | none =>
    refine ⟨[], x, nofun, fun ks hks ↦ ?_⟩
    simp only [tokenize_banner hks, editFirstTag?_banner, hedit, Option.map_none, List.nil_append]
  | some ts =>
    refine ⟨added, render (f ts), hadded, fun ks hks ↦ ?_⟩
    simp only [tokenize_banner hks, editFirstTag?_banner, hedit, Option.map_some]
    rw [hf.banner_append, render_banner_append, ← List.append_assoc, hlead ks hks]

theorem keepsBanner_applyInteractiveClasses : KeepsBanner applyInteractiveClasses :=
  .of_editFirstTag [] [] _ _ passesOver_openLabel nofun fun _ _ ↦ rfl

theorem any_isOpenTag_banner (ks : List Text) : (banner ks).any isOpenTag = false := by
  induction ks with
  | nil => rfl
  | cons k ks ih =>
    cases ks with
    | nil => rfl
    | cons l ks => exact ih

theorem passesOver_bindTokens (identifier : Text) (root : Bool) :
    PassesOver (bindTokens identifier root) := by
  intro k ts hk
  rw [bindTokens, not_isOpenTag hk]
  rfl

theorem cleanDirective_controllerWarning : CleanDirective .comment controllerWarning := by
  have hshape : controllerWarning =
      "<%#" ++ (" WARNING: Could not add Stimulus controller to root element " : Text) ++ "%>" := by
    decide +kernel
  rw [hshape]
  exact .comment _ (by decide)

theorem keepsBanner_bindController (c : Component) : KeepsBanner (bindController c) := by
  intro x
  have hany (ks : List Text) :
      (banner ks ++ tokenize x).any isOpenTag = (tokenize x).any isOpenTag := by
    rw [List.any_append, any_isOpenTag_banner, Bool.false_or]
  cases htag : (tokenize x).any isOpenTag with
  | true =>
    refine ⟨[], render (bindTokens c.controllerIdentifier true (tokenize x)), nofun,
      fun ks hks ↦ ?_⟩
    rw [bindController, tokenize_banner hks]
    simp only [hany, htag, if_true]
    rw [(passesOver_bindTokens _ _).banner_append, render_banner_append, List.nil_append]
  | false =>
    refine ⟨[controllerWarning], x, List.forall_mem_singleton.2 cleanDirective_controllerWarning,
      fun ks hks ↦ ?_⟩
    rw [bindController, tokenize_banner hks]
    simp only [hany, htag, Bool.false_eq_true, if_false]
    rw [List.singleton_append, hks.unlines_cons]
    simp

theorem cleanDirective_usage {name constant : Text} (hname : ¬("%>" : Text) <:+: name)
    (hconstant : ¬("%>" : Text) <:+: constant) :
    CleanDirective .comment ("<%# Icon component for " ++ name ++ ". Usage: render " ++ constant ++
      ".new(size: \"24\", color: \"red\") %>") := by
  have hshape : "<%# Icon component for " ++ name ++ ". Usage: render " ++ constant ++
      ".new(size: \"24\", color: \"red\") %>" =
      "<%#" ++ (" Icon component for" ++ ' ' :: (name ++ '.' :: (" Usage: render" ++
        ' ' :: (constant ++ '.' :: "new(size: \"24\", color: \"red\") ")))) ++ "%>" := by
    simp
  rw [hshape]
  refine .comment _ fun hin ↦ ?_
  rcases infix_append_cons (by decide) hin with hin | hin
  · exact absurd hin (by decide)
  rcases infix_append_cons (by decide) hin with hin | hin
  · exact hname hin
  rcases infix_append_cons (by decide) hin with hin | hin
  · exact absurd hin (by decide)
  rcases infix_append_cons (by decide) hin with hin | hin
  · exact hconstant hin
  · exact absurd hin (by decide)

theorem keepsBanner_parameterizeIcon {c : Component} {ns : Text}
    (hname : ¬("%>" : Text) <:+: c.name) (hconstant : ¬("%>" : Text) <:+: c.constant ns) :
    KeepsBanner (parameterizeIcon c ns) := by
  have husage := cleanDirective_usage hname hconstant
  refine .of_editFirstTag (f := id) _ _ _ _ (fun _ _ _ ↦ rfl) (List.forall_mem_singleton.2 husage)
    fun ks hks ↦ ?_
  rw [List.singleton_append, hks.unlines_cons]
  simp

end Stages

def stages (c : Component) (ns : Text) (enhanced : Bool) (template : Text) : Text :=
  template
    |> applyIf (c.isIcon && c.svg.any (!·.isEmpty)) (parameterizeIcon c ns)
    |> applyIf c.isInteractive applyInteractiveClasses
    |> applyIf (c.needsController || c.isInteractive) (bindController c)
    |> applyIf (!c.slots.isEmpty) (renderSlots c)
    |> substituteChildren
    |> mapDirectiveCode Script.toRuby
    |> applyIf enhanced (enhance c)
    |> applyIf (!c.references.isEmpty) (renderComponentReferences ns)

section Layout

variable {ks : List Text}

theorem ofComponent_eq (c : Component) (ns : Text) (enhanced : Bool) (warnings : List Text) :
    ofComponent { c with warnings } ns enhanced =
      format (stages c ns enhanced (withWarnings warnings c.html)) := rfl

theorem keepsBanner_stages {c : Component} {ns : Text} (enhanced : Bool)
    (h : (c.isIcon && c.svg.any (!·.isEmpty)) = true →
      ¬("%>" : Text) <:+: c.name ∧ ¬("%>" : Text) <:+: c.constant ns) :
    KeepsBanner (stages c ns enhanced) := by
  have hicon : KeepsBanner (applyIf (c.isIcon && c.svg.any (!·.isEmpty)) (parameterizeIcon c ns)) :=
    .applyIf fun hc ↦ keepsBanner_parameterizeIcon (h hc).1 (h hc).2
  exact hicon
    |>.comp (.applyIf fun _ ↦ keepsBanner_applyInteractiveClasses)
    |>.comp (.applyIf fun _ ↦ keepsBanner_bindController c)
    |>.comp (.applyIf fun _ ↦ keepsBanner_renderSlots c)
    |>.comp keepsBanner_substituteChildren
    |>.comp (keepsBanner_mapDirectiveCode _)
    |>.comp (.applyIf fun _ ↦ keepsBanner_enhance c)
    |>.comp (.applyIf fun _ ↦ keepsBanner_renderComponentReferences ns)

theorem flatMap_formatToken_banner (ks : List Text) :
    (banner ks).flatMap formatToken = unlines (ks.map normalizeDirective) := by
  induction ks with
  | nil => rfl
  | cons k ks ih =>
    cases ks with
    | nil => simp [banner, formatToken, unlines, join]
    | cons l ks =>
      rw [banner_cons, List.flatMap_cons, List.flatMap_cons, ih]
      exact (unlines_cons_cons ..).symm

theorem IsBanner.map_normalizeDirective (h : IsBanner ks) :
    IsBanner (ks.map normalizeDirective) where
  ne_nil := by simpa using h.ne_nil
  clean := by
    rw [List.forall_mem_map]
    intro k hk
    obtain ⟨code, hlaid, hclean⟩ := (h.clean k hk).exists_laidDirective
    rwa [hlaid]

theorem IsBanner.squeezes (h : IsBanner ks) {k : Text} (hk : k ∈ ks) :
    Squeezes (normalizeDirective k) (normalizeDirective k) := by
  obtain ⟨code, hlaid, -⟩ := (h.clean k hk).exists_laidDirective
  rw [hlaid]
  exact squeezes_laidDirective .comment code

theorem IsBanner.solidHead (h : IsBanner ks) (y : Text) :
    SolidHead (unlines (ks.map normalizeDirective) ++ y) := by
  cases ks with
  | nil => exact absurd rfl h.ne_nil
  | cons k ks =>
    have hk := h.squeezes List.mem_cons_self
    cases ks with
    | nil => simpa [unlines, join] using hk.head y
    | cons l ks =>
      rw [List.map_cons, List.map_cons, unlines_cons_cons, List.append_assoc]
      exact hk.head _

/-- Every line of a banner is solid at its ends, so tidying the lines leaves it as it is. -/
theorem IsBanner.squeezes_unlines (h : IsBanner ks) :
    Squeezes (unlines (ks.map normalizeDirective)) (unlines (ks.map normalizeDirective)) := by
  induction ks with
  | nil => exact absurd rfl h.ne_nil
  | cons k ks ih =>
    have hk := h.squeezes List.mem_cons_self
    cases ks with
    | nil => simpa [unlines, join] using hk
    | cons l ks =>
      have hrest := ih h.tail
      have hl := (h.tail.map_normalizeDirective.clean _ List.mem_cons_self).ne_nil
      have hshape : unlines ((k :: l :: ks).map normalizeDirective) =
          normalizeDirective k ++ (['\n'] ++ unlines ((l :: ks).map normalizeDirective)) :=
        unlines_cons_cons ..
      refine ⟨h.solidHead, ?_, ?_⟩
      · obtain ⟨c, u, hcu⟩ : ∃ c u, unlines ((l :: ks).map normalizeDirective) = c :: u :=
          List.exists_cons_of_ne_nil (by cases ks <;> simp [unlines, join, hl])
        have hlast := hrest.last
        rw [hcu] at hshape hlast
        rw [hshape]
        refine hk.last.append ?_
        rwa [SolidLast, List.singleton_append, List.getLast?_cons_cons]
      · -- The break between two lines stays, because a solid character follows it.
        have hsolid : SolidHead (unlines ((l :: ks).map normalizeDirective)) := by
          simpa using hrest.head []
        have hbreak : ∀ c ∈ ['\n'], isBlank c = true := List.forall_mem_singleton.2 rfl
        rw [hshape, hk.append, squeeze_blank_append hbreak hsolid, hrest.eq]
        rfl

theorem format_banner (h : IsBanner ks) (x : Text) :
    format (unlines ks ++ x) = unlines (ks.map normalizeDirective) ++
      (trimRight isBlank (squeeze ((tokenize x).flatMap formatToken)) ++ "\n") := by
  have hsqueeze := h.squeezes_unlines
  have hhead : (unlines (ks.map normalizeDirective) ++
      trimRight isBlank (squeeze ((tokenize x).flatMap formatToken))).head? ≠ some '\n' := by
    intro hhead
    exact absurd (hsqueeze.head _ _ hhead) (by decide)
  rw [format, tokenize_banner h, List.flatMap_append, flatMap_formatToken_banner, tidyLines_eq,
    hsqueeze.append, trimRight_append_solidLast _ hsqueeze.last, dropBreak_eq_self hhead,
    List.append_assoc]

end Layout

section Comments

def warningToken (warning : Text) : Token := ⟨.comment, normalizeDirective (warningComment warning)⟩

theorem warningComment_eq (w : Text) :
    warningComment w = "<%" ++ '#' :: (" WARNING:" ++ ' ' :: (neutral w ++ [' '])) ++ "%>" := by
  have hshape : warningComment w = "<%# WARNING: " ++ neutral w ++ " %>" := rfl
  rw [hshape]
  simp

theorem isBanner_warnings {warnings : List Text} (h : warnings ≠ []) :
    IsBanner (warnings.map warningComment) where
  ne_nil := by simpa using h
  clean := by
    rw [List.forall_mem_map]
    intro w _
    rw [warningComment_eq]
    refine .comment (" WARNING:" ++ ' ' :: (neutral w ++ [' '])) fun hin ↦ ?_
    have hblank : ' ' ∉ ("%>" : Text) := by decide
    rcases infix_append_cons hblank hin with hin | hin
    · exact absurd hin (by decide)
    rcases infix_append_cons hblank hin with hin | hin
    · exact not_close_neutral w hin
    · exact absurd hin (by decide)

/-- The comment of a warning says what the warning says. -/
theorem ink_warningToken (w : Text) :
    ink (warningToken w).text = ink ("<%# WARNING: " ++ w ++ " %>") := by
  have hhead : ('#' :: (" WARNING:" ++ ' ' :: (neutral w ++ [' ']))).head? ≠ some '-' := by
    simp
  have hlast : ('#' :: (" WARNING:" ++ ' ' :: (neutral w ++ [' ']))).getLast? ≠ some '-' := by
    have hend : '#' :: (" WARNING:" ++ ' ' :: (neutral w ++ [' '])) =
        '#' :: (" WARNING: " ++ neutral w) ++ [' '] := by simp
    rw [hend, List.getLast?_concat]
    decide
  have hnil : ink [] = [] := rfl
  rw [warningToken, warningComment_eq, normalizeDirective_eq, ink_respelled hhead hlast]
  simp [ink_append, ink_neutral, ink_cons_of_solid, ink_cons_of_blank, isBlank, hnil]

/-- A template begins with the comments of its warnings, one for each, and neither what stands
before them nor what stands after them depends on the warnings. -/
theorem tokenize_ofComponent {c : Component} {ns : Text} {enhanced : Bool}
    (h : (c.isIcon && c.svg.any (!·.isEmpty)) = true →
      ¬("%>" : Text) <:+: c.name ∧ ¬("%>" : Text) <:+: c.constant ns) :
    ∃ front rest, (∀ k ∈ front, k.kind = .comment) ∧ ∀ warnings ≠ [],
      tokenize (ofComponent { c with warnings } ns enhanced) =
        (front ++ warnings.map warningToken).intersperse ⟨.text, "\n"⟩ ++ rest := by
  obtain ⟨added, x, hadded, hstages⟩ :=
    keepsBanner_stages enhanced h ("\n\n" ++ c.html)
  refine ⟨added.map fun k ↦ ⟨.comment, normalizeDirective k⟩,
    tokenize (trimRight isBlank (squeeze ((tokenize x).flatMap formatToken)) ++ "\n"),
    List.forall_mem_map.2 fun k _ ↦ rfl, fun warnings hne ↦ ?_⟩
  have hwarnings := isBanner_warnings hne
  have hbanner := hwarnings.append hadded
  have hwith : withWarnings warnings c.html =
      unlines (warnings.map warningComment) ++ ("\n\n" ++ c.html) := by
    rw [withWarnings, if_neg (by simpa using hne), List.append_assoc]
  rw [ofComponent_eq, hwith, hstages _ hwarnings, format_banner hbanner,
    tokenize_banner hbanner.map_normalizeDirective]
  congr 1
  rw [banner, List.map_append, List.map_append, List.map_map, List.map_map, List.map_map]
  rfl

end Comments

end Template

namespace Ruby

def isCommentLine (line : Text) : Bool := line.isEmpty || line.head? == some '#'

def header (warnings : List Text) : List Text :=
  warnings.flatMap (fun w ↦ lines ("# WARNING: " ++ w)) ++ if warnings.isEmpty then [] else [[]]

section Lines

theorem lines_append_break (a b : Text) : lines (a ++ '\n' :: b) = lines a ++ lines b := by
  induction a with
  | nil =>
    obtain ⟨l, ls, hb, hlines⟩ := lines_cons '\n' b
    rw [List.nil_append, hlines, hb]
    rfl
  | cons c a ih =>
    obtain ⟨l, ls, ha, hlines⟩ := lines_cons c a
    obtain ⟨l', ls', ha', hlines'⟩ := lines_cons c (a ++ '\n' :: b)
    rw [ih, ha, List.cons_append, List.cons.injEq] at ha'
    obtain ⟨rfl, rfl⟩ := ha'
    rw [List.cons_append, hlines', hlines]
    split <;> rfl

theorem lines_append {a : Text} (ha : '\n' ∉ a) {b l : Text} {ls : List Text}
    (hb : lines b = l :: ls) : lines (a ++ b) = (a ++ l) :: ls := by
  induction a with
  | nil => exact hb
  | cons c a ih =>
    rw [List.mem_cons, not_or] at ha
    obtain ⟨l', ls', hr, hlines⟩ := lines_cons c (a ++ b)
    rw [ih ha.2, List.cons.injEq] at hr
    obtain ⟨rfl, rfl⟩ := hr
    rw [List.cons_append, hlines, if_neg (Ne.symm ha.1)]
    rfl

theorem lines_unlines_break {ls : List Text} (hne : ls ≠ []) (t : Text) :
    lines (unlines ls ++ '\n' :: t) = ls.flatMap lines ++ lines t := by
  induction ls with
  | nil => exact absurd rfl hne
  | cons l ls ih =>
    cases ls with
    | nil => simp [unlines, join, lines_append_break]
    | cons m ls =>
      rw [Template.unlines_cons_cons, List.append_assoc, List.cons_append, lines_append_break,
        ih (List.cons_ne_nil _ _), List.flatMap_cons (x := l), List.append_assoc]

end Lines

theorem stmtsLines_append (depth : Nat) (a b : List Stmt) :
    stmtsLines depth (a ++ b) = stmtsLines depth a ++ stmtsLines depth b := by
  induction a with
  | nil => rfl
  | cons s a ih => rw [List.cons_append, stmtsLines, stmtsLines, ih, List.append_assoc]

theorem stmtsLines_map_line (ts : List Text) : stmtsLines 0 (ts.map .line) = ts := by
  induction ts with
  | nil => rfl
  | cons t ts ih =>
    rw [List.map_cons, stmtsLines, ih]
    rfl

def warningStmts (warnings : List Text) : List Stmt :=
  let stmts : List Stmt := (warnings.map fun w : Text ↦ ("# WARNING: " ++ w : Text)).map .line
  if stmts.isEmpty then [] else stmts ++ [.blank]

theorem flatMap_lines_warningStmts (warnings : List Text) :
    (stmtsLines 0 (warningStmts warnings)).flatMap lines = header warnings := by
  cases warnings with
  | nil => rfl
  | cons w ws =>
    have hstmts : warningStmts (w :: ws) =
        ((w :: ws).map fun w : Text ↦ ("# WARNING: " ++ w : Text)).map .line ++ [.blank] := rfl
    rw [hstmts, stmtsLines_append, stmtsLines_map_line, List.flatMap_append, List.flatMap_map]
    rfl

theorem lines_classFile (c : Component) (ns : Text) :
    ∃ body, lines (classFile c ns) =
      header c.warnings ++ ("# frozen_string_literal: true" : Text) :: body := by
  let rest : List Stmt := .blank :: inModules (Naming.moduleNames ns)
    [.block ("class " ++ c.className ++ " < ViewComponent::Base") (classBody c)]
  have hfrozen : stmtsLines 0 (frozenComment :: rest) =
      ("# frozen_string_literal: true" : Text) :: stmtsLines 0 rest := rfl
  have hline : lines "# frozen_string_literal: true" =
      ["# frozen_string_literal: true".toList] := by decide
  have hfile : classFile c ns = fileText (warningStmts c.warnings ++ frozenComment :: rest) := by
    simp only [classFile, warningStmts, List.map_map, List.append_assoc]
    rfl
  have hne : stmtsLines 0 (warningStmts c.warnings ++ frozenComment :: rest) ≠ [] := by
    simp [stmtsLines_append, hfrozen]
  refine ⟨(stmtsLines 0 rest).flatMap lines ++ lines [], ?_⟩
  calc
    lines (classFile c ns) =
        (stmtsLines 0 (warningStmts c.warnings ++ frozenComment :: rest)).flatMap lines ++
          lines [] := by
      rw [hfile]
      exact lines_unlines_break hne []
    _ = header c.warnings ++ ("# frozen_string_literal: true" : Text) ::
        ((stmtsLines 0 rest).flatMap lines ++ lines []) := by
      rw [stmtsLines_append, hfrozen, List.flatMap_append, List.flatMap_cons, hline,
        flatMap_lines_warningStmts, List.append_assoc, List.append_assoc, List.singleton_append]

theorem header_commented_iff (warnings : List Text) :
    (∀ l ∈ header warnings, isCommentLine l = true) ↔
      ∀ w ∈ warnings, ∀ l ∈ (lines w).tail, isCommentLine l = true := by
  have hone (w : Text) : (∀ l ∈ lines ("# WARNING: " ++ w), isCommentLine l = true) ↔
      ∀ l ∈ (lines w).tail, isCommentLine l = true := by
    obtain ⟨l, ls, hw, -⟩ := lines_cons ' ' w
    rw [lines_append (by decide) hw, hw, List.forall_mem_cons]
    -- The first line is marked in any case.
    exact and_iff_right rfl
  have hend : ∀ l ∈ (if warnings.isEmpty then [] else [[]] : List Text),
      isCommentLine l = true := by
    split
    · exact nofun
    · exact List.forall_mem_singleton.2 rfl
  rw [header, List.forall_mem_append, and_iff_left hend]
  constructor
  · intro h w hw
    exact (hone w).1 fun l hl ↦ h l (List.mem_flatMap.2 ⟨w, hw, hl⟩)
  · intro h l hl
    obtain ⟨w, hw, hl⟩ := List.mem_flatMap.1 hl
    exact (hone w).2 (h w hw) l hl

end Ruby

section Everywhere

open Template Ruby

/-- In a template warnings stay in comments of their own, unless the comment over an icon is closed
by the names in it. In a class they do just when no line of them but the first says anything. -/
theorem warnings_commented (c : Component) (ns : Text) (enhanced : Bool) :
    (∃ body, lines (classFile c ns) =
      header c.warnings ++ ("# frozen_string_literal: true" : Text) :: body) ∧
    ((∀ l ∈ header c.warnings, isCommentLine l = true) ↔
      ∀ w ∈ c.warnings, ∀ l ∈ (lines w).tail, isCommentLine l = true) ∧
    (((c.isIcon && c.svg.any (!·.isEmpty)) = true →
        ¬("%>" : Text) <:+: c.name ∧ ¬("%>" : Text) <:+: c.constant ns) →
      ∃ front rest, (∀ k ∈ front, k.kind = .comment) ∧ ∀ warnings ≠ [],
        tokenize (ofComponent { c with warnings } ns enhanced) =
          (front ++ warnings.map warningToken).intersperse ⟨.text, "\n"⟩ ++ rest) ∧
    ∀ w, ink (warningToken w).text = ink ("<%# WARNING: " ++ w ++ " %>") :=
  ⟨lines_classFile c ns, header_commented_iff c.warnings, tokenize_ofComponent, ink_warningToken⟩

def brokenBox : Component :=
  { name := "Box", snakeName := "box", html := "<p></p>",
    warnings :=
      [("Prop 'a' has a non-literal default value: f(\n1). It defaults to nil in Ruby." : Text)] }

theorem warnings_commented_brokenBox :
    ∃ front rest, (∀ k ∈ front, k.kind = .comment) ∧
      tokenize (ofComponent brokenBox "Ui" false) =
        (front ++ brokenBox.warnings.map warningToken).intersperse ⟨.text, "\n"⟩ ++ rest := by
  obtain ⟨front, rest, hfront, htokens⟩ := (warnings_commented brokenBox "Ui" false).2.2.1 nofun
  exact ⟨front, rest, hfront, htokens brokenBox.warnings (List.cons_ne_nil _ _)⟩

def brokenIcon : Component :=
  { name := "%><!--", snakeName := "icon", html := "<svg></svg>", isIcon := true,
    svg := some "<svg></svg>", warnings := brokenBox.warnings }

/-- The second line of the warning is code in the class, and over the icon the warning is in no
comment of the template. -/
theorem warnings_uncommented :
    (∃ body, lines (classFile brokenBox "Ui") =
      ("# WARNING: Prop 'a' has a non-literal default value: f(" : Text) ::
        ("1). It defaults to nil in Ruby." : Text) :: [] ::
          ("# frozen_string_literal: true" : Text) :: body) ∧
    isCommentLine "1). It defaults to nil in Ruby." = false ∧
    (tokenize (ofComponent brokenIcon "Ui" false)).filter (·.kind == .comment) =
      [⟨.comment, "<%# Icon component for %>"⟩] := by
  refine ⟨?_, by decide, by decide +kernel⟩
  obtain ⟨body, hbody⟩ := lines_classFile brokenBox "Ui"
  refine ⟨body, hbody.trans ?_⟩
  have hheader : header brokenBox.warnings =
      [("# WARNING: Prop 'a' has a non-literal default value: f(" : Text),
        ("1). It defaults to nil in Ruby." : Text), []] := by decide +kernel
  rw [hheader]
  rfl

end Everywhere

end ViewForge
