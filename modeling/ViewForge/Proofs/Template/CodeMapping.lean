import ViewForge.Proofs.Erb.LayoutContent
import ViewForge.Template.Code

namespace ViewForge.Template

open Text Erb Markup

/-- A directive with its code changed. A comment keeps its text. -/
inductive MapsDirective (f : Text → Text) : TokenKind → Text → Text → Prop
  | code (body : Text) : body.head? ≠ some '=' → body.head? ≠ some '#' →
      MapsDirective f .code ("<%" ++ body ++ "%>") (codeDirective (f (strip body)))
  | output (body : Text) :
      MapsDirective f .output ("<%=" ++ body ++ "%>") (outputDirective (f (strip body)))
  | comment (body : Text) :
      MapsDirective f .comment ("<%#" ++ body ++ "%>") ("<%# " ++ strip body ++ " %>")

/-- The directives in a value are changed, and what stands between them is kept. -/
inductive MapsValue (f : Text → Text) : Text → Text → Prop
  | nil : MapsValue f [] []
  | char {c : Char} {r r' : Text} : ¬startsDirective (c :: r) = true → MapsValue f r r' →
      MapsValue f (c :: r) (c :: r')
  | directive {kind : TokenKind} {d d' r r' : Text} : CleanDirective kind d →
      MapsDirective f kind d d' → MapsValue f r r' → MapsValue f (d ++ r) (d' ++ r')

inductive MapsAttribute (f : Text → Text) : TagAttribute → TagAttribute → Prop
  | bare {name : Text} : isAttributeName name = true → MapsAttribute f { name } { name }
  | valued {name v v' : Text} {quote : Char} : isAttributeName name = true → MapsValue f v v' →
      MapsAttribute f { name, value := some v, quote } { name, value := some v', quote }
  | directive {kind : TokenKind} {d d' : Text} : MapsDirective f kind d d' →
      MapsAttribute f { name := d } { name := d' }

/-- What becomes of a token. Tags without directives are kept as they are written. -/
inductive MapsToken (f : Text → Text) : Token → Token → Prop
  | kept {k : Token} : k.kind ≠ .code → k.kind ≠ .output →
      (k.kind = .openTag → ¬("<%" : Text) <:+: k.text) → MapsToken f k k
  | directive {kind : TokenKind} {d d' : Text} : kind ≠ .comment → MapsDirective f kind d d' →
      MapsToken f ⟨kind, d⟩ ⟨kind, d'⟩
  | openTag {tag tag' : Tag} {t t' : Text} : ("<%" : Text) <:+: t → OpenTagText tag t →
      OpenTagText tag' t' → tag'.name = tag.name → tag'.selfClosing = tag.selfClosing →
      List.Forall₂ (MapsAttribute f) tag.attributes tag'.attributes →
      MapsToken f ⟨.openTag, t⟩ ⟨.openTag, t'⟩

def mapCode (f : Text → Text) : Text → Text := mapDirectives codeMarkers (changeDirective f)

section Directive

variable {f : Text → Text} {kind : TokenKind} {body d : Text}

def unmarked : Text → Text
  | '=' :: r | '#' :: r | '-' :: r => r
  | r => r

theorem unmarked_eq_self (hequals : body.head? ≠ some '=') (hhash : body.head? ≠ some '#')
    (hhead : body.head? ≠ some '-') : unmarked body = body := by
  unfold unmarked
  split <;> simp at *

theorem code_eq_strip (kind : TokenKind) (body : Text) (h : (unmarked body).getLast? ≠ some '-') :
    Token.code ⟨kind, "<%" ++ body ++ "%>"⟩ = strip (unmarked body) := by
  have hlen : ("<%" ++ body ++ "%>" : Text).length - 4 = body.length := by simp
  have htake : (("<%" ++ body ++ "%>" : Text).drop 2).take body.length = body := List.take_left
  have hend : ¬endsWith (unmarked body) "-" = true := by
    intro hend
    obtain ⟨s, hs⟩ := endsWith_iff.1 hend
    rw [← hs] at h
    exact h List.getLast?_concat
  rw [Token.code]
  simp only [hlen, htake]
  exact congrArg strip (if_neg hend)

theorem marked_plain (hequals : body.head? ≠ some '=') (hhash : body.head? ≠ some '#') :
    marked codeMarkers body = ([], bareCode body) := by
  cases body with
  | nil => rfl
  | cons c r =>
    have hc : ¬codeMarkers.contains c = true := by
      simp [codeMarkers] at hequals hhash ⊢
      exact ⟨hequals, hhash⟩
    rw [marked, if_neg hc]

/-- A clean directive is changed alike inside a tag and as a token. -/
theorem exists_mapsDirective (h : CleanDirective kind d) (hu : Untrimmed d)
    (hf : ∀ c, CleanCode c → CleanCode (f c)) :
    ∃ d', MapsDirective f kind d d' ∧ CleanDirective kind d' ∧
      (∀ r, mapCode f (d ++ r) = d' ++ mapCode f r) ∧
      (kind ≠ .comment → mapTokenCode f ⟨kind, d⟩ = ⟨kind, d'⟩) := by
  cases h with
  | code body hb hequals hhash =>
    obtain ⟨hhead, hlast⟩ := untrimmed_body hb.no_close hu
    have hclean := clean_codeToken (hf _ hb.strip)
    refine ⟨_, .code body hequals hhash, ?_, fun r ↦ ?_, fun _ ↦ ?_⟩
    · cases hclean with
      | directive hd => exact hd
    · rw [mapCode, mapDirectives_directive _ _ r hb.no_close, marked_plain hequals hhash,
        bareCode_eq_strip hlast]
      rfl
    · have hcode := code_eq_strip .code body
      rw [unmarked_eq_self hequals hhash hhead] at hcode
      simp only [mapTokenCode, hcode hlast]
      rfl
  | output body hb =>
    have hclose := not_close_cons (c := '=') (by decide) hb.no_close
    obtain ⟨-, hlast⟩ := untrimmed_body hclose hu
    have hlast := getLast?_of_cons hlast
    refine ⟨_, .output body, cleanDirective_output (hf _ hb.strip), fun r ↦ ?_, fun _ ↦ ?_⟩
    · have hmarked : marked codeMarkers ('=' :: body) = (['='], bareCode body) := rfl
      have hmap := mapDirectives_directive codeMarkers (changeDirective f) r hclose
      rw [hmarked, bareCode_eq_strip hlast] at hmap
      exact hmap
    · have hcode : Token.code ⟨.output, "<%=" ++ body ++ "%>"⟩ = strip body :=
        code_eq_strip .output ('=' :: body) hlast
      simp only [mapTokenCode, hcode]
      rfl
  | comment body hb =>
    have hclose := not_close_cons (c := '#') (by decide) hb
    obtain ⟨-, hlast⟩ := untrimmed_body hclose hu
    have hstrip : ¬("%>" : Text) <:+: ' ' :: (strip body ++ [' ']) := by
      refine not_close_cons (by decide) fun hin ↦ ?_
      rcases infix_append_cons (by decide) hin with hin | hin
      · exact hb (hin.trans (strip_isInfix body))
      · exact absurd hin (by decide)
    have hshape : "<%# " ++ strip body ++ " %>" =
        "<%#" ++ ' ' :: (strip body ++ [' ']) ++ "%>" := by simp
    refine ⟨_, .comment body, ?_, fun r ↦ ?_, fun h ↦ absurd rfl h⟩
    · rw [hshape]
      exact .comment _ hstrip
    · have hmarked : marked codeMarkers ('#' :: body) = (['#'], bareCode body) := rfl
      have hmap := mapDirectives_directive codeMarkers (changeDirective f) r hclose
      rw [hmarked, bareCode_eq_strip (getLast?_of_cons hlast)] at hmap
      exact hmap

end Directive

section Value

variable {f : Text → Text} {q : Char} {v : Text} {a : TagAttribute}

theorem mapsValue (h : CleanValue q v) (hu : Untrimmed v)
    (hf : ∀ c, CleanCode c → CleanCode (f c)) :
    MapsValue f v (mapCode f v) ∧ CleanValue q (mapCode f v) := by
  induction h with
  | nil => exact ⟨.nil, .nil⟩
  | @char c r hc hd hr ih =>
    rw [Untrimmed, directiveBodies_cons hd] at hu
    obtain ⟨hmaps, hclean⟩ := ih hu
    have hmap : mapCode f (c :: r) = c :: mapCode f r := mapDirectives_cons _ _ hd
    rw [hmap]
    refine ⟨.char hd hmaps, .char hc (fun hstart ↦ ?_) hclean⟩
    obtain ⟨hlt, hpercent⟩ := startsDirective_cons_iff.1 hstart
    have hmarkup (marker code : Text) : ['<'] <+: changeDirective f marker code := by
      unfold changeDirective
      split <;> exact ⟨_, rfl⟩
    have hprefix := prefix_of_mapDirectives _ _ hmarkup hr hpercent
    exact hd (startsDirective_cons_iff.2 ⟨hlt, hprefix⟩)
  | directive hd _ ih =>
    rw [Untrimmed, hd.directiveBodies_append, List.forall_mem_append] at hu
    obtain ⟨hmaps, hclean⟩ := ih hu.2
    obtain ⟨d', hdirective, hclean', hmap, -⟩ := exists_mapsDirective hd hu.1 hf
    rw [hmap]
    exact ⟨.directive hd hdirective hmaps, .directive hclean' hclean⟩

theorem mapsAttribute (h : CleanAttribute a) (hu : Untrimmed a.render)
    (hf : ∀ c, CleanCode c → CleanCode (f c)) :
    MapsAttribute f a (mapAttributeCode f a) ∧ CleanAttribute (mapAttributeCode f a) := by
  have hnamed {name : Text} (hn : isAttributeName name = true) (value : Option Text)
      (quote : Char) : mapAttributeCode f { name, value, quote } =
        { name, value := value.map (mapCode f), quote } :=
    if_neg (attributeWord_of_isAttributeName hn).named
  cases h with
  | bare hn =>
    rw [hnamed hn]
    exact ⟨.bare hn, .bare hn⟩
  | valued hn hq hv =>
    rw [Untrimmed, directiveBodies_render hn hq hv] at hu
    obtain ⟨hmaps, hclean⟩ := mapsValue hv hu hf
    rw [hnamed hn]
    exact ⟨.valued hn hmaps, .valued hn hq hclean⟩
  | @directive kind d hd =>
    obtain ⟨d', hdirective, hclean, hmap, -⟩ := exists_mapsDirective hd hu hf
    have hwhole : mapAttributeCode f { name := d } = { name := d' } := by
      have hself : mapCode f d = d' := by
        have happend := hmap []
        rwa [List.append_nil, show mapCode f [] = [] from rfl, List.append_nil] at happend
      rw [← hself]
      exact if_pos hd.startsDirective
    rw [hwhole]
    exact ⟨.directive hdirective, .directive hclean⟩

end Value

section Token

variable {f : Text → Text} {k : Token} {ts : List Token}

theorem mapTokenCode_kind (f : Text → Text) (k : Token) : (mapTokenCode f k).kind = k.kind := by
  unfold mapTokenCode
  split <;> try split
  all_goals simp [*]

theorem mapsToken_openTag {tag : Tag} {t : Text} (h : OpenTagText tag t) (hu : Untrimmed t)
    (hf : ∀ c, CleanCode c → CleanCode (f c)) (hin : ("<%" : Text) <:+: t) :
    MapsToken f ⟨.openTag, t⟩ (mapTokenCode f ⟨.openTag, t⟩) ∧
      (mapTokenCode f ⟨.openTag, t⟩).Clean := by
  have hmaps (a : TagAttribute) (ha : a ∈ tag.attributes) :=
    mapsAttribute (h.cleanAttribute a ha) (h.untrimmed hu a ha) hf
  have htext : OpenTagText { tag with attributes := tag.attributes.map (mapAttributeCode f) } _ :=
    openTagText_render h.isTagName h.closing_eq (by
      intro a ha
      obtain ⟨b, hb, rfl⟩ := List.mem_map.1 ha
      exact (hmaps b hb).2)
  have hmap : mapTokenCode f ⟨.openTag, t⟩ =
      ⟨.openTag, { tag with attributes := tag.attributes.map (mapAttributeCode f) }.render⟩ := by
    have hoccurs := (occursIn_iff (by decide)).2 hin
    simp only [mapTokenCode, hoccurs, if_true, h.parseTag_eq]
  rw [hmap]
  refine ⟨.openTag hin h htext rfl rfl ?_, htext.clean⟩
  rw [List.forall₂_map_right_iff, List.forall₂_same]
  exact fun a ha ↦ (hmaps a ha).1

theorem mapsToken (h : k.Regular) (hu : k.kind ≠ .htmlComment → Untrimmed k.text)
    (hf : ∀ c, CleanCode c → CleanCode (f c)) :
    MapsToken f k (mapTokenCode f k) ∧ (mapTokenCode f k).Clean := by
  obtain ⟨hclean, htag⟩ := h
  have hclean' := hclean
  cases hclean with
  | text => exact ⟨.kept nofun nofun nofun, hclean'⟩
  | htmlComment => exact ⟨.kept nofun nofun nofun, hclean'⟩
  | closeTag => exact ⟨.kept nofun nofun nofun, hclean'⟩
  | @directive kind d hd =>
    by_cases hcomment : kind = .comment
    · subst hcomment
      exact ⟨.kept nofun nofun nofun, hclean'⟩
    · have hkind : kind ≠ .htmlComment := by cases hd <;> decide
      obtain ⟨d', hmaps, hagain, -, hmap⟩ := exists_mapsDirective hd (hu hkind) hf
      rw [hmap hcomment]
      exact ⟨.directive hcomment hmaps, .directive hagain⟩
  | @openTag name body hname hbody =>
    by_cases hin : ("<%" : Text) <:+: "<" ++ name ++ body
    · obtain ⟨tag, ht⟩ := htag rfl
      exact mapsToken_openTag ht (hu nofun) hf hin
    · have hoccurs : ¬occursIn "<%" ("<" ++ name ++ body) = true :=
        fun h ↦ hin ((occursIn_iff (by decide)).1 h)
      have hmap : mapTokenCode f ⟨.openTag, "<" ++ name ++ body⟩ =
          ⟨.openTag, "<" ++ name ++ body⟩ := if_neg hoccurs
      rw [hmap]
      exact ⟨.kept nofun nofun fun _ ↦ hin, hclean'⟩

/-- Every code of a clean template without trim marks is changed once, in its place, and the rest
of the template is kept. -/
theorem forall₂_mapDirectiveCode (f : Text → Text) (ts : List Token)
    (h : ∀ k ∈ ts, k.Regular) (hsep : ts.IsChain Token.Separate)
    (hu : ∀ k ∈ ts, k.kind ≠ .htmlComment → Untrimmed k.text)
    (hf : ∀ c, CleanCode c → CleanCode (f c)) :
    List.Forall₂ (MapsToken f) ts (tokenize (mapDirectiveCode f (render ts))) := by
  have hmaps (k : Token) (hk : k ∈ ts) := mapsToken (h k hk) (hu k hk) hf
  have hcut : tokenize (render ts) = ts :=
    tokenize_eq_of_render rfl (fun k hk ↦ (h k hk).clean) hsep
  have hcut' : tokenize (render (ts.map (mapTokenCode f))) = ts.map (mapTokenCode f) := by
    refine tokenize_eq_of_render rfl (fun k hk ↦ ?_) (separate_of_kinds ?_ hsep)
    · obtain ⟨j, hj, rfl⟩ := List.mem_map.1 hk
      exact (hmaps j hj).2
    · rw [List.map_map]
      exact List.map_congr_left fun k _ ↦ mapTokenCode_kind f k
  rw [mapDirectiveCode, hcut, hcut', List.forall₂_map_right_iff, List.forall₂_same]
  exact fun k hk ↦ (hmaps k hk).1

def looked (code : Text) : Text := "t[\"k\"]" ++ ' ' :: code

theorem cleanCode_looked {code : Text} (h : CleanCode code) : CleanCode (looked code) :=
  CleanCode.append_cons ⟨by decide, by decide⟩ (by decide) (by decide) (by decide) h

def lookedPanel : List Token :=
  [⟨.openTag, "<p class=\"a <%= x %> b <%=y%>\" <%= z %>>"⟩, ⟨.text, "a"⟩, ⟨.code, "<% if x %>"⟩,
    ⟨.comment, "<%#c%>"⟩, ⟨.output, "<%=x%>"⟩, ⟨.htmlComment, "<!-- <%- -%> -->"⟩,
    ⟨.code, "<% end %>"⟩, ⟨.closeTag, "</p>"⟩]

theorem regular_lookedPanel : ∀ k ∈ lookedPanel, k.Regular := by
  have hcode (body : Text) (h : ¬("%>" : Text) <:+: body ∧ quoteAfter none body = none) :
      CleanDirective .output ("<%=" ++ body ++ "%>") := .output body ⟨h.1, h.2⟩
  simp only [lookedPanel, List.forall_mem_cons]
  refine ⟨?_, ⟨.text (by decide) (by decide), nofun⟩, ?_, ?_, ?_,
    ⟨.htmlComment " <%- -%> " (by decide), nofun⟩, ?_, ⟨.closeTag "p" (by decide), nofun⟩, nofun⟩
  · have hy : CleanValue '"' " b <%=y%>" :=
      .char (by decide) (by decide) (.char (by decide) (by decide) (.char (by decide) (by decide)
        (.directive (hcode "y" (by decide)) .nil)))
    have hclass : CleanValue '"' "a <%= x %> b <%=y%>" :=
      .char (by decide) (by decide) (.char (by decide) (by decide)
        (.directive (hcode " x " (by decide)) hy))
    have hattributes : ∀ a ∈ [TagAttribute.mk "class" (some "a <%= x %> b <%=y%>") '"',
        { name := "<%= z %>" }], CleanAttribute a :=
      List.forall_mem_cons.2 ⟨.valued (by decide) (by decide) hclass,
        List.forall_mem_singleton.2 (.directive (hcode " z " (by decide)))⟩
    have hp := @openTagText_render ⟨"p", _, false, false⟩ (by decide) rfl hattributes
    exact ⟨hp.clean, fun _ ↦ ⟨_, hp⟩⟩
  · exact ⟨.directive (.code " if x " ⟨by decide, by decide⟩ (by decide) (by decide)), nofun⟩
  · exact ⟨.directive (.comment "c" (by decide)), nofun⟩
  · exact ⟨.directive (hcode "x" (by decide)), nofun⟩
  · exact ⟨.directive (.code " end " ⟨by decide, by decide⟩ (by decide) (by decide)), nofun⟩

theorem forall₂_mapDirectiveCode_lookedPanel :
    List.Forall₂ (MapsToken looked) lookedPanel
      (tokenize (mapDirectiveCode looked (render lookedPanel))) :=
  forall₂_mapDirectiveCode looked lookedPanel regular_lookedPanel
    (by simp [lookedPanel, Token.Separate]) (by decide +kernel) fun _ h ↦ cleanCode_looked h

end Token

end ViewForge.Template
