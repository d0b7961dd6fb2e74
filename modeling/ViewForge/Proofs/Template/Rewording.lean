import ViewForge.Proofs.Erb.AttributeLayout
import ViewForge.Proofs.Template.Actions

namespace ViewForge.Template

open Text Erb Markup

def isNamePartOrHash (c : Char) : Bool := isMarkupNamePart c || c == '#'

theorem all_isNamePartOrHash {id : Text} (h : id.all isMarkupNamePart = true) :
    id.all isNamePartOrHash = true := by
  rw [List.all_eq_true] at h ⊢
  exact fun c hc ↦ by rw [isNamePartOrHash, h c hc, Bool.true_or]

theorem not_close_append {p r : Text} (hp : '%' ∉ p) (h : ¬("%>" : Text) <:+: r) :
    ¬("%>" : Text) <:+: p ++ r := by
  induction p with
  | nil => exact h
  | cons c p ih =>
    rw [List.mem_cons, not_or] at hp
    exact not_close_cons (Ne.symm hp.1) (ih hp.2)

/-- Words of `t` with single spaces between them and with `u` put in behind some arrows. With
`spaced` the space before the next word is already written. -/
inductive Reworded (u : Text) : Bool → Text → Text → Prop
  | trailing {spaced : Bool} {t : Text} : (∀ c ∈ t, isBlank c = true) → Reworded u spaced t []
  | solid {spaced : Bool} {c : Char} {r r' : Text} : isBlank c = false → Reworded u false r r' →
      Reworded u spaced (c :: r) (c :: r')
  | arrow {spaced : Bool} {r r' : Text} : Reworded u false r r' →
      Reworded u spaced ('-' :: '>' :: r) ('-' :: '>' :: (u ++ r'))
  | first {c : Char} {r r' : Text} : isBlank c = true → Reworded u true r r' →
      Reworded u false (c :: r) (' ' :: r')
  | more {c : Char} {r r' : Text} : isBlank c = true → Reworded u true r r' →
      Reworded u true (c :: r) r'

namespace Reworded

variable {u t t' a r s : Text} {spaced : Bool} {c : Char}

theorem of_solid (hc : isBlank c = false) (hdash : c ≠ '-') (h : Reworded u spaced (c :: r) t') :
    ∃ r', t' = c :: r' ∧ Reworded u false r r' := by
  cases h with
  | trailing hblank => simp [hc] at hblank
  | solid _ h => exact ⟨_, rfl, h⟩
  | arrow _ => exact absurd rfl hdash
  | first hblank _ => simp [hc] at hblank
  | more hblank _ => simp [hc] at hblank

theorem of_mark {p : Text} (hp : (p.all fun c ↦ !isBlank c && c != '-') = true) (hne : p ≠ [])
    (h : Reworded u spaced (p ++ r) t') : ∃ r', t' = p ++ r' ∧ Reworded u false r r' := by
  induction p generalizing spaced t' with
  | nil => exact absurd rfl hne
  | cons c p ih =>
    simp only [List.all_cons, Bool.and_eq_true, Bool.not_eq_true', bne_iff_ne] at hp
    obtain ⟨s, rfl, hs⟩ := of_solid hp.1.1 hp.1.2 h
    cases p with
    | nil => exact ⟨s, rfl, hs⟩
    | cons d p =>
      obtain ⟨r', rfl, hr⟩ := ih (by simpa using hp.2) (List.cons_ne_nil d p) hs
      exact ⟨r', rfl, hr⟩

theorem head?_eq (h : Reworded u false t t') (hc : isBlank c = false) (ht : t'.head? = some c) :
    t.head? = some c := by
  cases h with
  | trailing => cases ht
  | solid _ _ => exact ht
  | arrow _ => exact ht
  | first _ _ =>
    cases ht
    cases hc

theorem blank_of_nil (h : Reworded u spaced t []) : ∀ c ∈ t, isBlank c = true := by
  generalize ht : ([] : Text) = t' at h
  induction h with
  | trailing hblank => exact hblank
  | more hc _ ih => exact List.forall_mem_cons.2 ⟨hc, ih ht⟩
  | solid | arrow | first => cases ht

/-- A solid character that is no part of an arrow is found again. -/
theorem exists_split (hc : isBlank c = false) (hdash : c ≠ '-') (hgt : c ≠ '>')
    (h : Reworded u spaced (a ++ c :: s) t') :
    ∃ a' s', t' = a' ++ c :: s' ∧ Reworded u spaced a a' ∧ Reworded u false s s' := by
  generalize ht : a ++ c :: s = t at h
  induction h generalizing a with
  | trailing hblank =>
    subst ht
    have hblank := hblank c (by simp)
    rw [hc] at hblank
    cases hblank
  | @solid _ d r r' hd h ih =>
    cases a with
    | nil =>
      cases ht
      exact ⟨[], r', rfl, .trailing nofun, h⟩
    | cons e a =>
      cases ht
      obtain ⟨a', s', rfl, ha, hs⟩ := ih rfl
      exact ⟨d :: a', s', rfl, .solid hd ha, hs⟩
  | arrow h ih =>
    rcases a with _ | ⟨d, _ | ⟨e, a⟩⟩
    · cases ht
      exact absurd rfl hdash
    · cases ht
      exact absurd rfl hgt
    · cases ht
      obtain ⟨a', s', rfl, ha, hs⟩ := ih rfl
      exact ⟨'-' :: '>' :: (u ++ a'), s', by simp, .arrow ha, hs⟩
  | first hd h ih =>
    cases a with
    | nil =>
      cases ht
      rw [hc] at hd
      cases hd
    | cons e a =>
      cases ht
      obtain ⟨a', s', rfl, ha, hs⟩ := ih rfl
      exact ⟨' ' :: a', s', rfl, .first hd ha, hs⟩
  | more hd h ih =>
    cases a with
    | nil =>
      cases ht
      rw [hc] at hd
      cases hd
    | cons e a =>
      cases ht
      obtain ⟨a', s', rfl, ha, hs⟩ := ih rfl
      exact ⟨a', s', rfl, .more hd ha, hs⟩

variable (hu : u.all isNamePartOrHash = true)

include hu

theorem quotesAlike (h : Reworded u spaced t t') :
    QuotesAlike t t' ∧ (spaced = false → EscapesAlike t t') := by
  have hplain : ∀ c ∈ u, isQuote c = false ∧ c ≠ '\\' := by
    intro c hc
    have hpart := List.all_eq_true.1 hu c hc
    simp only [isQuote, Bool.or_eq_false_iff, beq_eq_false_iff_ne]
    exact ⟨⟨ne_of_class hpart (by decide), ne_of_class hpart (by decide)⟩,
      ne_of_class hpart (by decide)⟩
  have hblank {c : Char} (r : Text) {q : Option Char} (hq : ∀ c ∈ q, isQuote c = true)
      (hc : isBlank c = true) : quoteAfter q (c :: r) = quoteAfter q r :=
    quoteAfter_blank_append (w := [c]) r hq (List.forall_mem_singleton.2 hc)
  induction h with
  | @trailing _ t ht =>
    have hquotes {t : Text} (ht : ∀ c ∈ t, isBlank c = true) : QuotesAlike t [] := by
      intro q hq
      have hskip := quoteAfter_blank_append [] hq ht
      rw [List.append_nil] at hskip
      exact hskip.symm
    refine ⟨hquotes ht, fun _ q hq ↦ ?_⟩
    cases t with
    | nil => rfl
    | cons c t =>
      rw [List.forall_mem_cons] at ht
      rw [quoteAfter, quoteAfter]
      exact hquotes ht.2 _ fun d hd ↦ by cases hd; exact hq
  | solid _ _ ih => exact ⟨ih.1.cons fun _ ↦ ih.2 rfl, fun _ ↦ ih.1.escapesAlike _ _⟩
  | arrow _ ih =>
    have hrest : QuotesAlike _ (u ++ _) :=
      fun q hq ↦ (quoteAfter_plain_append _ hq hplain).trans (ih.1 q hq)
    have hgt := hrest.cons (c := '>') (fun h ↦ absurd h (by decide))
    exact ⟨hgt.cons fun h ↦ absurd h (by decide), fun _ ↦ hgt.escapesAlike _ _⟩
  | first hc _ ih =>
    refine ⟨fun q hq ↦ ?_, fun _ ↦ ih.1.escapesAlike _ _⟩
    rw [hblank _ hq (by decide), hblank _ hq hc]
    exact ih.1 q hq
  | more hc _ ih =>
    refine ⟨fun q hq ↦ ?_, fun h ↦ absurd h (by decide)⟩
    rw [hblank _ hq hc]
    exact ih.1 q hq

theorem no_close (h : Reworded u spaced t t') (hclose : ¬("%>" : Text) <:+: t) :
    ¬("%>" : Text) <:+: t' := by
  have hrest {c : Char} {r : Text} (h : ¬("%>" : Text) <:+: c :: r) : ¬("%>" : Text) <:+: r :=
    fun hin ↦ h (hin.trans (List.suffix_cons c r).isInfix)
  induction h with
  | trailing => decide
  | @solid _ c r r' _ h ih =>
    intro hin
    rcases List.infix_cons_iff.1 hin with hstart | hin
    · obtain ⟨rfl, hgt⟩ := List.cons_prefix_cons.1 hstart
      obtain ⟨s, rfl⟩ := hgt
      obtain ⟨s', rfl⟩ := List.head?_eq_some_iff.1 (h.head?_eq (c := '>') (by decide) rfl)
      exact hclose ⟨[], s', rfl⟩
    · exact ih (hrest hclose) hin
  | @arrow _ r r' _ ih =>
    have hpercent : '%' ∉ u := fun hmem ↦ absurd (List.all_eq_true.1 hu _ hmem) (by decide)
    have hinserted := not_close_append hpercent (ih (hrest (hrest hclose)))
    exact not_close_cons (by decide) (not_close_cons (by decide) hinserted)
  | first _ _ ih => exact not_close_cons (by decide) (ih (hrest hclose))
  | more _ _ ih => exact ih (hrest hclose)

theorem cleanCode (h : Reworded u spaced t t') (ht : CleanCode t) : CleanCode t' where
  no_close := h.no_close hu ht.no_close
  closed := ((h.quotesAlike hu).1 none nofun).trans ht.closed

/-- A clean directive becomes one of its kind. -/
theorem exists_directive {kind : TokenKind} {d : Text} (hd : CleanDirective kind d)
    (h : Reworded u spaced (d ++ r) t') :
    ∃ d' r', t' = d' ++ r' ∧ CleanDirective kind d' ∧ Reworded u false r r' := by
  have hparts {p body t' : Text} {spaced : Bool}
      (hp : (p.all fun c ↦ !isBlank c && c != '-') = true) (hne : p ≠ [])
      (h : Reworded u spaced (p ++ body ++ "%>" ++ r) t') :
      ∃ body' r', t' = p ++ body' ++ "%>" ++ r' ∧ Reworded u false body body' ∧
        Reworded u false r r' := by
    rw [List.append_assoc, List.append_assoc] at h
    obtain ⟨t₁, rfl, h₁⟩ := of_mark hp hne h
    obtain ⟨body', t₂, rfl, hbody, h₂⟩ :=
      exists_split (c := '%') (by decide) (by decide) (by decide) h₁
    obtain ⟨r', rfl, hr⟩ := of_solid (c := '>') (by decide) (by decide) h₂
    exact ⟨body', r', by simp, hbody, hr⟩
  cases hd with
  | code body hb hequals hhash =>
    obtain ⟨body', r', rfl, hbody, hr⟩ := hparts (by decide) (by decide) h
    refine ⟨_, r', rfl, .code body' (hbody.cleanCode hu hb) ?_ ?_, hr⟩
    · exact fun heq ↦ hequals (hbody.head?_eq (by decide) heq)
    · exact fun heq ↦ hhash (hbody.head?_eq (by decide) heq)
  | output body hb =>
    obtain ⟨body', r', rfl, hbody, hr⟩ := hparts (by decide) (by decide) h
    exact ⟨_, r', rfl, .output body' (hbody.cleanCode hu hb), hr⟩
  | comment body hb =>
    obtain ⟨body', r', rfl, hbody, hr⟩ := hparts (by decide) (by decide) h
    exact ⟨_, r', rfl, .comment body' (hbody.no_close hu hb), hr⟩

end Reworded

section Value

variable {q : Char} {u v v' : Text}

theorem cleanValue_of_cons {c : Char} {r : Text} (hc : c ≠ '<') (h : CleanValue q (c :: r)) :
    CleanValue q r := by
  generalize ht : c :: r = t at h
  cases h with
  | nil => cases ht
  | char _ _ hr =>
    cases ht
    exact hr
  | directive hd _ =>
    obtain ⟨s, hs⟩ := startsWith_iff.1 hd.startsDirective
    rw [← hs] at ht
    exact absurd (List.cons.inj ht).1 hc

theorem cleanValue_name_append {p : Text} (hp : p.all isNamePartOrHash = true)
    (hq : isQuote q = true) (h : CleanValue q v) : CleanValue q (p ++ v) := by
  have hquote : isNamePartOrHash q = false := by
    rw [isQuote, Bool.or_eq_true, beq_iff_eq, beq_iff_eq] at hq
    rcases hq with rfl | rfl <;> decide
  induction p with
  | nil => exact h
  | cons c p ih =>
    rw [List.all_cons, Bool.and_eq_true] at hp
    exact .char (ne_of_class hp.1 hquote)
      (not_startsDirective_of_ne _ (ne_of_class hp.1 (by decide))) (ih hp.2)

theorem cleanValue_reworded {spaced : Bool} (hu : u.all isNamePartOrHash = true)
    (hq : isQuote q = true) (h : CleanValue q v) (hv : Reworded u spaced v v') :
    CleanValue q v' := by
  have hne {c : Char} (hc : isQuote c = false) : c ≠ q := (ne_of_class hq hc).symm
  induction h generalizing spaced v' with
  | nil =>
    cases hv
    exact .nil
  | @char c r hc hd hr ih =>
    cases hv with
    | trailing => exact .nil
    | solid _ h =>
      refine .char hc (fun hstart ↦ hd ?_) (ih h)
      obtain ⟨hlt, s, rfl⟩ := startsDirective_cons_iff.1 hstart
      obtain ⟨s', rfl⟩ := List.head?_eq_some_iff.1 (h.head?_eq (c := '%') (by decide) rfl)
      exact startsDirective_cons_iff.2 ⟨hlt, s', rfl⟩
    | @arrow _ r r' h =>
      have hsolid : Reworded u false ('>' :: r) ('>' :: r') := .solid (by decide) h
      have hr' := cleanValue_of_cons (by decide) (ih hsolid)
      have hgt : CleanValue q ('>' :: (u ++ r')) :=
        .char (hne (by decide)) (not_startsDirective_of_ne _ (by decide))
          (cleanValue_name_append hu hq hr')
      exact .char (hne (by decide)) (not_startsDirective_of_ne _ (by decide)) hgt
    | first _ h =>
      exact .char (hne (by decide)) (not_startsDirective_of_ne _ (by decide)) (ih h)
    | more _ h => exact ih h
  | directive hd _ ih =>
    obtain ⟨d', r', rfl, hd', hr⟩ := hv.exists_directive hu hd
    exact .directive hd' (ih hr)

end Value

section Words

variable {id w r r' : Text} {spaced : Bool}

theorem Reworded.solid_append {u p : Text} (hp : ∀ c ∈ p, isBlank c = false)
    (h : Reworded u false r r') : Reworded u false (p ++ r) (p ++ r') := by
  induction p with
  | nil => exact h
  | cons c p ih =>
    rw [List.forall_mem_cons] at hp
    exact .solid hp.1 (ih hp.2)

theorem Reworded.word_append {u : Text} (hw : IsWord w) (h : Reworded u false r r') :
    Reworded u spaced (w ++ r) (w ++ r') := by
  obtain ⟨hne, hsolid⟩ := hw
  obtain ⟨c, w, rfl⟩ := List.exists_cons_of_ne_nil hne
  rw [List.forall_mem_cons] at hsolid
  exact .solid hsolid.1 (h.solid_append hsolid.2)

theorem Reworded.qualify_append (hw : IsWord w) (h : Reworded (id ++ "#") false r r') :
    Reworded (id ++ "#") spaced (w ++ r) (qualify id w ++ r') := by
  rw [qualify]
  split
  next event handler hbreak =>
    split
    · exact h.word_append hw
    · have hshape := breakOn_eq_some hbreak
      have hsolid := hw.2
      rw [hshape, List.forall_mem_append, List.forall_mem_append] at hsolid
      have hhandler := h.solid_append hsolid.2
      have harrow {spaced : Bool} : Reworded (id ++ "#") spaced ("->" ++ (handler ++ r))
          ("->" ++ (id ++ "#" ++ (handler ++ r'))) := .arrow hhandler
      have hevent : Reworded (id ++ "#") spaced (event ++ ("->" ++ (handler ++ r)))
          (event ++ ("->" ++ (id ++ "#" ++ (handler ++ r')))) := by
        cases event with
        | nil => exact harrow
        | cons c event => exact harrow.word_append ⟨List.cons_ne_nil c event, hsolid.1.1⟩
      rw [hshape]
      simpa only [List.append_assoc] using hevent
  next => exact h.word_append hw

/-- What is put together from the words of a value is the value reworded. -/
theorem reworded_words (id v : Text) :
    Reworded (id ++ "#") true v (join " " ((words v).map (qualify id))) := by
  induction v using words_induction with
  | nil => exact .trailing nofun
  | blank c r hc ih =>
    rw [words_cons_blank r hc]
    exact .more hc ih
  | last w hw =>
    have hword : Reworded (id ++ "#") true (w ++ []) (qualify id w ++ []) :=
      .qualify_append hw (.trailing nofun)
    rw [List.append_nil, List.append_nil] at hword
    rw [words_of_isWord hw, List.map_singleton, join, List.intercalate_singleton]
    exact hword
  | word w c r hw hc ih =>
    rw [words_append_blank r hw hc, List.map_cons]
    cases hwords : words r with
    | nil =>
      rw [hwords] at ih
      have hrest : Reworded (id ++ "#") false (c :: r) [] :=
        .trailing (List.forall_mem_cons.2 ⟨hc, ih.blank_of_nil⟩)
      have hword : Reworded (id ++ "#") true (w ++ c :: r) (qualify id w ++ []) :=
        .qualify_append hw hrest
      rw [List.append_nil] at hword
      rw [List.map_nil, join, List.intercalate_singleton]
      exact hword
    | cons w' ws =>
      rw [hwords] at ih
      have hshape : join " " (qualify id w :: (w' :: ws).map (qualify id)) =
          qualify id w ++ ' ' :: join " " ((w' :: ws).map (qualify id)) := by
        simp [join, List.intercalate]
      rw [hshape]
      exact .qualify_append hw (.first hc ih)

theorem cleanValue_qualified {q : Char} {v : Text} (hid : id.all isMarkupNamePart = true)
    (hq : isQuote q = true) (h : CleanValue q v) :
    CleanValue q (join " " ((words v).map (qualify id))) := by
  refine cleanValue_reworded ?_ hq h (reworded_words id v)
  rw [List.all_append, all_isNamePartOrHash hid]
  rfl

end Words

end ViewForge.Template
