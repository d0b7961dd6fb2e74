import ViewForge.Text.Basic
import Mathlib.Data.List.DropRight
import Mathlib.Data.List.Infix

namespace ViewForge.Text

/-- The characters of a text that are not white space. -/
def ink (t : Text) : Text := t.filter (!isBlank ·)

def IsGap (w : Text) : Prop := w ≠ [] ∧ ∀ c ∈ w, isBlank c = true

def SolidHead (t : Text) : Prop := ∀ c ∈ t.head?, isBlank c = false

def SolidLast (t : Text) : Prop := ∀ c ∈ t.getLast?, isBlank c = false

structure Respaces (f : Text → Text) : Prop where
  nil : f [] = []
  cons : ∀ {c : Char} {r : Text}, isBlank c = false → f (c :: r) = c :: f r
  gap : ∀ {w r : Text}, IsGap w → SolidHead r → f (w ++ r) = f w ++ f r
  isGap : ∀ {w : Text}, IsGap w → IsGap (f w)

/-- A statement about white space holds if it holds of each of its characters. -/
theorem blank_induction {P : Char → Prop} (h : ∀ n ∈ [9, 10, 11, 12, 13, 28, 29, 30, 31, 32, 0x85,
    0xA0, 0x1680, 0x2000, 0x2001, 0x2002, 0x2003, 0x2004, 0x2005, 0x2006, 0x2007, 0x2008, 0x2009,
    0x200A, 0x2028, 0x2029, 0x202F, 0x205F, 0x3000], P (Char.ofNat n)) {c : Char}
    (hc : isBlank c = true) : P c := by
  rw [← Char.ofNat_toNat c]
  refine h c.toNat ?_
  simp only [isBlank, Bool.or_eq_true, Bool.and_eq_true, decide_eq_true_eq, beq_iff_eq] at hc
  simp only [List.mem_cons, List.not_mem_nil, or_false]
  omega

section Ink

variable {a b t w : Text}

theorem ink_append (a b : Text) : ink (a ++ b) = ink a ++ ink b := List.filter_append ..

theorem ink_cons (c : Char) (t : Text) : ink (c :: t) = ink [c] ++ ink t := ink_append [c] t

theorem ink_flatMap {α : Type} (f : α → Text) (l : List α) :
    ink (l.flatMap f) = l.flatMap fun x ↦ ink (f x) := List.filter_flatMap ..

theorem ink_join {sep : Text} (hsep : ink sep = []) (ts : List Text) :
    ink (join sep ts) = ts.flatMap ink := by
  induction ts with
  | nil => rfl
  | cons t ts ih =>
    cases ts with
    | nil => rw [join, List.intercalate_singleton, List.flatMap_singleton]
    | cons u ts =>
      rw [join, List.intercalate_cons_cons, ink_append, ink_append, hsep, List.append_nil,
        List.flatMap_cons]
      exact congrArg (ink t ++ ·) ih

theorem flatMap_ink_filter (ts : List Text) :
    (ts.filter (!·.isEmpty)).flatMap ink = ts.flatMap ink := by
  induction ts with
  | nil => rfl
  | cons t ts ih => cases t <;> simp [ih, ink]

theorem ink_eq_nil_iff : ink t = [] ↔ ∀ c ∈ t, isBlank c = true := by
  simp [ink, List.filter_eq_nil_iff]

theorem ink_eq_self_iff : ink t = t ↔ ∀ c ∈ t, isBlank c = false := by
  simp [ink, List.filter_eq_self]

theorem ink_cons_of_blank {c : Char} (h : isBlank c = true) : ink (c :: t) = ink t := by
  simp [ink, h]

theorem ink_cons_of_solid {c : Char} (h : isBlank c = false) : ink (c :: t) = c :: ink t := by
  simp [ink, h]

theorem isBlankText_eq (t : Text) : isBlankText t = (ink t).isEmpty := by
  rw [Bool.eq_iff_iff, List.isEmpty_iff, ink_eq_nil_iff]
  exact List.all_eq_true

theorem trimRight_append_singleton (p : Char → Bool) (t : Text) (c : Char) :
    trimRight p (t ++ [c]) = if p c then trimRight p t else t ++ [c] := by
  induction t with
  | nil => simp [trimRight]
  | cons d t ih =>
    rw [List.cons_append, trimRight, trimRight, ih]
    cases p c with
    | true => rfl
    | false => cases t <;> rfl

theorem trimRight_eq_rdropWhile (p : Char → Bool) (t : Text) : trimRight p t = t.rdropWhile p := by
  induction t using List.reverseRecOn with
  | nil => rfl
  | append_singleton t c ih => rw [trimRight_append_singleton, List.rdropWhile_concat, ih]

theorem ink_trimRight_of {p : Char → Bool} (hp : ∀ c, p c = true → isBlank c = true) (t : Text) :
    ink (trimRight p t) = ink t := by
  rw [trimRight_eq_rdropWhile]
  nth_rewrite 2 [← List.rdropWhile_append_rtakeWhile (p := p) (l := t)]
  rw [ink_append, ink_eq_nil_iff.2 fun c hc ↦ hp c (List.mem_rtakeWhile_imp hc), List.append_nil]

theorem ink_trimLeft_of {p : Char → Bool} (hp : ∀ c, p c = true → isBlank c = true) (t : Text) :
    ink (t.dropWhile p) = ink t := by
  nth_rewrite 2 [← List.takeWhile_append_dropWhile (p := p) (l := t)]
  rw [ink_append, ink_eq_nil_iff.2 fun c hc ↦ hp c (List.mem_takeWhile_imp hc), List.nil_append]

theorem ink_trimRight (t : Text) : ink (trimRight isBlank t) = ink t :=
  ink_trimRight_of (fun _ h ↦ h) t

theorem ink_trimLeft (t : Text) : ink (t.dropWhile isBlank) = ink t :=
  ink_trimLeft_of (fun _ h ↦ h) t

theorem ink_strip (t : Text) : ink (strip t) = ink t := by
  rw [strip, trim, trimLeft, ink_trimRight, ink_trimLeft]

theorem solidLast_trimRight (t : Text) : SolidLast (trimRight isBlank t) := by
  intro c hc
  rw [trimRight_eq_rdropWhile] at hc
  have hne : t.rdropWhile isBlank ≠ [] := by
    rintro heq
    rw [heq] at hc
    cases hc
  rw [List.getLast?_eq_getLast_of_ne_nil hne] at hc
  rw [← Bool.not_eq_true, ← Option.some.inj hc]
  exact List.rdropWhile_last_not isBlank t hne

theorem trimRight_eq_self_iff : trimRight isBlank t = t ↔ SolidLast t := by
  constructor
  · intro h
    rw [← h]
    exact solidLast_trimRight t
  · intro h
    rw [trimRight_eq_rdropWhile, List.rdropWhile_eq_self_iff]
    intro hne
    rw [Bool.not_eq_true]
    exact h _ (List.getLast?_eq_getLast_of_ne_nil hne)

theorem trimRight_append_blank (a : Text) (h : ∀ c ∈ w, isBlank c = true) :
    trimRight isBlank (a ++ w) = trimRight isBlank a := by
  induction w using List.reverseRecOn with
  | nil => rw [List.append_nil]
  | append_singleton w c ih =>
    rw [List.forall_mem_append, List.forall_mem_singleton] at h
    rw [← List.append_assoc, trimRight_eq_rdropWhile, List.rdropWhile_concat_pos _ _ _ h.2,
      ← trimRight_eq_rdropWhile, ih h.1]

theorem strip_append_blank (a : Text) (h : ∀ c ∈ w, isBlank c = true) :
    strip (a ++ w) = strip a := by
  rw [strip, trim, trimLeft, List.dropWhile_append]
  split
  next hempty =>
    rw [List.dropWhile_eq_nil_iff.2 h, strip, trim, trimLeft, List.isEmpty_iff.1 hempty]
  next => rw [trimRight_append_blank _ h, strip, trim, trimLeft]

theorem strip_cons_blank {c : Char} (h : isBlank c = true) (t : Text) :
    strip (c :: t) = strip t := by
  rw [strip, trim, trimLeft, List.dropWhile_cons_of_pos h, strip, trim, trimLeft]

theorem trimRight_isInfix (t : Text) : trimRight isBlank t <:+: t := by
  rw [trimRight_eq_rdropWhile]
  exact (List.rdropWhile_prefix isBlank t).isInfix

theorem solidHead_trimLeft (t : Text) : SolidHead (t.dropWhile isBlank) := by
  intro c hc
  have hne : t.dropWhile isBlank ≠ [] := by
    rintro heq
    rw [heq] at hc
    cases hc
  rw [List.head?_eq_some_head hne] at hc
  rw [← Bool.not_eq_true, ← Option.some.inj hc]
  exact Bool.not_eq_true _ ▸ List.head_dropWhile_not isBlank hne

end Ink

section Ends

variable {a b : Text}

theorem SolidHead.append (ha : SolidHead a) (hb : SolidHead b) : SolidHead (a ++ b) := by
  cases a with
  | nil => exact hb
  | cons c a => exact ha

theorem SolidLast.append (ha : SolidLast a) (hb : SolidLast b) : SolidLast (a ++ b) := by
  intro c hc
  rw [List.getLast?_append] at hc
  cases hlast : b.getLast? with
  | none =>
    rw [hlast, Option.none_or] at hc
    exact ha c hc
  | some d =>
    rw [hlast, Option.some_or] at hc
    exact hb c (hlast.trans hc)

theorem SolidLast.of_append (h : SolidLast (a ++ b)) : SolidLast b := by
  intro c hc
  refine h c ?_
  rw [List.getLast?_append, hc]
  rfl

theorem trimRight_append_solidLast (b : Text) (ha : SolidLast a) :
    trimRight isBlank (a ++ b) = a ++ trimRight isBlank b := by
  have hblank : ∀ c ∈ b.rtakeWhile isBlank, isBlank c = true :=
    fun c hc ↦ List.mem_rtakeWhile_imp hc
  nth_rewrite 1 [← List.rdropWhile_append_rtakeWhile (p := isBlank) (l := b)]
  rw [← List.append_assoc, trimRight_append_blank _ hblank, ← trimRight_eq_rdropWhile]
  exact trimRight_eq_self_iff.2 (ha.append (solidLast_trimRight b))

theorem solidHead_cons {c : Char} (r : Text) (h : isBlank c = false) : SolidHead (c :: r) := by
  rintro _ ⟨⟩
  exact h

theorem SolidLast.of_ne_nil (a : Text) (hb : SolidLast b) (hne : b ≠ []) : SolidLast (a ++ b) := by
  intro c hc
  rw [List.getLast?_append_of_ne_nil _ hne] at hc
  exact hb c hc

theorem solidLast_concat {c : Char} (r : Text) (h : isBlank c = false) : SolidLast (r ++ [c]) :=
  SolidLast.of_ne_nil r (by rintro _ ⟨⟩; exact h) (List.cons_ne_nil c [])

end Ends

/-- Goes through a text from stretch to stretch of white space. -/
theorem gap_induction {P : Text → Prop} (nil : P [])
    (cons : ∀ c r, isBlank c = false → P r → P (c :: r))
    (gap : ∀ w r, IsGap w → SolidHead r → P r → P (w ++ r)) (t : Text) : P t := by
  induction hn : t.length using Nat.strong_induction_on generalizing t with
  | _ n ih =>
    subst hn
    cases t with
    | nil => exact nil
    | cons c r =>
      cases hc : isBlank c with
      | false => exact cons c r hc (ih _ (Nat.lt_succ_self _) r rfl)
      | true =>
        have hlen : (r.dropWhile isBlank).length < (c :: r).length :=
          Nat.lt_succ_of_le (List.dropWhile_suffix isBlank).length_le
        have hgap : IsGap (c :: r.takeWhile isBlank) := by
          refine ⟨List.cons_ne_nil _ _, ?_⟩
          rw [List.forall_mem_cons]
          exact ⟨hc, fun d hd ↦ List.mem_takeWhile_imp hd⟩
        have hstep := gap _ _ hgap (solidHead_trimLeft r) (ih _ hlen _ rfl)
        rwa [List.cons_append, List.takeWhile_append_dropWhile] at hstep

namespace Respaces

variable {f g : Text → Text} {a b p t : Text}

theorem solidHead (h : Respaces f) (ht : SolidHead t) : SolidHead (f t) := by
  cases t with
  | nil => rwa [h.nil]
  | cons c r =>
    rw [h.cons (ht c rfl)]
    exact solidHead_cons _ (ht c rfl)

theorem comp (hf : Respaces f) (hg : Respaces g) : Respaces (f ∘ g) where
  nil := by rw [Function.comp_apply, hg.nil, hf.nil]
  cons hc := by rw [Function.comp_apply, hg.cons hc, hf.cons hc, Function.comp_apply]
  gap hw hr := by
    rw [Function.comp_apply, hg.gap hw hr, hf.gap (hg.isGap hw) (hg.solidHead hr)]
    rfl
  isGap hw := hf.isGap (hg.isGap hw)

/-- What such a change does is settled by what it does to white space. -/
theorem ext (hf : Respaces f) (hg : Respaces g) (h : ∀ w, IsGap w → f w = g w) (t : Text) :
    f t = g t := by
  induction t using gap_induction with
  | nil => rw [hf.nil, hg.nil]
  | cons c r hc ih => rw [hf.cons hc, hg.cons hc, ih]
  | gap w r hw hr ih => rw [hf.gap hw hr, hg.gap hw hr, ih, h w hw]

theorem append_solidHead (h : Respaces f) (a : Text) (hb : SolidHead b) :
    f (a ++ b) = f a ++ f b := by
  induction a using gap_induction with
  | nil => rw [h.nil, List.nil_append, List.nil_append]
  | cons c r hc ih => rw [List.cons_append, h.cons hc, h.cons hc, ih, List.cons_append]
  | gap w r hw hr ih =>
    rw [List.append_assoc, h.gap hw (hr.append hb), h.gap hw hr, ih, List.append_assoc]

theorem append_solidLast (h : Respaces f) (b : Text) (ha : SolidLast a) :
    f (a ++ b) = f a ++ f b := by
  induction a using gap_induction with
  | nil => rw [h.nil, List.nil_append, List.nil_append]
  | cons c r hc ih =>
    have hr : SolidLast r := SolidLast.of_append (a := [c]) ha
    rw [List.cons_append, h.cons hc, h.cons hc, ih hr, List.cons_append]
  | gap w r hw hr ih =>
    cases r with
    | nil =>
      have hlast := List.getLast?_eq_getLast_of_ne_nil hw.1
      rw [List.append_nil] at ha
      exact absurd (hw.2 _ (List.getLast_mem hw.1)) (by rw [ha _ hlast]; decide)
    | cons c r =>
      have hsolid : SolidHead (c :: r ++ b) := solidHead_cons _ (hr c rfl)
      rw [List.append_assoc, h.gap hw hsolid, h.gap hw hr, ih ha.of_append, List.append_assoc]

theorem ink_eq (h : Respaces f) (t : Text) : ink (f t) = ink t := by
  induction t using gap_induction with
  | nil => rw [h.nil]
  | cons c r hc ih => rw [h.cons hc, ink_cons_of_solid hc, ink_cons_of_solid hc, ih]
  | gap w r hw hr ih =>
    rw [h.gap hw hr, ink_append, ink_append, ih, ink_eq_nil_iff.2 hw.2,
      ink_eq_nil_iff.2 (h.isGap hw).2]

theorem ne_nil (h : Respaces f) (ht : t ≠ []) : f t ≠ [] := by
  induction t using gap_induction with
  | nil => exact absurd rfl ht
  | cons c r hc ih =>
    rw [h.cons hc]
    exact List.cons_ne_nil _ _
  | gap w r hw hr ih =>
    rw [h.gap hw hr]
    exact List.append_ne_nil_of_left_ne_nil (h.isGap hw).1 _

theorem solidLast (h : Respaces f) (ht : SolidLast t) : SolidLast (f t) := by
  rcases t.eq_nil_or_concat' with rfl | ⟨r, c, rfl⟩
  · rwa [h.nil]
  · have hc : isBlank c = false := ht c List.getLast?_concat
    have hlast : f [c] = [c] := by rw [h.cons hc, h.nil]
    rw [h.append_solidHead r (solidHead_cons [] hc), hlast]
    exact solidLast_concat _ hc

theorem trimRight_comm (h : Respaces f) (t : Text) :
    trimRight isBlank (f t) = f (trimRight isBlank t) := by
  have hblank : ∀ c ∈ t.rtakeWhile isBlank, isBlank c = true :=
    fun c hc ↦ List.mem_rtakeWhile_imp hc
  have hsolid := solidLast_trimRight t
  have hend : ∀ c ∈ f (t.rtakeWhile isBlank), isBlank c = true := by
    by_cases hnil : t.rtakeWhile isBlank = []
    · rw [hnil, h.nil]
      exact nofun
    · exact (h.isGap ⟨hnil, hblank⟩).2
  have hsplit : t = trimRight isBlank t ++ t.rtakeWhile isBlank := by
    rw [trimRight_eq_rdropWhile, List.rdropWhile_append_rtakeWhile]
  nth_rewrite 1 [hsplit]
  rw [h.append_solidLast _ hsolid, trimRight_append_blank _ hend]
  exact trimRight_eq_self_iff.2 (h.solidLast hsolid)

section Patterns

variable (hp : ∀ c ∈ p, isBlank c = false)

include hp

theorem prefix_of_prefix (h : Respaces f) (ht : p <+: f t) : p <+: t := by
  induction t using gap_induction generalizing p with
  | nil => rwa [h.nil] at ht
  | cons c r hc ih =>
    rw [h.cons hc] at ht
    cases p with
    | nil => exact List.nil_prefix
    | cons d p =>
      rw [List.forall_mem_cons] at hp
      rw [List.cons_prefix_cons] at ht ⊢
      exact ⟨ht.1, ih hp.2 ht.2⟩
  | gap w r hw hr ih =>
    rw [h.gap hw hr] at ht
    cases p with
    | nil => exact List.nil_prefix
    | cons d p =>
      obtain ⟨c, s, hcs⟩ := List.exists_cons_of_ne_nil (h.isGap hw).1
      have hblank := (h.isGap hw).2 c (hcs ▸ List.mem_cons_self)
      rw [hcs, List.cons_append, List.cons_prefix_cons] at ht
      rw [← ht.1, hp d List.mem_cons_self] at hblank
      cases hblank

theorem infix_of_blank_append {w r : Text} (hne : p ≠ []) (hw : ∀ c ∈ w, isBlank c = true)
    (h : p <:+: w ++ r) : p <:+: r := by
  induction w with
  | nil => exact h
  | cons c w ih =>
    rw [List.forall_mem_cons] at hw
    rcases List.infix_cons_iff.1 h with hpre | hin
    · obtain ⟨d, s, rfl⟩ := List.exists_cons_of_ne_nil hne
      rw [List.cons_prefix_cons] at hpre
      rw [← hpre.1, hp d List.mem_cons_self] at hw
      cases hw.1
    · exact ih hw.2 hin

/-- No pattern without white space comes to stand in a text through a change of white space. -/
theorem infix_of_infix (h : Respaces f) (ht : p <:+: f t) : p <:+: t := by
  by_cases hne : p = []
  · rw [hne]
    exact List.nil_infix
  induction t using gap_induction with
  | nil => rwa [h.nil] at ht
  | cons c r hc ih =>
    rw [h.cons hc] at ht
    rcases List.infix_cons_iff.1 ht with hpre | hin
    · rw [← h.cons hc] at hpre
      exact (h.prefix_of_prefix hp hpre).isInfix
    · exact (ih hin).trans (List.suffix_cons c r).isInfix
  | gap w r hw hr ih =>
    rw [h.gap hw hr] at ht
    have hin := infix_of_blank_append hp hne (h.isGap hw).2 ht
    exact (ih hin).trans (List.suffix_append w r).isInfix

end Patterns

end Respaces

end ViewForge.Text
