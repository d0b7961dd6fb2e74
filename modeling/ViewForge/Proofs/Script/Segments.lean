import Mathlib.Data.List.Chain
import ViewForge.Proofs.Script.Templates

namespace ViewForge.Script

open Text

def Segment.isCode : Segment → Bool
  | .code _ => true
  | _ => false

/-- Segments that a text consists of: code without quotes, never two pieces of it side by side,
and literals that begin with their quote. -/
structure IsCut (segs : List Segment) (code : Text) : Prop where
  text_eq : segs.flatMap Segment.text = code
  text_ne_nil : ∀ s ∈ segs, s.text ≠ []
  plain : ∀ t, .code t ∈ segs → ∀ c ∈ t, isLiteralQuote c = false
  string_head : ∀ t, .string t ∈ segs → t.head? = some '"' ∨ t.head? = some '\''
  template_head : ∀ t, .template t ∈ segs → t.head? = some backtick
  apart : segs.IsChain fun a b ↦ ¬(a.isCode = true ∧ b.isCode = true)

def literalSegment (q : Char) (t : Text) : Segment :=
  if q == backtick then .template (q :: t) else .string (q :: t)

section Cut

variable {c q : Char} {r t : Text} {segs : List Segment}

theorem segmentsFrom_eq (k : Nat) (t : Text) : segmentsFrom k t = segments (t.drop k) := by
  induction t generalizing k with
  | nil => cases k <;> rfl
  | cons c t ih =>
    cases k with
    | zero => rfl
    | succ k => exact ih k

theorem segments_plain (h : isLiteralQuote c = false) (r : Text) :
    segments (c :: r) = consCode c (segments r) := by
  rw [segments, segmentsFrom, if_neg (Bool.not_eq_true _ ▸ h)]
  rfl

theorem segments_quote (h : isLiteralQuote q = true) (r : Text) :
    segments (q :: r) =
      let n := (closeLength [.literal q] r).getD r.length
      literalSegment q (r.take n) :: segments (r.drop n) := by
  rw [segments, segmentsFrom, if_pos h]
  simp only [segmentsFrom_eq, literalSegment]

theorem literalSegment_cases (h : isLiteralQuote q = true) (t : Text) :
    (literalSegment q t = .template (q :: t) ∧ q = backtick) ∨
      (literalSegment q t = .string (q :: t) ∧ (q = '"' ∨ q = '\'')) := by
  rw [literalSegment]
  by_cases hback : q = backtick
  · exact .inl ⟨if_pos (beq_iff_eq.2 hback), hback⟩
  · refine .inr ⟨if_neg (mt beq_iff_eq.1 hback), ?_⟩
    simp only [isLiteralQuote, Bool.or_eq_true, beq_iff_eq] at h
    refine h.resolve_right fun hcode ↦ hback (Char.toNat_inj.1 ?_)
    exact hcode

theorem isCut_nil : IsCut [] [] :=
  ⟨rfl, nofun, nofun, nofun, nofun, .nil⟩

theorem IsCut.literal (h : IsCut segs r) (hq : isLiteralQuote q = true) (t : Text) :
    IsCut (literalSegment q t :: segs) (q :: t ++ r) := by
  have htext : (literalSegment q t).text = q :: t := by
    rcases literalSegment_cases hq t with ⟨heq, -⟩ | ⟨heq, -⟩ <;> rw [heq] <;> rfl
  have hcode : (literalSegment q t).isCode = false := by
    rcases literalSegment_cases hq t with ⟨heq, -⟩ | ⟨heq, -⟩ <;> rw [heq] <;> rfl
  constructor
  · rw [List.flatMap_cons, htext, h.text_eq]
  · exact List.forall_mem_cons.2 ⟨htext ▸ List.cons_ne_nil q t, h.text_ne_nil⟩
  · intro u hu
    rcases List.mem_cons.1 hu with hu | hu
    · rw [← hu] at hcode
      cases hcode
    · exact h.plain u hu
  · intro u hu
    rcases List.mem_cons.1 hu with hu | hu
    · rcases literalSegment_cases hq t with ⟨heq, -⟩ | ⟨heq, hquote⟩
      · cases hu.trans heq
      · cases hu.trans heq
        exact hquote.imp (congrArg some) (congrArg some)
    · exact h.string_head u hu
  · intro u hu
    rcases List.mem_cons.1 hu with hu | hu
    · rcases literalSegment_cases hq t with ⟨heq, hquote⟩ | ⟨heq, -⟩
      · cases hu.trans heq
        exact congrArg some hquote
      · cases hu.trans heq
    · exact h.template_head u hu
  · refine h.apart.cons fun s _ ⟨hs, _⟩ ↦ ?_
    rw [hcode] at hs
    cases hs

theorem IsCut.cons (h : IsCut segs r) (hc : isLiteralQuote c = false) :
    IsCut (consCode c segs) (c :: r) := by
  unfold consCode
  split
  next t segs =>
    -- The code that the segments begin with takes the character in.
    obtain ⟨htext, hne, hplain, hstring, htemplate, hapart⟩ := h
    constructor
    · rw [← htext]
      rfl
    · exact List.forall_mem_cons.2
        ⟨List.cons_ne_nil c t, (List.forall_mem_cons.1 hne).2⟩
    · intro u hu
      rcases List.mem_cons.1 hu with hu | hu
      · cases hu
        exact List.forall_mem_cons.2 ⟨hc, hplain t List.mem_cons_self⟩
      · exact hplain u (List.mem_cons_of_mem _ hu)
    · exact fun u hu ↦ hstring u (List.mem_cons_of_mem _ ((List.mem_cons.1 hu).resolve_left nofun))
    · exact fun u hu ↦
        htemplate u (List.mem_cons_of_mem _ ((List.mem_cons.1 hu).resolve_left nofun))
    · rw [List.isChain_cons] at hapart ⊢
      exact hapart
  next hhead =>
    constructor
    · rw [List.flatMap_cons, h.text_eq]
      rfl
    · exact List.forall_mem_cons.2 ⟨List.cons_ne_nil c [], h.text_ne_nil⟩
    · intro u hu
      rcases List.mem_cons.1 hu with hu | hu
      · cases hu
        exact List.forall_mem_singleton.2 hc
      · exact h.plain u hu
    · exact fun u hu ↦ h.string_head u ((List.mem_cons.1 hu).resolve_left nofun)
    · exact fun u hu ↦ h.template_head u ((List.mem_cons.1 hu).resolve_left nofun)
    · refine List.isChain_cons.2 ⟨?_, h.apart⟩
      rintro s hs ⟨-, hcode⟩
      obtain ⟨segs, rfl⟩ := List.head?_eq_some_iff.1 hs
      cases s with
      | code t => exact hhead t segs rfl
      | string t => cases hcode
      | template t => cases hcode

theorem isCut_segments (code : Text) : IsCut (segments code) code := by
  -- On the length, since a literal takes many characters at once.
  induction hn : code.length using Nat.strong_induction_on generalizing code with
  | _ n ih =>
    cases code with
    | nil => exact isCut_nil
    | cons c r =>
      rw [List.length_cons] at hn
      cases hc : isLiteralQuote c with
      | false =>
        rw [segments_plain hc]
        exact (ih r.length (by omega) r rfl).cons hc
      | true =>
        rw [segments_quote hc]
        dsimp only
        generalize (closeLength [.literal c] r).getD r.length = k
        have hrest := ih (r.drop k).length (by rw [List.length_drop]; omega) (r.drop k) rfl
        have hcut := hrest.literal hc (r.take k)
        rwa [List.cons_append, List.take_append_drop] at hcut

end Cut

section Join

variable {c q : Char} {t r : Text} {body : List Item}

def codeSegment (t : Text) : List Segment := if t.isEmpty then [] else [.code t]

/-- Code without quotes is one segment, if no code follows it. -/
theorem segments_plain_append (ht : ∀ c ∈ t, isLiteralQuote c = false)
    (hr : (segments r).head?.all (!·.isCode) = true) :
    segments (t ++ r) = codeSegment t ++ segments r := by
  induction t with
  | nil => rfl
  | cons c t ih =>
    rw [List.forall_mem_cons] at ht
    rw [List.cons_append, segments_plain ht.1, ih ht.2]
    cases t with
    | nil =>
      cases hsegs : segments r with
      | nil => rfl
      | cons s segs =>
        cases s with
        | code u => simp [hsegs, Segment.isCode] at hr
        | string u => rfl
        | template u => rfl
    | cons d t => rfl

def stringSource (q : Char) (body : List Item) : Text := q :: itemsSource body ++ [q]

theorem segments_string (hq : q = '"' ∨ q = '\'') (hbody : isBody q body = true) (r : Text) :
    segments (stringSource q body ++ r) = .string (stringSource q body) :: segments r := by
  have hquote : isLiteralQuote q = true := by rcases hq with rfl | rfl <;> rfl
  have hback : q ≠ backtick := by rcases hq with rfl | rfl <;> decide
  have hpass : PassesTo [.literal q] (itemsSource body ++ [q]) r [] :=
    (passesTo_items hquote hbody fun h ↦ absurd h hback).trans (passesTo_close hquote r)
  have hclose : closeLength [.literal q] (itemsSource body ++ [q] ++ r) =
      some (itemsSource body ++ [q]).length := by
    rw [hpass, closeLength, Option.map_some, Nat.zero_add]
  have hshape : stringSource q body ++ r = q :: (itemsSource body ++ [q] ++ r) := rfl
  rw [hshape, segments_quote hquote, hclose]
  simp only [Option.getD_some, List.take_left, List.drop_left, literalSegment,
    if_neg (mt beq_iff_eq.1 hback)]
  rfl

/-- Every expression is cut into pieces that make it up, and its spelling is made of theirs. Code
before a complete string, the string and the rest are spelled by themselves, the string as it
stands. -/
theorem isCut_segments_toRuby_append :
    (∀ code, IsCut (segments code) code ∧
      toRuby code = (segments code).flatMap Segment.toRuby) ∧
    ∀ (before rest : Text) (q : Char) (body : List Item),
      (∀ c ∈ before, isLiteralQuote c = false) → q = '"' ∨ q = '\'' → isBody q body = true →
      toRuby (before ++ stringSource q body ++ rest) =
        toRuby before ++ stringSource q body ++ toRuby rest := by
  refine ⟨fun code ↦ ⟨isCut_segments code, toRuby_eq code⟩, ?_⟩
  intro before rest q body hbefore hq hbody
  have hstring := segments_string hq hbody rest
  have hall : segments (before ++ (stringSource q body ++ rest)) =
      codeSegment before ++ segments (stringSource q body ++ rest) :=
    segments_plain_append hbefore (by rw [hstring]; rfl)
  have hcode : segments before = codeSegment before := by
    have hplain := segments_plain_append (r := []) hbefore rfl
    rwa [List.append_nil, show segments [] = [] from rfl, List.append_nil] at hplain
  rw [toRuby_eq before, hcode, toRuby_eq, List.append_assoc, hall, hstring, List.flatMap_append,
    List.flatMap_cons, toRuby_eq rest, List.append_assoc]
  rfl

/-- Operators change on both sides of a string that is full of them. -/
theorem toRuby_append_operators :
    (∀ c ∈ ("a === " : Text), isLiteralQuote c = false) ∧
      isBody '\'' ("=== null".toList.map .plain) = true ∧
      toRuby "a === '=== null' ?? null" = "a == '=== null' || nil" := by
  have hbefore : ∀ c ∈ ("a === " : Text), isLiteralQuote c = false := by simp [isLiteralQuote]
  have hbody : isBody '\'' ("=== null".toList.map .plain) = true := by decide
  refine ⟨hbefore, hbody, ?_⟩
  have hjoin := isCut_segments_toRuby_append.2 "a === " " ?? null" '\''
    ("=== null".toList.map .plain) hbefore (.inr rfl) hbody
  have hcode (t : Text) (ht : segments t = [.code t]) : toRuby t = operators t := by
    rw [toRuby_eq, ht]
    exact List.append_nil _
  rw [hcode "a === " (by decide), hcode " ?? null" (by decide)] at hjoin
  exact hjoin

end Join

end ViewForge.Script
