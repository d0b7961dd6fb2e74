import Mathlib.Data.List.Infix
import ViewForge.Proofs.Erb.Scan
import ViewForge.Proofs.Text.Respacing
import ViewForge.Script.Interpolation

namespace ViewForge.Script

open Text
open Erb (isQuote isQuote_of_isBlank)

mutual

inductive Expr where
  | one (o : Operand)
  | plus (o : Operand) (before after : Text) (rest : Expr)

inductive Operand where
  | literal (quote : Char) (body : Text)
  | code (c : Code)

/-- Code that holds sums in places where no plus sign stands beside it, such as its arguments. -/
inductive Code where
  | bare (t : Text)
  | around (t : Text) (inner : Expr) (rest : Code)

end

mutual

def Expr.text : Expr → Text
  | .one o => o.text
  | .plus o before after rest => o.text ++ (before ++ '+' :: (after ++ rest.text))

def Operand.text : Operand → Text
  | .literal quote body => quote :: (body ++ [quote])
  | .code c => c.text

def Code.text : Code → Text
  | .bare t => t
  | .around t inner rest => t ++ (inner.text ++ rest.text)

end

def Expr.head : Expr → Operand
  | .one o => o
  | .plus o _ _ _ => o

def Code.first : Code → Text
  | .bare t => t
  | .around t _ _ => t

def Code.last : Code → Text
  | .bare t => t
  | .around _ _ rest => rest.last

mutual

/-- Joins neighbouring operands of each sum, from the left; what was joined is not joined again. -/
def Expr.merge (join : Operand → Operand → Option Operand) : Expr → Expr
  | .one o => .one (o.merge join)
  | .plus o before after rest =>
    match join o rest.head with
    | none => .plus (o.merge join) before after (rest.merge join)
    | some m =>
      match rest with
      | .one _ => .one m
      | .plus _ before' after' rest' => .plus m before' after' (rest'.merge join)

def Operand.merge (join : Operand → Operand → Option Operand) : Operand → Operand
  | .literal quote body => .literal quote body
  | .code c => .code (c.merge join)

def Code.merge (join : Operand → Operand → Option Operand) : Code → Code
  | .bare t => .bare t
  | .around t inner rest => .around t (inner.merge join) (rest.merge join)

end

inductive Value (Object : Type) where
  | text (t : Text)
  | object (o : Object)
  deriving DecidableEq

/-- What code means: how objects are shown and added, what code is worth when the sums in it mean
what they mean, and which characters the escapes of a literal stand for. -/
structure Meaning (Env Object : Type) where
  shown : Object → Text
  plus : Object → Object → Value Object
  code : List (Text ⊕ (Env → Value Object)) → Env → Value Object
  escaped : Char → Text

namespace Meaning

variable {Env Object : Type} (M : Meaning Env Object)

def toText : Value Object → Text
  | .text t => t
  | .object o => M.shown o

def add : Value Object → Value Object → Value Object
  | .object a, .object b => M.plus a b
  | a, b => .text (M.toText a ++ M.toText b)

def addTo : Option (Value Object) → Value Object → Value Object
  | none, v => v
  | some a, v => M.add a v

/-- What stands in a double-quoted literal, `skip` characters of an interpolation being left. -/
def readFrom (env : Env) : Nat → Text → Text
  | _, [] => []
  | k + 1, _ :: r => readFrom env k r
  | 0, '\\' :: c :: r => (if c == '"' then ['"'] else M.escaped c) ++ readFrom env 0 r
  | 0, '#' :: '{' :: r =>
    let code := r.takeWhile (· != '}')
    M.toText (M.code [.inl code] env) ++ readFrom env (code.length + 1) r
  | 0, c :: r => c :: readFrom env 0 r

def readPlain : Text → Text
  | [] => []
  | '\\' :: c :: r => if c == '\'' || c == '\\' then c :: readPlain r else '\\' :: c :: readPlain r
  | c :: r => c :: readPlain r

def content (env : Env) (quote : Char) (body : Text) : Text :=
  if quote == '"' then M.readFrom env 0 body else readPlain body

end Meaning

section Values

variable {Env Object : Type}

mutual

def Expr.valueAfter (M : Meaning Env Object) : Expr → Option (Value Object) → Env → Value Object
  | .one o, acc, env => M.addTo acc (o.value M env)
  | .plus o _ _ rest, acc, env => rest.valueAfter M (some (M.addTo acc (o.value M env))) env

def Operand.value (M : Meaning Env Object) : Operand → Env → Value Object
  | .literal quote body, env => .text (M.content env quote body)
  | .code c, env => M.code (c.pieces M) env

def Code.pieces (M : Meaning Env Object) : Code → List (Text ⊕ (Env → Value Object))
  | .bare t => [.inl t]
  | .around t inner rest => .inl t :: .inr (inner.valueAfter M none) :: rest.pieces M

end

def Expr.value (M : Meaning Env Object) (e : Expr) : Env → Value Object := e.valueAfter M none

end Values

def endsInPlus (t : Text) : Bool :=
  t.tails.any fun y ↦ y.head? == some '+' && isBlankText (y.drop 1)

/-- Code without quotation marks that does not begin or end with a plus sign. -/
def isPlainCode (t : Text) : Bool :=
  t.all (!isQuote ·) && !isBlankText t && (afterPlus? t).isNone && !endsInPlus t

def endsOpen (t : Text) : Bool := t.getLast?.any fun c ↦ isOperandPart c || c == '@'

def startsOpen (t : Text) : Bool := t.head?.any isOperandPart

/-- What stands before an operand of a sum: nothing, a value or a text. -/
inductive Before where
  | nothing
  | value
  | text
  deriving DecidableEq

def Before.behind (before : Before) : Operand → Before
  | .literal _ _ => .text
  | .code _ => if before = .text then .text else .value

/-- A rule on texts and what it does to sums; which literals it reads as such, and which operands
may stand beside each other. -/
structure Pass where
  rule : Text → Option (Text × Nat)
  join : Operand → Operand → Option Operand
  literal : Char → Text → Bool
  beside : Before → Operand → Operand → Bool

mutual

def Expr.fits (p : Pass) : Before → Expr → Bool
  | _, .one o => o.fits p
  | before, .plus o gap gap' rest =>
    o.fits p && isBlankText gap && isBlankText gap' && p.beside before o rest.head &&
      rest.fits p (before.behind o)

def Operand.fits (p : Pass) : Operand → Bool
  | .literal quote body => isQuote quote && p.literal quote body
  | .code c => c.fits p

def Code.fits (p : Pass) : Code → Bool
  | .bare t => isPlainCode t
  | .around t inner rest =>
    isPlainCode t && !endsOpen t && inner.fits p .nothing && !startsOpen rest.first && rest.fits p

end

section Replacement

variable {rule : Text → Option (Text × Nat)} {new x u : Text}

theorem replaceBy_append_of_none (h : ∀ y, y <:+ x → y ≠ [] → rule (y ++ u) = none) :
    replaceBy rule (x ++ u) = x ++ replaceBy rule u := by
  induction x with
  | nil => rfl
  | cons c x ih =>
    have hhere : rule (c :: (x ++ u)) = none :=
      h (c :: x) (List.suffix_refl _) (List.cons_ne_nil _ _)
    rw [List.cons_append, replaceBy, replaceByFrom, hhere]
    exact congrArg (c :: ·) (ih fun y hy ↦ h y (hy.trans (List.suffix_cons c x)))

theorem replaceByFrom_append (a b : Text) :
    replaceByFrom rule a.length (a ++ b) = replaceBy rule b := by
  induction a with
  | nil => rfl
  | cons c a ih => exact ih

theorem replaceBy_append_of_some (hx : x ≠ []) (h : rule (x ++ u) = some (new, x.length)) :
    replaceBy rule (x ++ u) = new ++ replaceBy rule u := by
  obtain ⟨c, x, rfl⟩ := List.exists_cons_of_ne_nil hx
  rw [List.cons_append] at h
  rw [List.cons_append, replaceBy, replaceByFrom, h]
  exact congrArg (new ++ ·) (replaceByFrom_append x u)

end Replacement

section Gaps

variable {t u gap : Text}

theorem isOperandPart_of_isBlank {c : Char} (h : isBlank c = true) : isOperandPart c = false :=
  blank_induction (P := fun c ↦ isOperandPart c = false) (by decide +kernel) h

theorem quote_cases {q : Char} (h : isQuote q = true) : q = '"' ∨ q = '\'' := by
  simpa [isQuote] using h

theorem dropWhile_isBlank_append (h : isBlankText gap = true) (u : Text) :
    (gap ++ u).dropWhile isBlank = u.dropWhile isBlank :=
  List.dropWhile_append_of_pos (List.all_eq_true.1 h)

/-- A text that is not white space begins with white space and another character. -/
theorem exists_dropWhile_isBlank (h : isBlankText t = false) :
    ∃ c r, isBlank c = false ∧ c ∈ t ∧ ∀ u, (t ++ u).dropWhile isBlank = c :: (r ++ u) := by
  cases hdrop : t.dropWhile isBlank with
  | nil =>
    have hall : t.all isBlank = true := List.all_eq_true.2 (List.dropWhile_eq_nil_iff.1 hdrop)
    exact absurd (hall.symm.trans h) (by decide)
  | cons c r =>
    refine ⟨c, r, ?_, (List.dropWhile_suffix isBlank).subset (hdrop ▸ List.mem_cons_self),
      fun u ↦ ?_⟩
    · have hne : t.dropWhile isBlank ≠ [] := by simp [hdrop]
      simpa only [hdrop, List.head_cons] using List.head_dropWhile_not isBlank hne
    · rw [List.dropWhile_append, hdrop, List.isEmpty_cons, if_neg Bool.false_ne_true]
      rfl

theorem afterPlus?_gap (h : isBlankText gap = true) (u : Text) :
    afterPlus? (gap ++ '+' :: u) = some (u.dropWhile isBlank) := by
  rw [afterPlus?, dropWhile_isBlank_append h]
  rfl

theorem afterPlus?_append (h : isBlankText t = false) (hplus : afterPlus? t = none) (u : Text) :
    afterPlus? (t ++ u) = none := by
  obtain ⟨c, r, -, -, hdrop⟩ := exists_dropWhile_isBlank h
  have hself := hdrop []
  rw [List.append_nil, List.append_nil] at hself
  rw [afterPlus?, hself] at hplus
  rw [afterPlus?, hdrop]
  split at hplus
  · cases hplus
  next hne =>
    split
    next heq => exact absurd (congrArg (· :: r) (List.cons.inj heq).1) (hne r)
    next => rfl

theorem afterPlus?_quote {q : Char} (h : isQuote q = true) (u : Text) :
    afterPlus? (q :: u) = none := by
  rcases quote_cases h with rfl | rfl <;> rfl

theorem startsOpen_gap (h : isBlankText gap = true) (u : Text) :
    startsOpen (gap ++ '+' :: u) = false := by
  cases gap with
  | nil => rfl
  | cons c gap => exact isOperandPart_of_isBlank (List.all_eq_true.1 h c List.mem_cons_self)

end Gaps

variable {p : Pass}

/-- A pass that finds the operands of sums: `calm` is what it needs of a text that stands behind a
quotation mark, and `ends` what it needs behind an operand that it joins with nothing. -/
structure Pass.Reads (p : Pass) (calm : Text → Prop) (ends : Operand → Text → Prop) : Prop where
  calm_nil : calm []
  calm_append {t u : Text} : (∀ c ∈ t, isQuote c = false) → calm u → calm (t ++ u)
  calm_literal {q : Char} {b u : Text} : isQuote q = true → p.literal q b = true → calm u →
    calm (q :: (b ++ q :: u))
  literal {q : Char} {b u : Text} : isQuote q = true → p.literal q b = true → calm u →
    ends (.literal q b) u →
    replaceBy p.rule (q :: (b ++ q :: u)) = q :: (b ++ q :: replaceBy p.rule u)
  code {t u : Text} : isPlainCode t = true → endsOpen t = false ∨ startsOpen u = false →
    ends (.code (.bare t)) u → replaceBy p.rule (t ++ u) = t ++ replaceBy p.rule u
  gap {t u : Text} : (∀ c ∈ t, isBlank c = true ∨ c = '+') →
    replaceBy p.rule (t ++ u) = t ++ replaceBy p.rule u
  ends_around {t u : Text} {inner : Expr} {rest : Code} :
    ends (.code (.around t inner rest)) u → ends (.code rest) u
  ends_closed {o : Operand} {u : Text} : afterPlus? u = none → ends o u
  ends_plus {before before' : Before} {o : Operand} {e : Expr} {gap gap' u : Text} :
    o.fits p = true → e.fits p before' = true → isBlankText gap = true → isBlankText gap' = true →
    p.beside before o e.head = true → p.join o e.head = none →
    ends o (gap ++ '+' :: (gap' ++ (e.text ++ u)))
  joined {o o' m : Operand} {gap gap' u : Text} : p.join o o' = some m → o.fits p = true →
    o'.fits p = true → isBlankText gap = true → isBlankText gap' = true → startsOpen u = false →
    replaceBy p.rule (o.text ++ (gap ++ '+' :: (gap' ++ (o'.text ++ u)))) =
      m.text ++ replaceBy p.rule u

section Texts

variable {before : Before} {c : Code} {o : Operand} {e : Expr} {u : Text}

theorem isPlainCode_iff {t : Text} : isPlainCode t = true ↔ (∀ c ∈ t, isQuote c = false) ∧
    isBlankText t = false ∧ afterPlus? t = none ∧ endsInPlus t = false := by
  simp [isPlainCode, and_assoc]

theorem Code.isPlainCode_first (h : c.fits p = true) : isPlainCode c.first = true := by
  cases c with
  | bare t => exact h
  | around t inner rest => 
    simp only [Code.fits, Bool.and_eq_true] at h
    exact h.1.1.1.1

theorem Code.exists_text_eq (c : Code) : ∃ r, c.text = c.first ++ r := by
  cases c with
  | bare t => exact ⟨[], (List.append_nil t).symm⟩
  | around t inner rest => exact ⟨_, rfl⟩

theorem Operand.afterPlus?_text (h : o.fits p = true) (u : Text) :
    afterPlus? (o.text ++ u) = none := by
  cases o with
  | literal q b =>
    rw [Operand.fits, Bool.and_eq_true] at h
    exact afterPlus?_quote h.1 _
  | code c =>
    obtain ⟨r, hr⟩ := c.exists_text_eq
    obtain ⟨-, hblank, hplus, -⟩ := isPlainCode_iff.1 (c.isPlainCode_first h)
    rw [Operand.text, hr, List.append_assoc]
    exact afterPlus?_append hblank hplus _

theorem Expr.head_fits (h : e.fits p before = true) : e.head.fits p = true := by
  cases e with
  | one o => exact h
  | plus o gap gap' rest =>
    simp only [Expr.fits, Bool.and_eq_true] at h
    exact h.1.1.1.1

theorem Expr.exists_text_eq (e : Expr) : ∃ r, e.text = e.head.text ++ r := by
  cases e with
  | one o => exact ⟨[], (List.append_nil o.text).symm⟩
  | plus o gap gap' rest => exact ⟨_, rfl⟩

theorem Expr.afterPlus?_text (h : e.fits p before = true) (u : Text) :
    afterPlus? (e.text ++ u) = none := by
  obtain ⟨r, hr⟩ := e.exists_text_eq
  rw [hr, List.append_assoc]
  exact Operand.afterPlus?_text (e.head_fits h) _

end Texts

namespace Pass.Reads

variable {calm : Text → Prop} {ends : Operand → Text → Prop} (h : p.Reads calm ends)

include h

theorem calm_gap {gap gap' u : Text} (hgap : isBlankText gap = true)
    (hgap' : isBlankText gap' = true) (hcalm : calm u) : calm (gap ++ '+' :: (gap' ++ u)) := by
  have hblank {g : Text} (hg : isBlankText g = true) : ∀ c ∈ g, isQuote c = false :=
    fun c hc ↦ isQuote_of_isBlank (List.all_eq_true.1 hg c hc)
  refine h.calm_append (hblank hgap) ?_
  exact h.calm_append (t := ['+']) (List.forall_mem_singleton.2 rfl)
    (h.calm_append (hblank hgap') hcalm)

mutual

theorem calm_expr : (e : Expr) → {before : Before} → {u : Text} → e.fits p before = true →
    calm u → calm (e.text ++ u)
  | .one o, _, _, hfits, hcalm => calm_operand o hfits hcalm
  | .plus o gap gap' rest, _, u, hfits, hcalm => by
    simp only [Expr.fits, Bool.and_eq_true] at hfits
    obtain ⟨⟨⟨⟨ho, hgap⟩, hgap'⟩, -⟩, hrest⟩ := hfits
    simp only [Expr.text, List.append_assoc, List.cons_append]
    exact calm_operand o ho (h.calm_gap hgap hgap' (calm_expr rest hrest hcalm))

theorem calm_operand : (o : Operand) → {u : Text} → o.fits p = true → calm u → calm (o.text ++ u)
  | .literal q b, u, hfits, hcalm => by
    rw [Operand.fits, Bool.and_eq_true] at hfits
    simp only [Operand.text, List.append_assoc, List.cons_append, List.nil_append]
    exact h.calm_literal hfits.1 hfits.2 hcalm
  | .code c, _, hfits, hcalm => calm_code c hfits hcalm

theorem calm_code : (c : Code) → {u : Text} → c.fits p = true → calm u → calm (c.text ++ u)
  | .bare t, _, hfits, hcalm => h.calm_append (isPlainCode_iff.1 hfits).1 hcalm
  | .around t inner rest, u, hfits, hcalm => by
    simp only [Code.fits, Bool.and_eq_true] at hfits
    obtain ⟨⟨⟨⟨ht, -⟩, hinner⟩, -⟩, hrest⟩ := hfits
    simp only [Code.text, List.append_assoc]
    exact h.calm_append (isPlainCode_iff.1 ht).1
      (calm_expr inner hinner (calm_code rest hrest hcalm))

end

theorem replaceBy_gap {gap gap' : Text} (hgap : isBlankText gap = true)
    (hgap' : isBlankText gap' = true) (u : Text) :
    replaceBy p.rule (gap ++ '+' :: (gap' ++ u)) =
      gap ++ '+' :: (gap' ++ replaceBy p.rule u) := by
  have hchars : ∀ c ∈ gap ++ '+' :: gap', isBlank c = true ∨ c = '+' := by
    rw [List.forall_mem_append, List.forall_mem_cons]
    exact ⟨fun c hc ↦ .inl (List.all_eq_true.1 hgap c hc), .inr rfl,
      fun c hc ↦ .inl (List.all_eq_true.1 hgap' c hc)⟩
  simpa only [List.append_assoc, List.cons_append] using h.gap (u := u) hchars

mutual

/-- A pass joins the operands of all sums of a text, whatever stands behind it. -/
theorem replaceBy_expr : (e : Expr) → {before : Before} → {u : Text} → e.fits p before = true →
    afterPlus? u = none → startsOpen u = false → calm u →
    replaceBy p.rule (e.text ++ u) = (e.merge p.join).text ++ replaceBy p.rule u
  | .one o, _, _, hfits, hplus, hopen, hcalm =>
    replaceBy_operand o hfits hopen (h.ends_closed hplus) hcalm
  | .plus o gap gap' rest, before, u, hfits, hplus, hopen, hcalm => by
    simp only [Expr.fits, Bool.and_eq_true] at hfits
    obtain ⟨⟨⟨⟨ho, hgap⟩, hgap'⟩, hbeside⟩, hrest⟩ := hfits
    have htext : (Expr.plus o gap gap' rest).text ++ u =
        o.text ++ (gap ++ '+' :: (gap' ++ (rest.text ++ u))) := by
      simp only [Expr.text, List.append_assoc, List.cons_append]
    rw [htext, Expr.merge]
    cases hjoin : p.join o rest.head with
    | none =>
      have hends := h.ends_plus (u := u) ho hrest hgap hgap' hbeside hjoin
      rw [replaceBy_operand o ho (startsOpen_gap hgap _) hends
        (h.calm_gap hgap hgap' (h.calm_expr rest hrest hcalm)), h.replaceBy_gap hgap hgap',
        replaceBy_expr rest hrest hplus hopen hcalm]
      simp only [Expr.text, List.append_assoc, List.cons_append]
    | some m =>
      match rest, hrest, hjoin with
      | .one o', hrest, hjoin => exact h.joined hjoin ho hrest hgap hgap' hopen
      | .plus o' g g' rest', hrest, hjoin =>
        rw [Expr.head] at hjoin
        simp only [Expr.fits, Bool.and_eq_true] at hrest
        obtain ⟨⟨⟨⟨ho', hg⟩, hg'⟩, -⟩, hrest'⟩ := hrest
        have hjoined := h.joined (u := g ++ '+' :: (g' ++ (rest'.text ++ u))) hjoin ho ho' hgap
          hgap' (startsOpen_gap hg _)
        simp only [Expr.text, List.append_assoc, List.cons_append]
        rw [hjoined, h.replaceBy_gap hg hg', replaceBy_expr rest' hrest' hplus hopen hcalm]

theorem replaceBy_operand : (o : Operand) → {u : Text} → o.fits p = true →
    startsOpen u = false → ends o u → calm u →
    replaceBy p.rule (o.text ++ u) = (o.merge p.join).text ++ replaceBy p.rule u
  | .literal q b, u, hfits, _, hends, hcalm => by
    rw [Operand.fits, Bool.and_eq_true] at hfits
    simp only [Operand.text, Operand.merge, List.append_assoc, List.cons_append, List.nil_append]
    exact h.literal hfits.1 hfits.2 hcalm hends
  | .code c, _, hfits, hopen, hends, hcalm => replaceBy_code c hfits hopen hends hcalm

theorem replaceBy_code : (c : Code) → {u : Text} → c.fits p = true → startsOpen u = false →
    ends (.code c) u → calm u →
    replaceBy p.rule (c.text ++ u) = (c.merge p.join).text ++ replaceBy p.rule u
  | .bare t, u, hfits, hopen, hends, _ => h.code hfits (.inr hopen) hends
  | .around t inner rest, u, hfits, hopen, hends, hcalm => by
    simp only [Code.fits, Bool.and_eq_true, Bool.not_eq_true'] at hfits
    obtain ⟨⟨⟨⟨ht, hend⟩, hinner⟩, hstart⟩, hrest⟩ := hfits
    obtain ⟨r, hr⟩ := rest.exists_text_eq
    obtain ⟨-, hblank, hplus, -⟩ := isPlainCode_iff.1 (rest.isPlainCode_first hrest)
    have hclosed : afterPlus? (rest.text ++ u) = none := by
      rw [hr, List.append_assoc]
      exact afterPlus?_append hblank hplus _
    have hopen' : startsOpen (rest.text ++ u) = false := by
      rw [hr, List.append_assoc]
      cases hfirst : rest.first with
      | nil => simp [hfirst, isBlankText] at hblank
      | cons c t => simpa [startsOpen, hfirst] using hstart
    have hcode := h.code (u := inner.text ++ (rest.text ++ u)) ht (.inl hend)
      (h.ends_closed (inner.afterPlus?_text hinner _))
    simp only [Code.text, Code.merge, List.append_assoc]
    rw [hcode, replaceBy_expr inner hinner hclosed hopen' (h.calm_code rest hrest hcalm),
      replaceBy_code rest hrest hopen (h.ends_around hends) hcalm]

end

theorem replaceBy_text {e : Expr} {before : Before} (hfits : e.fits p before = true) :
    replaceBy p.rule e.text = (e.merge p.join).text := by
  have hscan := h.replaceBy_expr e (u := []) hfits rfl rfl h.calm_nil
  rwa [List.append_nil, show replaceBy p.rule [] = [] from rfl, List.append_nil] at hscan

end Pass.Reads

section Values

variable {Env Object : Type} {M : Meaning Env Object} {acc : Option (Value Object)}

/-- What operands are worth is of the kind that is said to stand before the next. -/
def Before.Agrees : Before → Option (Value Object) → Prop
  | .nothing, none => True
  | .value, some _ => True
  | .text, some (.text _) => True
  | _, _ => False

theorem Before.agrees_nothing : Before.nothing.Agrees (none : Option (Value Object)) := trivial

theorem add_text (M : Meaning Env Object) (v : Value Object) (t : Text) :
    M.add v (.text t) = .text (M.toText v ++ t) := by
  cases v <;> rfl

theorem text_add (M : Meaning Env Object) (t : Text) (v : Value Object) :
    M.add (.text t) v = .text (t ++ M.toText v) := by
  cases v <;> rfl

theorem Before.Agrees.behind {before : Before} (h : before.Agrees acc) (o : Operand) (env : Env) :
    (before.behind o).Agrees (some (M.addTo acc (o.value M env))) := by
  cases o with
  | literal q b =>
    have htext : M.addTo acc ((Operand.literal q b).value M env) =
        .text ((acc.map M.toText).getD [] ++ M.content env q b) := by
      cases acc with
      | none => rfl
      | some a => exact add_text M a _
    rw [htext]
    trivial
  | code c =>
    cases before with
    | nothing => trivial
    | value => trivial
    | text =>
      match acc, h with
      | some (.text t), _ =>
        rw [Meaning.addTo, text_add]
        trivial

/-- Joined operands are worth what they were worth apart, behind whatever may stand before them. -/
def Pass.Keeps (p : Pass) (M : Meaning Env Object) : Prop :=
  ∀ ⦃before o o' m acc env⦄, p.join o o' = some m → o.fits p = true → o'.fits p = true →
    p.beside before o o' = true → before.Agrees acc →
    M.addTo acc (m.value M env) =
      M.addTo (some (M.addTo acc (o.value M env))) (o'.value M env)

mutual

theorem Expr.valueAfter_merge (h : p.Keeps M) : (e : Expr) → {before : Before} →
    {acc : Option (Value Object)} → e.fits p before = true → before.Agrees acc → (env : Env) →
    (e.merge p.join).valueAfter M acc env = e.valueAfter M acc env
  | .one o, _, acc, hfits, _, env => by
    rw [Expr.merge, Expr.valueAfter, Expr.valueAfter, o.value_merge h hfits]
  | .plus o gap gap' rest, before, acc, hfits, hagrees, env => by
    simp only [Expr.fits, Bool.and_eq_true] at hfits
    obtain ⟨⟨⟨⟨ho, -⟩, -⟩, hbeside⟩, hrest⟩ := hfits
    have hbehind := hagrees.behind (M := M) o env
    rw [Expr.merge, Expr.valueAfter]
    cases hjoin : p.join o rest.head with
    | none =>
      simp only
      rw [Expr.valueAfter, o.value_merge h ho, rest.valueAfter_merge h hrest hbehind]
    | some m =>
      match rest, hrest, hjoin, hbeside with
      | .one o', hrest, hjoin, hbeside => exact h hjoin ho hrest hbeside hagrees
      | .plus o' g g' rest', hrest, hjoin, hbeside =>
        simp only [Expr.fits, Bool.and_eq_true] at hrest
        simp only [Expr.valueAfter]
        rw [h hjoin ho hrest.1.1.1.1 hbeside hagrees]
        exact rest'.valueAfter_merge h hrest.2 (hbehind.behind o' env) env

theorem Operand.value_merge (h : p.Keeps M) : (o : Operand) → o.fits p = true →
    (o.merge p.join).value M = o.value M
  | .literal _ _, _ => rfl
  | .code c, hfits => by
    funext env
    rw [Operand.merge, Operand.value, Operand.value, c.pieces_merge h hfits]

theorem Code.pieces_merge (h : p.Keeps M) : (c : Code) → c.fits p = true →
    (c.merge p.join).pieces M = c.pieces M
  | .bare _, _ => rfl
  | .around t inner rest, hfits => by
    simp only [Code.fits, Bool.and_eq_true] at hfits
    obtain ⟨⟨⟨-, hinner⟩, -⟩, hrest⟩ := hfits
    have hvalue : (inner.merge p.join).valueAfter M none = inner.valueAfter M none :=
      funext fun env ↦ inner.valueAfter_merge h hinner Before.agrees_nothing env
    rw [Code.merge, Code.pieces, Code.pieces, hvalue, rest.pieces_merge h hrest]

end

theorem Expr.value_merge (h : p.Keeps M) {e : Expr} (hfits : e.fits p .nothing = true) :
    (e.merge p.join).value M = e.value M :=
  funext fun env ↦ e.valueAfter_merge h hfits Before.agrees_nothing env

end Values

end ViewForge.Script
