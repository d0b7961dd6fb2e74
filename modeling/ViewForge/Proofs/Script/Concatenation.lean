import ViewForge.Proofs.Naming
import ViewForge.Proofs.Script.Sums

namespace ViewForge.Script

open Text Naming
open Erb (isQuote isQuote_of_isBlank)

/-- A character that neither ends a literal nor means anything but itself there. -/
def isOrdinary (quote c : Char) : Bool := !(c == quote || c == '\\' || c == '#')

def isSimple (quote : Char) (body : Text) : Bool := body.all (isOrdinary quote)

def isName (t : Text) : Bool := !t.isEmpty && operand t == t

def Code.isName : Code → Bool
  | .bare t => Script.isName t
  | .around _ _ _ => false

def isWordStart (c : Char) : Bool := isAsciiLetter c || c == '_'

def beginsName (t : Text) : Bool :=
  (t.dropWhile isBlank).head?.any fun c ↦ c == '@' || isWordStart c

def endsInName (t : Text) : Bool :=
  t.tails.any fun y ↦ !(operand y).isEmpty && isBlankText (y.drop (operand y).length)

def holdsQuotePlus (t : Text) : Bool :=
  t.tails.any fun y ↦ y.head?.any isQuote && (afterPlus? (y.drop 1)).isSome

def holdsPlusQuote (t : Text) : Bool :=
  t.tails.any fun y ↦ y.head? == some '+' && ((y.drop 1).dropWhile isBlank).head?.any isQuote

def leftPass : Pass where
  rule := literalThenValue?
  join
    | .literal q b, .code (.bare v) =>
      if isSimple q b && isName v then some (.literal '"' (quoteMarks b ++ interpolation v))
      else none
    | _, _ => none
  literal q b := !b.contains q && !holdsQuotePlus (q :: b)
  beside
    | _, .literal q b, .code c => !isSimple q b || c.isName || !beginsName c.first
    | _, _, _ => true

/-- Names and the literals behind them. A name is joined at the beginning of its sum, or where a
literal has made a text of what stands before it. -/
def rightPass : Pass where
  rule := valueThenLiteral?
  join
    | .code (.bare v), .literal q b =>
      if isSimple q b && isName v then some (.literal '"' (interpolation v ++ quoteMarks b))
      else none
    | _, _ => none
  literal q b :=
    (b.dropWhile (isOrdinary q)).head? != some q && !holdsPlusQuote (b ++ [q])
  beside
    | before, .code c, .literal q b =>
      !isSimple q b || !endsInName c.last || c.isName && before != .value
    | _, _, _ => true

section Names

variable {t u v x y : Text} {c q : Char}

theorem holdsQuotePlus_eq_false :
    holdsQuotePlus t = false ↔ ∀ q r, isQuote q = true → q :: r <:+ t → afterPlus? r = none := by
  rw [holdsQuotePlus, List.any_eq_false]
  constructor
  · intro h q r hq hr
    simpa [hq] using h (q :: r) ((List.mem_tails _ _).2 hr)
  · intro h y hy
    cases y with
    | nil => simp
    | cons q r =>
      cases hq : isQuote q with
      | false => simp [hq]
      | true => simp [hq, h q r hq ((List.mem_tails _ _).1 hy)]

theorem holdsPlusQuote_eq_false :
    holdsPlusQuote t = false ↔
      ∀ r, '+' :: r <:+ t → ∀ c ∈ (r.dropWhile isBlank).head?, isQuote c = false := by
  rw [holdsPlusQuote, List.any_eq_false]
  constructor
  · intro h r hr
    simpa [Option.any_eq_false] using h ('+' :: r) ((List.mem_tails _ _).2 hr)
  · intro h y hy
    cases y with
    | nil => simp
    | cons c r =>
      by_cases hc : c = '+'
      · subst hc
        simpa [Option.any_eq_false] using h r ((List.mem_tails _ _).1 hy)
      · simp [hc]

theorem simpleLiteral?_of_head? (h : ∀ c ∈ t.head?, isQuote c = false) :
    simpleLiteral? t = none := by
  cases t with
  | nil => rfl
  | cons c r =>
    have hc := h c rfl
    rw [isQuote] at hc
    rw [simpleLiteral?, hc, if_neg Bool.false_ne_true]

theorem simpleLiteral?_quote (hq : isQuote q = true) (r : Text) :
    simpleLiteral? (q :: r) =
      if r[(r.takeWhile (isOrdinary q)).length]? == some q then some (r.takeWhile (isOrdinary q))
      else none := by
  rw [isQuote] at hq
  rw [simpleLiteral?, if_pos hq]
  rfl

theorem simpleLiteral?_ordinary (hq : isQuote q = true) (hc : isOrdinary q c = true) (r : Text) :
    simpleLiteral? (q :: c :: r) = (simpleLiteral? (q :: r)).map (c :: ·) := by
  rw [simpleLiteral?_quote hq, simpleLiteral?_quote hq, List.takeWhile_cons, if_pos hc,
    List.length_cons, List.getElem?_cons_succ]
  split <;> rfl

theorem simpleLiteral?_mark (hq : isQuote q = true) (hc : isOrdinary q c = false) (hne : c ≠ q)
    (r : Text) : simpleLiteral? (q :: c :: r) = none := by
  rw [simpleLiteral?_quote hq, List.takeWhile_cons, hc, if_neg Bool.false_ne_true,
    List.length_nil, List.getElem?_cons_zero, if_neg (by simpa using hne)]

theorem simpleLiteral?_close (hq : isQuote q = true) (r : Text) :
    simpleLiteral? (q :: q :: r) = some [] := by
  have hstop : isOrdinary q q = false := by simp [isOrdinary]
  rw [simpleLiteral?_quote hq, List.takeWhile_cons, hstop, if_neg Bool.false_ne_true,
    List.length_nil, List.getElem?_cons_zero, if_pos (beq_self_eq_true _)]

/-- A literal is read to its end if nothing in it ends it before. -/
theorem simpleLiteral?_literal {b : Text} (hq : isQuote q = true)
    (hopen : (b.dropWhile (isOrdinary q)).head? ≠ some q) (u : Text) :
    simpleLiteral? (q :: (b ++ q :: u)) = if isSimple q b then some b else none := by
  induction b with
  | nil => exact simpleLiteral?_close hq u
  | cons c b ih =>
    cases hc : isOrdinary q c with
    | true =>
      rw [List.dropWhile_cons_of_pos hc] at hopen
      rw [List.cons_append, simpleLiteral?_ordinary hq hc, ih hopen, isSimple, isSimple,
        List.all_cons, hc, Bool.true_and]
      split <;> rfl
    | false =>
      rw [List.dropWhile_cons_of_neg (by simp [hc])] at hopen
      have hne : c ≠ q := fun heq ↦ hopen (congrArg some heq)
      rw [List.cons_append, simpleLiteral?_mark hq hc hne, isSimple, List.all_cons, hc,
        Bool.false_and, if_neg Bool.false_ne_true]

theorem isOperandPart_of_isWordStart (h : isWordStart c = true) : isOperandPart c = true := by
  rw [isWordStart, Bool.or_eq_true, beq_iff_eq] at h
  rcases h with h | rfl
  · have hascii := toNat_lt_of_isAsciiLetter h
    simp [isOperandPart, isWord, isLetter, h, hascii]
  · decide

theorem ne_sign_of_isWordStart (h : isWordStart c = true) : (c == '@') = false :=
  beq_eq_false_iff_ne.2 fun hc ↦ absurd (hc ▸ h) (by decide)

theorem operand_word (h : isWordStart c = true) (r : Text) :
    operand (c :: r) = c :: r.takeWhile isOperandPart := by
  have hsign : ((c :: r).head? == some '@') = false := ne_sign_of_isWordStart h
  rw [isWordStart] at h
  simp only [operand, hsign, Bool.false_eq_true, if_false, List.length_nil, List.drop_zero, h,
    if_true, List.nil_append]

theorem operand_signed (h : isWordStart c = true) (r : Text) :
    operand ('@' :: c :: r) = '@' :: c :: r.takeWhile isOperandPart := by
  rw [isWordStart] at h
  simp only [operand, List.head?_cons, beq_self_eq_true, if_true, List.length_singleton,
    List.drop_succ_cons, List.drop_zero, h, List.singleton_append]

theorem operand_other (h : isWordStart c = false) (hsign : c ≠ '@') (r : Text) :
    operand (c :: r) = [] := by
  have hsign : ((c :: r).head? == some '@') = false := beq_eq_false_iff_ne.2 (by simpa using hsign)
  rw [isWordStart] at h
  simp only [operand, hsign, Bool.false_eq_true, if_false, List.length_nil, List.drop_zero, h]

theorem operand_sign (h : ∀ c ∈ t.head?, isWordStart c = false) : operand ('@' :: t) = [] := by
  cases t with
  | nil => rfl
  | cons c r =>
    have hc := h c rfl
    rw [isWordStart] at hc
    simp only [operand, List.head?_cons, beq_self_eq_true, if_true, List.length_singleton,
      List.drop_succ_cons, List.drop_zero, hc, Bool.false_eq_true, if_false]

/-- What a text may begin with: a word, a sign and a word, a sign alone, or something else. -/
theorem operand_cases {P : Text → Prop} (nil : P [])
    (word : ∀ c r, isWordStart c = true → P (c :: r))
    (signed : ∀ c r, isWordStart c = true → P ('@' :: c :: r))
    (sign : ∀ t : Text, (∀ c ∈ t.head?, isWordStart c = false) → P ('@' :: t))
    (other : ∀ c r, isWordStart c = false → c ≠ '@' → P (c :: r)) (t : Text) : P t := by
  cases t with
  | nil => exact nil
  | cons c r =>
    cases hc : isWordStart c with
    | true => exact word c r hc
    | false =>
      by_cases hsign : c = '@'
      · subst hsign
        cases r with
        | nil => exact sign [] nofun
        | cons d r =>
          cases hd : isWordStart d with
          | true => exact signed d r hd
          | false => exact sign (d :: r) (by simpa using hd)
      · exact other c r hc hsign

theorem mem_operand (h : c ∈ operand t) : isOperandPart c = true ∨ c = '@' := by
  have hword {d : Char} {r : Text} (hd : isWordStart d = true)
      (hmem : c ∈ d :: r.takeWhile isOperandPart) : isOperandPart c = true := by
    rcases List.mem_cons.1 hmem with rfl | hmem
    · exact isOperandPart_of_isWordStart hd
    · exact List.mem_takeWhile_imp hmem
  cases t using operand_cases with
  | nil => cases h
  | word d r hd =>
    rw [operand_word hd] at h
    exact .inl (hword hd h)
  | signed d r hd =>
    rw [operand_signed hd] at h
    exact (List.mem_cons.1 h).symm.imp_left (hword hd)
  | sign t ht =>
    rw [operand_sign ht] at h
    cases h
  | other d r hd hsign =>
    rw [operand_other hd hsign] at h
    cases h

theorem isWordStart_of_startsOpen (h : startsOpen u = false) :
    ∀ c ∈ u.head?, isWordStart c = false := by
  intro c hc
  rw [startsOpen, Option.any_eq_false] at h
  have hpart := h c hc
  cases hstart : isWordStart c with
  | true => exact absurd (isOperandPart_of_isWordStart hstart) (by simp [hpart])
  | false => rfl

theorem takeWhile_append_of_closed {r : Text} (hc : isOperandPart c = true)
    (h : endsOpen (c :: r) = false ∨ startsOpen u = false) :
    (r ++ u).takeWhile isOperandPart = r.takeWhile isOperandPart := by
  by_cases hall : ∀ d ∈ r, isOperandPart d = true
  · have hlast : endsOpen (c :: r) = true := by
      rw [endsOpen, List.getLast?_eq_some_getLast (List.cons_ne_nil c r)]
      have hmem := List.getLast_mem (List.cons_ne_nil c r)
      rcases List.mem_cons.1 hmem with heq | hmem
      · simp [heq, hc]
      · simp [hall _ hmem]
    have hu := h.resolve_left (by simp [hlast])
    rw [List.takeWhile_append_of_pos hall, List.takeWhile_eq_self_iff.2 hall]
    cases u with
    | nil => exact List.append_nil r
    | cons d u =>
      have hd : isOperandPart d = false := hu
      rw [List.takeWhile_cons, hd, if_neg Bool.false_ne_true, List.append_nil]
  · rw [List.takeWhile_append, if_neg]
    intro hlength
    exact hall (List.takeWhile_eq_self_iff.1 ((List.takeWhile_prefix _).eq_of_length hlength))

theorem operand_isPrefix (t : Text) : operand t <+: t := by
  cases t using operand_cases with
  | nil => exact List.prefix_refl []
  | word c r hc =>
    rw [operand_word hc, List.prefix_cons_inj]
    exact List.takeWhile_prefix _
  | signed c r hc =>
    rw [operand_signed hc, List.prefix_cons_inj, List.prefix_cons_inj]
    exact List.takeWhile_prefix _
  | sign t ht =>
    rw [operand_sign ht]
    exact List.nil_prefix
  | other c r hc hsign =>
    rw [operand_other hc hsign]
    exact List.nil_prefix

/-- What follows the name at the end of a closed text does not belong to it. -/
theorem operand_append_of_closed (hy : y ≠ []) (h : endsOpen y = false ∨ startsOpen u = false) :
    operand (y ++ u) = operand y := by
  cases y using operand_cases with
  | nil => exact absurd rfl hy
  | word c r hc =>
    rw [List.cons_append, operand_word hc, operand_word hc,
      takeWhile_append_of_closed (isOperandPart_of_isWordStart hc) h]
  | signed c r hc =>
    have hclosed : endsOpen (c :: r) = false ∨ startsOpen u = false := by
      simpa only [endsOpen, List.getLast?_cons_cons] using h
    rw [List.cons_append, List.cons_append, operand_signed hc, operand_signed hc,
      takeWhile_append_of_closed (isOperandPart_of_isWordStart hc) hclosed]
  | sign t ht =>
    rw [List.cons_append, operand_sign ht]
    refine operand_sign ?_
    cases t with
    | nil => exact isWordStart_of_startsOpen (h.resolve_left (by decide))
    | cons c r => exact ht
  | other c r hc hsign => rw [List.cons_append, operand_other hc hsign, operand_other hc hsign]

theorem Code.isName_cases {c : Code} (h : c.isName = true) :
    ∃ v, c = .bare v ∧ Script.isName v = true := by
  cases c with
  | bare v => exact ⟨v, rfl, h⟩
  | around => cases h

theorem isName_iff : isName v = true ↔ v ≠ [] ∧ operand v = v := by
  simp [isName]

theorem operand_append (hv : isName v = true) (hu : startsOpen u = false) :
    operand (v ++ u) = v := by
  obtain ⟨hne, hself⟩ := isName_iff.1 hv
  rw [operand_append_of_closed hne (.inr hu), hself]

end Names

section Left

variable {b t u x y : Text} {c q : Char}

def literalThenPlus? (t : Text) : Option Text :=
  (simpleLiteral? t).bind fun body ↦ afterPlus? (t.drop (body.length + 2))

theorem literalThenValue?_eq_none (h : literalThenPlus? t = none) :
    literalThenValue? t = none := by
  rw [literalThenPlus?] at h
  rw [literalThenValue?]
  cases hbody : simpleLiteral? t with
  | none => rfl
  | some body =>
    rw [hbody, Option.bind_some] at h
    simp [h]

theorem literalThenPlus?_of_not_quote (h : isQuote q = false) (u : Text) :
    literalThenPlus? (q :: u) = none := by
  rw [literalThenPlus?, simpleLiteral?_of_head? (by simpa using h)]
  rfl

theorem literalThenPlus?_append (hx : q ∉ x) (h : literalThenPlus? (q :: u) = none) :
    literalThenPlus? (q :: (x ++ u)) = none := by
  cases hq : isQuote q with
  | false => exact literalThenPlus?_of_not_quote hq _
  | true =>
    induction x with
    | nil => exact h
    | cons c x ih =>
      rw [List.mem_cons, not_or] at hx
      have hrest := ih hx.2
      rw [literalThenPlus?] at hrest
      rw [List.cons_append, literalThenPlus?]
      cases hc : isOrdinary q c with
      | true =>
        rw [simpleLiteral?_ordinary hq hc]
        cases hbody : simpleLiteral? (q :: (x ++ u)) with
        | none => rfl
        | some body =>
          rw [hbody] at hrest
          exact hrest
      | false =>
        rw [simpleLiteral?_mark hq hc (Ne.symm hx.1)]
        rfl

theorem literalThenPlus?_close (hq : isQuote q = true) (h : afterPlus? u = none) :
    literalThenPlus? (q :: q :: u) = none := by
  rw [literalThenPlus?, simpleLiteral?_close hq]
  exact h

/-- Behind no quotation mark a text closes a literal with a plus sign behind it. -/
def Calm (u : Text) : Prop := ∀ q, literalThenPlus? (q :: u) = none

theorem Calm.append (ht : ∀ c ∈ t, isQuote c = false) (h : Calm u) : Calm (t ++ u) := by
  intro q
  cases hq : isQuote q with
  | false => exact literalThenPlus?_of_not_quote hq _
  | true =>
    refine literalThenPlus?_append (fun hmem ↦ ?_) (h q)
    exact absurd (ht q hmem) (by simp [hq])

theorem afterPlus?_append_quote (hq : isQuote q = true) (h : afterPlus? y = none) (u : Text) :
    afterPlus? (y ++ q :: u) = none := by
  cases hblank : isBlankText y with
  | true =>
    rw [afterPlus?, dropWhile_isBlank_append hblank, ← afterPlus?]
    exact afterPlus?_quote hq u
  | false => exact afterPlus?_append hblank h _

/-- In a literal, a quotation mark of the other kind closes nothing before a plus sign. -/
theorem literalThenPlus?_inside (hq : isQuote q = true) (hb : holdsQuotePlus (q :: b) = false)
    (hy : y <:+ b) (hd : isQuote c = true) (hne : c ≠ q) (hu : Calm u) :
    literalThenPlus? (c :: (y ++ q :: u)) = none := by
  by_cases hmem : c ∈ y
  · obtain ⟨y₁, y₂, rfl, hy₁⟩ := List.eq_append_cons_of_mem hmem
    have hsuffix : c :: y₂ <:+ q :: b :=
      (List.suffix_append _ _).trans (hy.trans (List.suffix_cons q b))
    rw [List.append_assoc, List.cons_append]
    refine literalThenPlus?_append hy₁ (literalThenPlus?_close hd ?_)
    exact afterPlus?_append_quote hq (holdsQuotePlus_eq_false.1 hb c y₂ hd hsuffix) u
  · rw [List.append_cons]
    refine literalThenPlus?_append (fun hin ↦ ?_) (hu c)
    rcases List.mem_append.1 hin with hin | hin
    · exact hmem hin
    · exact hne (List.mem_singleton.1 hin)

@[simp] theorem leftPass_rule : leftPass.rule = literalThenValue? := rfl

theorem leftLiteral_iff :
    leftPass.literal q b = true ↔ q ∉ b ∧ holdsQuotePlus (q :: b) = false := by
  simp [leftPass]

theorem Calm.literal (hq : isQuote q = true) (hb : leftPass.literal q b = true) (hu : Calm u) :
    Calm (q :: (b ++ q :: u)) := by
  obtain ⟨-, hplus⟩ := leftLiteral_iff.1 hb
  intro c
  cases hc : isQuote c with
  | false => exact literalThenPlus?_of_not_quote hc _
  | true =>
    by_cases hne : c = q
    · subst hne
      refine literalThenPlus?_close hc (afterPlus?_append_quote hc ?_ u)
      exact holdsQuotePlus_eq_false.1 hplus c b hc (List.suffix_refl _)
    · refine literalThenPlus?_append (x := [q]) (by simpa using hne) ?_
      exact literalThenPlus?_inside hq hplus (List.suffix_refl b) hc hne hu

def LeftEnds : Operand → Text → Prop
  | .literal q b, u => isSimple q b = true → ∀ r ∈ afterPlus? u, operand r = []
  | .code _, _ => True

theorem literalThenValue?_literal (hq : isQuote q = true) (hb : q ∉ b)
    (hends : LeftEnds (.literal q b) u) : literalThenValue? (q :: (b ++ q :: u)) = none := by
  have hopen : (b.dropWhile (isOrdinary q)).head? ≠ some q := fun hhead ↦
    hb ((List.dropWhile_suffix _).subset (List.mem_of_mem_head? hhead))
  have hdrop : (q :: (b ++ q :: u)).drop (b.length + 2) = u := by simp
  rw [literalThenValue?, simpleLiteral?_literal hq hopen]
  cases hsimple : isSimple q b with
  | false => rfl
  | true =>
    rw [if_pos rfl, Option.bind_eq_bind, Option.bind_some, hdrop]
    cases hplus : afterPlus? u with
    | none => rfl
    | some r => simp [hends hsimple r hplus]

theorem replaceBy_left_literal (hq : isQuote q = true) (hb : leftPass.literal q b = true)
    (hu : Calm u) (hends : LeftEnds (.literal q b) u) :
    replaceBy literalThenValue? (q :: (b ++ q :: u)) =
      q :: (b ++ q :: replaceBy literalThenValue? u) := by
  obtain ⟨hmem, hplus⟩ := leftLiteral_iff.1 hb
  have hnone : ∀ y, y <:+ q :: (b ++ [q]) → y ≠ [] → literalThenValue? (y ++ u) = none := by
    intro y hy hne
    rcases List.suffix_cons_iff.1 hy with rfl | hy
    · simpa using literalThenValue?_literal hq hmem hends
    rcases List.suffix_concat_iff.1 hy with rfl | ⟨y, rfl, hinside⟩
    · exact absurd rfl hne
    refine literalThenValue?_eq_none ?_
    rw [List.append_assoc, List.singleton_append]
    cases y with
    | nil => exact hu q
    | cons c y =>
      cases hc : isQuote c with
      | false => exact literalThenPlus?_of_not_quote hc _
      | true =>
        have hcq : c ≠ q := fun heq ↦ hmem (heq ▸ hinside.subset List.mem_cons_self)
        exact literalThenPlus?_inside hq hplus ((List.suffix_cons c y).trans hinside) hc hcq hu
  simpa using replaceBy_append_of_none hnone

theorem dropWhile_isBlank_name {v : Text} (hv : isName v = true) (u : Text) :
    (v ++ u).dropWhile isBlank = v ++ u := by
  obtain ⟨hne, hself⟩ := isName_iff.1 hv
  obtain ⟨c, r, rfl⟩ := List.exists_cons_of_ne_nil hne
  have hsolid : isBlank c = false := by
    rcases mem_operand (c := c) (hself.symm ▸ List.mem_cons_self) with hpart | rfl
    · cases hblank : isBlank c with
      | false => rfl
      | true => exact absurd hpart (by simp [isOperandPart_of_isBlank hblank])
    · decide
  rw [List.cons_append, List.dropWhile_cons_of_neg (by simp [hsolid])]

theorem leftJoin_cases {o o' m : Operand} (h : leftPass.join o o' = some m) : ∃ q b v,
    o = .literal q b ∧ o' = .code (.bare v) ∧ isSimple q b = true ∧ isName v = true ∧
      m = .literal '"' (quoteMarks b ++ interpolation v) := by
  unfold leftPass at h
  dsimp only at h
  split at h
  next q b v =>
    split at h
    next hboth =>
      rw [Bool.and_eq_true] at hboth
      exact ⟨q, b, v, rfl, rfl, hboth.1, hboth.2, (Option.some.inj h).symm⟩
    next => cases h
  next => cases h

theorem leftEnds_plus {before : Before} {e : Expr} {gap gap' u : Text}
    (he : e.head.fits leftPass = true) (hgap : isBlankText gap = true)
    (hgap' : isBlankText gap' = true)
    (hbeside : leftPass.beside before (.literal q b) e.head = true)
    (hjoin : leftPass.join (.literal q b) e.head = none) :
    LeftEnds (.literal q b) (gap ++ '+' :: (gap' ++ (e.text ++ u))) := by
  intro hsimple r hr
  obtain ⟨rest, htext⟩ := e.exists_text_eq
  rw [afterPlus?_gap hgap, dropWhile_isBlank_append hgap', htext, Option.mem_some] at hr
  subst hr
  cases hhead : e.head with
  | literal q' b' =>
    rw [hhead, Operand.fits, Bool.and_eq_true] at he
    rcases quote_cases he.1 with rfl | rfl <;> rfl
  | code c =>
    rw [hhead] at he hbeside hjoin
    obtain ⟨-, hblank, -, -⟩ := isPlainCode_iff.1 (c.isPlainCode_first he)
    obtain ⟨tail, hfirst⟩ := c.exists_text_eq
    obtain ⟨d, w, -, -, hdrop⟩ := exists_dropWhile_isBlank hblank
    have hname : c.isName = false := by
      rw [← Bool.not_eq_true]
      intro hname
      obtain ⟨v, rfl, hv⟩ := Code.isName_cases hname
      have hsome : leftPass.join (.literal q b) (.code (.bare v)) =
          some (.literal '"' (quoteMarks b ++ interpolation v)) := by
        simp [leftPass, hsimple, hv]
      exact absurd (hjoin.symm.trans hsome) nofun
    have hbegins : beginsName c.first = false := by
      simpa [leftPass, hsimple, hname] using hbeside
    have hself := hdrop []
    rw [List.append_nil, List.append_nil] at hself
    rw [beginsName, hself, List.head?_cons, Option.any_some, Bool.or_eq_false_iff,
      beq_eq_false_iff_ne] at hbegins
    rw [Operand.text, hfirst, List.append_assoc, List.append_assoc, hdrop]
    exact operand_other hbegins.2 hbegins.1 _

theorem left_joined {gap gap' v : Text} (hq : isQuote q = true) (hb : q ∉ b)
    (hsimple : isSimple q b = true) (hv : isName v = true) (hgap : isBlankText gap = true)
    (hgap' : isBlankText gap' = true) (hu : startsOpen u = false) :
    replaceBy literalThenValue? (q :: (b ++ q :: (gap ++ '+' :: (gap' ++ (v ++ u))))) =
      '"' :: (quoteMarks b ++ interpolation v ++ '"' :: replaceBy literalThenValue? u) := by
  have hopen : (b.dropWhile (isOrdinary q)).head? ≠ some q := fun hhead ↦
    hb ((List.dropWhile_suffix _).subset (List.mem_of_mem_head? hhead))
  have hdrop : (q :: (b ++ q :: (gap ++ '+' :: (gap' ++ (v ++ u))))).drop (b.length + 2) =
      gap ++ '+' :: (gap' ++ (v ++ u)) := by simp
  have hempty : v.isEmpty = false := by simpa using (isName_iff.1 hv).1
  have hrule : literalThenValue? (q :: (b ++ q :: (gap ++ '+' :: (gap' ++ v))) ++ u) =
      some ('"' :: (quoteMarks b ++ interpolation v ++ ['"']),
        (q :: (b ++ q :: (gap ++ '+' :: (gap' ++ v)))).length) := by
    have hshape : q :: (b ++ q :: (gap ++ '+' :: (gap' ++ v))) ++ u =
        q :: (b ++ q :: (gap ++ '+' :: (gap' ++ (v ++ u)))) := by simp
    rw [hshape, literalThenValue?, simpleLiteral?_literal hq hopen, hsimple, if_pos rfl,
      Option.bind_eq_bind, Option.bind_some, hdrop, afterPlus?_gap hgap,
      dropWhile_isBlank_append hgap', dropWhile_isBlank_name hv, Option.bind_some]
    simp only [operand_append hv hu, hempty, Bool.false_eq_true, if_false]
    refine congrArg some (Prod.ext (by simp) ?_)
    simp only [List.length_cons, List.length_append]
    omega
  have hjoined := replaceBy_append_of_some (List.cons_ne_nil _ _) hrule
  simpa using hjoined

theorem replaceBy_left_plain (ht : ∀ c ∈ t, isQuote c = false) (u : Text) :
    replaceBy literalThenValue? (t ++ u) = t ++ replaceBy literalThenValue? u := by
  refine replaceBy_append_of_none fun y hy hne ↦ ?_
  obtain ⟨c, y, rfl⟩ := List.exists_cons_of_ne_nil hne
  exact literalThenValue?_eq_none
    (literalThenPlus?_of_not_quote (ht c (hy.subset List.mem_cons_self)) _)

theorem reads_leftPass : leftPass.Reads Calm LeftEnds where
  calm_nil q := by
    cases hq : isQuote q with
    | false => exact literalThenPlus?_of_not_quote hq _
    | true =>
      rw [literalThenPlus?, simpleLiteral?_quote hq]
      rfl
  calm_append := Calm.append
  calm_literal := Calm.literal
  literal := replaceBy_left_literal
  code ht _ _ := replaceBy_left_plain (isPlainCode_iff.1 ht).1 _
  gap ht := by
    refine replaceBy_left_plain (fun c hc ↦ ?_) _
    rcases ht c hc with hblank | rfl
    · exact isQuote_of_isBlank hblank
    · decide
  ends_around _ := trivial
  ends_closed {o u} hu := by
    cases o with
    | literal q b =>
      intro _ r hr
      rw [hu] at hr
      cases hr
    | code c => trivial
  ends_plus {before before' o e gap gap' u} ho he hgap hgap' hbeside hjoin := by
    cases o with
    | literal q b =>
      exact leftEnds_plus (e.head_fits he) hgap hgap' hbeside hjoin
    | code c => trivial
  joined {o o' m gap gap' u} hjoin ho ho' hgap hgap' hu := by
    obtain ⟨q, b, v, rfl, rfl, hsimple, hv, rfl⟩ := leftJoin_cases hjoin
    rw [Operand.fits, Bool.and_eq_true] at ho
    have hjoined := left_joined ho.1 (leftLiteral_iff.1 ho.2).1 hsimple hv hgap hgap' hu
    simpa only [leftPass_rule, Operand.text, Code.text, List.cons_append, List.append_assoc,
      List.nil_append] using hjoined

end Left

section Right

variable {b t u w x y : Text} {c q : Char}

@[simp] theorem rightPass_rule : rightPass.rule = valueThenLiteral? := rfl

theorem rightLiteral_iff : rightPass.literal q b = true ↔
    (b.dropWhile (isOrdinary q)).head? ≠ some q ∧ holdsPlusQuote (b ++ [q]) = false := by
  simp [rightPass]

theorem valueThenLiteral?_eq_none
    (h : (afterPlus? (t.drop (operand t).length)).bind simpleLiteral? = none ∨ operand t = []) :
    valueThenLiteral? t = none := by
  rw [valueThenLiteral?]
  rcases h with h | h
  · cases hplus : afterPlus? (t.drop (operand t).length) with
    | none => simp
    | some rest =>
      rw [hplus, Option.bind_some] at h
      simp [h]
  · simp [h]

/-- If a text has a plus sign at its beginning, no quotation mark follows it unless one follows the
text. -/
theorem bind_simpleLiteral?_eq_none
    (hblank : isBlankText y = true → (afterPlus? w).bind simpleLiteral? = none)
    (h : ∀ r, '+' :: r <:+ y → ∀ c ∈ ((r ++ w).dropWhile isBlank).head?, isQuote c = false) :
    (afterPlus? (y ++ w)).bind simpleLiteral? = none := by
  cases hy : isBlankText y with
  | true =>
    rw [afterPlus?, dropWhile_isBlank_append hy, ← afterPlus?]
    exact hblank hy
  | false =>
    obtain ⟨c, r, -, -, hdrop⟩ := exists_dropWhile_isBlank hy
    have hself := hdrop []
    rw [List.append_nil, List.append_nil] at hself
    rw [afterPlus?, hdrop]
    split
    next r' heq =>
      obtain ⟨rfl, rfl⟩ := List.cons.inj heq
      have hsuffix : '+' :: r <:+ y := hself ▸ List.dropWhile_suffix isBlank
      exact simpleLiteral?_of_head? (h r hsuffix)
    next => rfl

/-- A name at the end of code has no simple literal behind it and a plus sign. -/
def RightEnds : Operand → Text → Prop
  | .literal _ _, _ => True
  | .code c, u => endsInName c.last = true → (afterPlus? u).bind simpleLiteral? = none

theorem endsOpen_of_suffix (hy : y <:+ t) (hne : y ≠ []) : endsOpen y = endsOpen t := by
  obtain ⟨p, rfl⟩ := hy
  rw [endsOpen, endsOpen, List.getLast?_append_of_ne_nil _ hne]

/-- Where a text has a name, a simple literal follows only behind a plus sign. -/
theorem valueThenLiteral?_append (hne : y ≠ []) (hopen : endsOpen y = false ∨ startsOpen w = false)
    (hblank : operand y ≠ [] → isBlankText (y.drop (operand y).length) = true →
      (afterPlus? w).bind simpleLiteral? = none)
    (h : ∀ r, '+' :: r <:+ y → ∀ c ∈ ((r ++ w).dropWhile isBlank).head?, isQuote c = false) :
    valueThenLiteral? (y ++ w) = none := by
  have hoperand : operand (y ++ w) = operand y := operand_append_of_closed hne hopen
  by_cases hname : operand y = []
  · exact valueThenLiteral?_eq_none (.inr (hoperand.trans hname))
  refine valueThenLiteral?_eq_none (.inl ?_)
  rw [hoperand, List.drop_append_of_le_length (operand_isPrefix y).length_le]
  exact bind_simpleLiteral?_eq_none (hblank hname) fun r hr ↦ h r (hr.trans (List.drop_suffix _ _))

theorem replaceBy_right_code (ht : isPlainCode t = true)
    (hopen : endsOpen t = false ∨ startsOpen u = false) (hends : RightEnds (.code (.bare t)) u) :
    replaceBy valueThenLiteral? (t ++ u) = t ++ replaceBy valueThenLiteral? u := by
  obtain ⟨hquote, -, -, hplus⟩ := isPlainCode_iff.1 ht
  refine replaceBy_append_of_none fun y hy hne ↦ ?_
  refine valueThenLiteral?_append hne (endsOpen_of_suffix hy hne ▸ hopen) (fun hname hblank ↦ ?_)
    fun r hr c hc ↦ ?_
  · refine hends (List.any_eq_true.2 ⟨y, (List.mem_tails _ _).2 hy, ?_⟩)
    rw [hblank, Bool.and_true]
    simpa using hname
  · have hr := hr.trans hy
    have hsolid : isBlankText r = false := by
      cases hblank : isBlankText r with
      | false => rfl
      | true =>
        rw [endsInPlus, List.any_eq_false] at hplus
        exact absurd hblank (by simpa using hplus _ ((List.mem_tails _ _).2 hr))
    obtain ⟨d, r', -, hd, hdrop⟩ := exists_dropWhile_isBlank hsolid
    rw [hdrop, List.head?_cons, Option.mem_some] at hc
    exact hquote c (hc ▸ (hr.subset (List.mem_cons_of_mem _ hd)))

theorem operand_quote (hq : isQuote q = true) (r : Text) : operand (q :: r) = [] := by
  rcases quote_cases hq with rfl | rfl <;> rfl

/-- Behind a plus sign in a literal stands something that is no quotation mark. -/
theorem exists_behind_plus (hq : isQuote q = true) (hb : holdsPlusQuote (b ++ [q]) = false)
    {r : Text} (hr : '+' :: r <:+ b) :
    ∃ d r', isQuote d = false ∧ ∀ u, (r ++ u).dropWhile isBlank = d :: (r' ++ u) := by
  have hnext := holdsPlusQuote_eq_false.1 hb (r ++ [q])
    (List.suffix_concat_iff.2 (.inr ⟨'+' :: r, rfl, hr⟩))
  cases hblank : isBlankText r with
  | true =>
    have hhead : ([q].dropWhile isBlank).head? = some q := by
      rcases quote_cases hq with rfl | rfl <;> rfl
    rw [dropWhile_isBlank_append hblank, hhead] at hnext
    exact absurd (hnext q rfl) (by simp [hq])
  | false =>
    obtain ⟨d, r', -, -, hdrop⟩ := exists_dropWhile_isBlank hblank
    rw [hdrop] at hnext
    exact ⟨d, r', hnext d rfl, hdrop⟩

theorem replaceBy_right_literal (hq : isQuote q = true) (hb : rightPass.literal q b = true) :
    replaceBy valueThenLiteral? (q :: (b ++ q :: u)) =
      q :: (b ++ q :: replaceBy valueThenLiteral? u) := by
  obtain ⟨-, hplus⟩ := rightLiteral_iff.1 hb
  have hstart : startsOpen (q :: u) = false := by
    change isOperandPart q = false
    rcases quote_cases hq with rfl | rfl <;> decide
  have hnone : ∀ y, y <:+ q :: (b ++ [q]) → y ≠ [] → valueThenLiteral? (y ++ u) = none := by
    intro y hy hne
    rcases List.suffix_cons_iff.1 hy with rfl | hy
    · exact valueThenLiteral?_eq_none (.inr (operand_quote hq _))
    rcases List.suffix_concat_iff.1 hy with rfl | ⟨y, rfl, hinside⟩
    · exact absurd rfl hne
    rw [List.append_assoc, List.singleton_append]
    cases y with
    | nil => exact valueThenLiteral?_eq_none (.inr (operand_quote hq _))
    | cons d y =>
      refine valueThenLiteral?_append (List.cons_ne_nil d y) (.inr hstart) (fun _ _ ↦ ?_)
        fun r hr c hc ↦ ?_
      · rw [afterPlus?_quote hq]
        rfl
      · obtain ⟨e, r', he, hdrop⟩ := exists_behind_plus hq hplus (hr.trans hinside)
        rw [hdrop, List.head?_cons, Option.mem_some] at hc
        exact hc ▸ he
  simpa using replaceBy_append_of_none hnone

theorem rightJoin_cases {o o' m : Operand} (h : rightPass.join o o' = some m) : ∃ q b v,
    o = .code (.bare v) ∧ o' = .literal q b ∧ isSimple q b = true ∧ isName v = true ∧
      m = .literal '"' (interpolation v ++ quoteMarks b) := by
  unfold rightPass at h
  dsimp only at h
  split at h
  next v q b =>
    split at h
    next hboth =>
      rw [Bool.and_eq_true] at hboth
      exact ⟨q, b, v, rfl, rfl, hboth.1, hboth.2, (Option.some.inj h).symm⟩
    next => cases h
  next => cases h

theorem rightEnds_plus {before : Before} {k : Code} {e : Expr} {gap gap' : Text}
    (he : e.head.fits rightPass = true) (hgap : isBlankText gap = true)
    (hgap' : isBlankText gap' = true) (hbeside : rightPass.beside before (.code k) e.head = true)
    (hjoin : rightPass.join (.code k) e.head = none) :
    RightEnds (.code k) (gap ++ '+' :: (gap' ++ (e.text ++ u))) := by
  intro hname
  obtain ⟨rest, htext⟩ := e.exists_text_eq
  rw [afterPlus?_gap hgap, dropWhile_isBlank_append hgap', htext, Option.bind_some]
  cases hhead : e.head with
  | literal q b =>
    rw [hhead] at he hbeside hjoin
    rw [Operand.fits, Bool.and_eq_true] at he
    have hsolid : isBlank q = false := by
      rcases quote_cases he.1 with rfl | rfl <;> decide
    have hsimple : isSimple q b = false := by
      cases hsimple : isSimple q b with
      | false => rfl
      | true =>
        have hboth : k.isName = true ∧ before ≠ .value := by
          simpa [rightPass, hsimple, hname] using hbeside
        obtain ⟨v, rfl, hv⟩ := Code.isName_cases hboth.1
        have hsome : rightPass.join (.code (.bare v)) (.literal q b) =
            some (.literal '"' (interpolation v ++ quoteMarks b)) := by
          simp [rightPass, hsimple, hv]
        exact absurd (hjoin.symm.trans hsome) nofun
    have hshape : (Operand.literal q b).text ++ rest ++ u = q :: (b ++ q :: (rest ++ u)) := by
      simp [Operand.text]
    rw [hshape, List.dropWhile_cons_of_neg (by simp [hsolid]),
      simpleLiteral?_literal he.1 (rightLiteral_iff.1 he.2).1, hsimple, if_neg Bool.false_ne_true]
  | code k' =>
    rw [hhead] at he
    obtain ⟨hquote, hblank, -, -⟩ := isPlainCode_iff.1 (k'.isPlainCode_first he)
    obtain ⟨tail, hfirst⟩ := k'.exists_text_eq
    obtain ⟨d, w, -, hd, hdrop⟩ := exists_dropWhile_isBlank hblank
    rw [Operand.text, hfirst, List.append_assoc, List.append_assoc, hdrop]
    exact simpleLiteral?_of_head? (by simpa using hquote d hd)

theorem right_joined {gap gap' v : Text} (hq : isQuote q = true)
    (hopen : (b.dropWhile (isOrdinary q)).head? ≠ some q) (hsimple : isSimple q b = true)
    (hv : isName v = true) (hgap : isBlankText gap = true) (hgap' : isBlankText gap' = true) :
    replaceBy valueThenLiteral? (v ++ (gap ++ '+' :: (gap' ++ q :: (b ++ q :: u)))) =
      '"' :: (interpolation v ++ quoteMarks b ++ '"' :: replaceBy valueThenLiteral? u) := by
  have hsolid : isBlank q = false := by
    rcases quote_cases hq with rfl | rfl <;> decide
  have hempty : v.isEmpty = false := by simpa using (isName_iff.1 hv).1
  have hrule : valueThenLiteral? (v ++ (gap ++ '+' :: (gap' ++ q :: (b ++ [q]))) ++ u) =
      some ('"' :: (interpolation v ++ quoteMarks b ++ ['"']),
        (v ++ (gap ++ '+' :: (gap' ++ q :: (b ++ [q])))).length) := by
    have hshape : v ++ (gap ++ '+' :: (gap' ++ q :: (b ++ [q]))) ++ u =
        v ++ (gap ++ '+' :: (gap' ++ q :: (b ++ q :: u))) := by simp
    have hoperand := operand_append hv (startsOpen_gap hgap (gap' ++ q :: (b ++ q :: u)))
    rw [hshape, valueThenLiteral?]
    simp only [hoperand, hempty, Bool.false_eq_true, if_false, List.drop_left,
      afterPlus?_gap hgap, dropWhile_isBlank_append hgap', Option.bind_eq_bind, Option.bind_some]
    rw [List.dropWhile_cons_of_neg (by simp [hsolid]), simpleLiteral?_literal hq hopen, hsimple,
      if_pos rfl, Option.bind_some]
    refine congrArg some (Prod.ext (by simp) ?_)
    simp only [List.length_cons, List.length_append, List.length_nil]
    omega
  have hjoined :=
    replaceBy_append_of_some (List.append_ne_nil_of_left_ne_nil (isName_iff.1 hv).1 _) hrule
  simpa using hjoined

theorem reads_rightPass : rightPass.Reads (fun _ ↦ True) RightEnds where
  calm_nil := trivial
  calm_append _ _ := trivial
  calm_literal _ _ _ := trivial
  literal hq hb _ _ := replaceBy_right_literal hq hb
  code := replaceBy_right_code
  gap ht := by
    refine replaceBy_append_of_none fun y hy hne ↦ ?_
    obtain ⟨c, y, rfl⟩ := List.exists_cons_of_ne_nil hne
    have hc := ht c (hy.subset List.mem_cons_self)
    have hstart : isWordStart c = false := by
      cases hstart : isWordStart c with
      | false => rfl
      | true =>
        rcases hc with hblank | rfl
        · have hpart := isOperandPart_of_isWordStart hstart
          exact absurd hpart (by simp [isOperandPart_of_isBlank hblank])
        · exact absurd hstart (by decide)
    have hsign : c ≠ '@' := by
      rintro rfl
      exact absurd hc (by decide)
    exact valueThenLiteral?_eq_none (.inr (operand_other hstart hsign _))
  ends_around hends := hends
  ends_closed {o u} hu := by
    cases o with
    | literal q b => trivial
    | code c =>
      intro _
      rw [hu]
      rfl
  ends_plus {before before' o e gap gap' u} ho he hgap hgap' hbeside hjoin := by
    cases o with
    | literal q b => trivial
    | code c => exact rightEnds_plus (e.head_fits he) hgap hgap' hbeside hjoin
  joined {o o' m gap gap' u} hjoin ho ho' hgap hgap' hu := by
    obtain ⟨q, b, v, rfl, rfl, hsimple, hv, rfl⟩ := rightJoin_cases hjoin
    rw [Operand.fits, Bool.and_eq_true] at ho'
    have hjoined := right_joined (u := u) ho'.1 (rightLiteral_iff.1 ho'.2).1 hsimple hv hgap hgap'
    simpa only [rightPass_rule, Operand.text, Code.text, List.cons_append, List.append_assoc,
      List.nil_append] using hjoined

end Right

end ViewForge.Script
