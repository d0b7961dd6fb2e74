import ViewForge.Proofs.Script.Concatenation

namespace ViewForge.Script

open Text
open Erb (isQuote)

section Worth

variable {Env Object : Type} (M : Meaning Env Object) (env : Env) {b r t v : Text} {q : Char}

theorem quoteMarks_cons (c : Char) (b : Text) :
    quoteMarks (c :: b) = (if c == '"' then ['\\', '"'] else [c]) ++ quoteMarks b :=
  List.flatMap_cons

theorem isSimple_cons {c : Char} : isSimple q (c :: b) = true ↔
    (c ≠ q ∧ c ≠ '\\' ∧ c ≠ '#') ∧ isSimple q b = true := by
  simp [isSimple, isOrdinary, and_assoc]

/-- The text of a simple literal is read between double quotes as it was between its own. -/
theorem readFrom_quoteMarks (h : isSimple q b = true) (r : Text) :
    M.readFrom env 0 (quoteMarks b ++ r) = b ++ M.readFrom env 0 r := by
  induction b with
  | nil => rfl
  | cons c b ih =>
    obtain ⟨⟨-, hslash, hmark⟩, hb⟩ := isSimple_cons.1 h
    rw [quoteMarks_cons]
    by_cases hquote : c = '"'
    · subst hquote
      exact congrArg ('"' :: ·) (ih hb)
    · have hnone : (c == '"') = false := beq_eq_false_iff_ne.2 hquote
      rw [hnone, if_neg Bool.false_ne_true, List.singleton_append, List.cons_append,
        Meaning.readFrom, ih hb]
      · rfl
      · exact fun _ _ hc _ ↦ hslash hc
      · exact fun _ hc _ ↦ hmark hc

theorem readFrom_skip (a r : Text) : M.readFrom env a.length (a ++ r) = M.readFrom env 0 r := by
  induction a with
  | nil => rfl
  | cons c a ih => exact ih

/-- An interpolation is read as what its code is worth. -/
theorem readFrom_interpolation (hv : isName v = true) (r : Text) :
    M.readFrom env 0 (interpolation v ++ r) =
      M.toText (M.code [.inl v] env) ++ M.readFrom env 0 r := by
  have hbrace : ∀ c ∈ v, (c != '}') = true := by
    intro c hc
    rw [bne_iff_ne]
    rintro rfl
    rcases mem_operand ((isName_iff.1 hv).2.symm ▸ hc) with hpart | hsign
    · exact absurd hpart (by decide)
    · exact absurd hsign (by decide)
  have hshape : interpolation v ++ r = '#' :: '{' :: (v ++ '}' :: r) := by
    simp [interpolation]
  have hcode : (v ++ '}' :: r).takeWhile (· != '}') = v := by
    rw [List.takeWhile_append_of_pos hbrace]
    simp
  have hskip := readFrom_skip M env (v ++ ['}']) r
  rw [List.length_append, List.append_assoc] at hskip
  rw [hshape, Meaning.readFrom]
  simp only [hcode]
  exact congrArg (_ ++ ·) hskip

theorem quoteMarks_eq_self (h : isSimple '"' b = true) : quoteMarks b = b := by
  induction b with
  | nil => rfl
  | cons c b ih =>
    obtain ⟨⟨hquote, -⟩, hb⟩ := isSimple_cons.1 h
    rw [quoteMarks_cons, if_neg (by simpa using hquote), ih hb]
    rfl

theorem readPlain_eq_self (h : isSimple q b = true) : Meaning.readPlain b = b := by
  induction b with
  | nil => rfl
  | cons c b ih =>
    obtain ⟨⟨-, hslash, -⟩, hb⟩ := isSimple_cons.1 h
    rw [Meaning.readPlain, ih hb]
    exact fun _ _ hc _ ↦ hslash hc

theorem content_simple (hq : isQuote q = true) (h : isSimple q b = true) :
    M.content env q b = b := by
  rcases quote_cases hq with rfl | rfl
  · have hread := readFrom_quoteMarks M env h []
    rw [List.append_nil, quoteMarks_eq_self h] at hread
    exact hread.trans (List.append_nil b)
  · exact readPlain_eq_self h

theorem content_left (h : isSimple q b = true) (hv : isName v = true) :
    M.content env '"' (quoteMarks b ++ interpolation v) =
      b ++ M.toText (M.code [.inl v] env) := by
  have hread := readFrom_interpolation M env hv []
  rw [List.append_nil] at hread
  rw [Meaning.content, beq_self_eq_true, if_pos rfl, readFrom_quoteMarks M env h, hread]
  exact congrArg (b ++ ·) (List.append_nil _)

theorem content_right (h : isSimple q b = true) (hv : isName v = true) :
    M.content env '"' (interpolation v ++ quoteMarks b) =
      M.toText (M.code [.inl v] env) ++ b := by
  have hread := readFrom_quoteMarks M env h []
  rw [List.append_nil] at hread
  rw [Meaning.content, beq_self_eq_true, if_pos rfl, readFrom_interpolation M env hv, hread]
  exact congrArg (_ ++ ·) (List.append_nil b)

theorem keeps_leftPass (M : Meaning Env Object) : leftPass.Keeps M := by
  intro before o o' m acc env hjoin ho _ _ _
  obtain ⟨q, b, v, rfl, rfl, hsimple, hv, rfl⟩ := leftJoin_cases hjoin
  rw [Operand.fits, Bool.and_eq_true] at ho
  simp only [Operand.value, Code.pieces, content_left M env hsimple hv,
    content_simple M env ho.1 hsimple]
  cases acc with
  | none => exact (text_add M b _).symm
  | some a =>
    simp only [Meaning.addTo, add_text, text_add, List.append_assoc]

/-- A name is joined at the beginning of its sum or behind a text. -/
theorem before_of_rightJoin {before : Before}
    (hbeside : rightPass.beside before (.code (.bare v)) (.literal q b) = true)
    (hsimple : isSimple q b = true) (hv : isName v = true) : before ≠ .value := by
  have hname : endsInName v = true := by
    refine List.any_eq_true.2 ⟨v, (List.mem_tails _ _).2 (List.suffix_refl v), ?_⟩
    obtain ⟨hne, hself⟩ := isName_iff.1 hv
    rw [hself, List.drop_length]
    simp [hne, isBlankText]
  have hplace : (before != .value) = true := by
    simpa [rightPass, hsimple, Code.last, hname, Code.isName, hv] using hbeside
  simpa using hplace

theorem keeps_rightPass (M : Meaning Env Object) : rightPass.Keeps M := by
  intro before o o' m acc env hjoin _ ho' hbeside hagrees
  obtain ⟨q, b, v, rfl, rfl, hsimple, hv, rfl⟩ := rightJoin_cases hjoin
  have hplace := before_of_rightJoin hbeside hsimple hv
  rw [Operand.fits, Bool.and_eq_true] at ho'
  simp only [Operand.value, Code.pieces, content_right M env hsimple hv,
    content_simple M env ho'.1 hsimple]
  match before, acc, hagrees with
  | .nothing, none, _ => exact (add_text M _ b).symm
  | .text, some (.text t), _ =>
    simp only [Meaning.addTo, add_text, text_add, Meaning.toText, List.append_assoc]
  | .value, _, _ => exact absurd rfl hplace

end Worth

section Both

theorem Code.first_merge (join : Operand → Operand → Option Operand) (c : Code) :
    (c.merge join).first = c.first := by
  cases c <;> rfl

theorem Code.last_merge (join : Operand → Operand → Option Operand) :
    (c : Code) → (c.merge join).last = c.last
  | .bare _ => rfl
  | .around _ _ rest => rest.last_merge join

theorem Code.isName_merge (join : Operand → Operand → Option Operand) (c : Code) :
    (c.merge join).isName = c.isName := by
  cases c <;> rfl

section Marked

variable {b r w : Text} {c d q : Char}

/-- Between double quotes, the marks of a simple literal are marked, so none of them ends it. -/
theorem head?_dropWhile_quoteMarks (h : isSimple q b = true) (r : Text) :
    ((quoteMarks b ++ '#' :: r).dropWhile (isOrdinary '"')).head? ≠ some '"' := by
  induction b with
  | nil => simp [quoteMarks, isOrdinary]
  | cons c b ih =>
    obtain ⟨⟨-, hslash, hmark⟩, hb⟩ := isSimple_cons.1 h
    rw [quoteMarks_cons]
    by_cases hquote : c = '"'
    · subst hquote
      simp [isOrdinary]
    · have hordinary : isOrdinary '"' c = true := by simp [isOrdinary, hquote, hslash, hmark]
      rw [if_neg (by simpa using hquote), List.singleton_append, List.cons_append,
        List.dropWhile_cons_of_pos hordinary]
      exact ih hb

theorem head?_quoteMarks (h : b.dropWhile isBlank = d :: r) (hd : isQuote d = false) (w : Text) :
    ((quoteMarks b ++ w).dropWhile isBlank).head? = some d := by
  induction b with
  | nil => cases h
  | cons c b ih =>
    rw [quoteMarks_cons]
    cases hc : isBlank c with
    | true =>
      have hquote : (c == '"') = false := beq_eq_false_iff_ne.2 (by rintro rfl; cases hc)
      rw [List.dropWhile_cons_of_pos hc] at h
      rw [hquote, if_neg Bool.false_ne_true, List.singleton_append, List.cons_append,
        List.dropWhile_cons_of_pos hc, ih h]
    | false =>
      rw [List.dropWhile_cons_of_neg (by simp [hc])] at h
      obtain ⟨rfl, rfl⟩ := List.cons.inj h
      have hquote : (c == '"') = false := (Bool.or_eq_false_iff.1 hd).1
      rw [hquote, if_neg Bool.false_ne_true, List.singleton_append, List.cons_append,
        List.dropWhile_cons_of_neg (by simp [hc]), List.head?_cons]

theorem holdsPlusQuote_quoteMarks (hq : isQuote q = true) (hb : holdsPlusQuote (b ++ [q]) = false)
    (hw : '+' ∉ w) : holdsPlusQuote (quoteMarks b ++ w) = false := by
  have hbehind {r : Text} (hr : '+' :: r <:+ b) :
      ∃ d r', isQuote d = false ∧ r.dropWhile isBlank = d :: r' := by
    obtain ⟨d, r', hd, hdrop⟩ := exists_behind_plus hq hb hr
    exact ⟨d, r', hd, by simpa using hdrop []⟩
  rw [holdsPlusQuote_eq_false]
  clear hb
  induction b with
  | nil => exact fun r hr ↦ absurd (hr.subset List.mem_cons_self) hw
  | cons c b ih =>
    have hrest := ih fun hr ↦ hbehind (hr.trans (List.suffix_cons c b))
    intro r hr
    rw [quoteMarks_cons] at hr
    by_cases hquote : c = '"'
    · subst hquote
      rcases List.suffix_cons_iff.1 hr with heq | hr
      · exact absurd (List.cons.inj heq).1 (by decide)
      rcases List.suffix_cons_iff.1 hr with heq | hr
      · exact absurd (List.cons.inj heq).1 (by decide)
      exact hrest r hr
    · rw [if_neg (by simpa using hquote), List.singleton_append, List.cons_append] at hr
      rcases List.suffix_cons_iff.1 hr with heq | hr
      · obtain ⟨rfl, rfl⟩ := List.cons.inj heq
        obtain ⟨d, r', hd, hdrop⟩ := hbehind (List.suffix_refl _)
        rw [head?_quoteMarks hdrop hd]
        exact fun e he ↦ Option.mem_some.1 he ▸ hd
      · exact hrest r hr

end Marked

/-- A literal that the first pass makes is one that the second finds. -/
theorem fits_leftJoin {o o' m : Operand} (hjoin : leftPass.join o o' = some m)
    (ho : o.fits rightPass = true) : m.fits rightPass = true := by
  obtain ⟨q, b, v, rfl, rfl, hsimple, hv, rfl⟩ := leftJoin_cases hjoin
  rw [Operand.fits, Bool.and_eq_true] at ho
  obtain ⟨hq, hb⟩ := ho
  have hplus : '+' ∉ interpolation v ++ ['"'] := by
    have hname : '+' ∉ v := fun hmem ↦
      (mem_operand ((isName_iff.1 hv).2.symm ▸ hmem)).elim (by decide) (by decide)
    simp [interpolation, hname]
  have hopen := head?_dropWhile_quoteMarks hsimple ('{' :: (v ++ ['}']))
  rw [Operand.fits, Bool.and_eq_true, rightLiteral_iff, List.append_assoc]
  refine ⟨rfl, ?_, holdsPlusQuote_quoteMarks hq (rightLiteral_iff.1 hb).2 hplus⟩
  simpa [interpolation] using hopen

/-- It is joined with nothing, as it is no simple literal. -/
theorem not_isSimple_leftJoin (b v : Text) :
    isSimple '"' (quoteMarks b ++ interpolation v) = false := by
  simp [isSimple, isOrdinary, interpolation]

theorem beside_merge {before : Before} {o : Operand} {e : Expr}
    (h : rightPass.beside before o e.head = true) :
    rightPass.beside before (o.merge leftPass.join) (e.merge leftPass.join).head = true := by
  cases o with
  | literal q b => rfl
  | code c =>
    have hsame (x : Operand) : rightPass.beside before (.code (c.merge leftPass.join))
        (x.merge leftPass.join) = rightPass.beside before (.code c) x := by
      cases x with
      | literal q b => simp only [rightPass, Operand.merge, Code.last_merge, Code.isName_merge]
      | code k => rfl
    cases e with
    | one x => exact (hsame x).trans h
    | plus x gap gap' rest =>
      rw [Expr.merge]
      cases hjoin : leftPass.join x rest.head with
      | none => exact (hsame x).trans h
      | some m =>
        obtain ⟨q, b, v, -, -, -, -, rfl⟩ := leftJoin_cases hjoin
        have hbeside : rightPass.beside before (.code (c.merge leftPass.join))
            (.literal '"' (quoteMarks b ++ interpolation v)) = true := by
          simp [rightPass, not_isSimple_leftJoin]
        cases rest <;> exact hbeside

mutual

theorem Expr.fits_merge : (e : Expr) → {before : Before} → e.fits rightPass before = true →
    (e.merge leftPass.join).fits rightPass before = true
  | .one o, _, h => Operand.fits_merge o h
  | .plus o gap gap' rest, before, h => by
    simp only [Expr.fits, Bool.and_eq_true] at h
    obtain ⟨⟨⟨⟨ho, hgap⟩, hgap'⟩, hbeside⟩, hrest⟩ := h
    rw [Expr.merge]
    cases hjoin : leftPass.join o rest.head with
    | none =>
      have hbehind : before.behind (o.merge leftPass.join) = before.behind o := by
        cases o <;> rfl
      simp only [Expr.fits, Bool.and_eq_true, hbehind]
      exact ⟨⟨⟨⟨Operand.fits_merge o ho, hgap⟩, hgap'⟩, beside_merge hbeside⟩,
        Expr.fits_merge rest hrest⟩
    | some m =>
      have hm := fits_leftJoin hjoin ho
      match rest, hrest, hjoin with
      | .one o', _, _ => exact hm
      | .plus o' g g' rest', hrest, hjoin =>
        simp only [Expr.fits, Bool.and_eq_true] at hrest
        obtain ⟨⟨⟨⟨-, hg⟩, hg'⟩, -⟩, hrest'⟩ := hrest
        obtain ⟨q, b, v, rfl, hhead, -, -, rfl⟩ := leftJoin_cases hjoin
        rw [Expr.head] at hhead
        subst hhead
        simp only [Expr.fits, Bool.and_eq_true]
        exact ⟨⟨⟨⟨hm, hg⟩, hg'⟩, rfl⟩, Expr.fits_merge rest' hrest'⟩

theorem Operand.fits_merge : (o : Operand) → o.fits rightPass = true →
    (o.merge leftPass.join).fits rightPass = true
  | .literal _ _, h => h
  | .code c, h => Code.fits_merge c h

theorem Code.fits_merge : (c : Code) → c.fits rightPass = true →
    (c.merge leftPass.join).fits rightPass = true
  | .bare _, h => h
  | .around t inner rest, h => by
    simp only [Code.fits, Bool.and_eq_true] at h
    obtain ⟨⟨⟨ht, hinner⟩, hstart⟩, hrest⟩ := h
    simp only [Code.merge, Code.fits, Bool.and_eq_true, Code.first_merge]
    exact ⟨⟨⟨ht, Expr.fits_merge inner hinner⟩, hstart⟩, Code.fits_merge rest hrest⟩

end

/-- A sum in which literals and names are operands of their own is written with its literals and
names joined, and is worth what it was worth. -/
theorem interpolate_text (e : Expr) (hleft : e.fits leftPass .nothing = true)
    (hright : e.fits rightPass .nothing = true) :
    interpolate e.text = ((e.merge leftPass.join).merge rightPass.join).text ∧
      ∀ {Env Object : Type} (M : Meaning Env Object),
        ((e.merge leftPass.join).merge rightPass.join).value M = e.value M := by
  have hmerged := Expr.fits_merge e hright
  constructor
  · rw [interpolate, ← leftPass_rule, reads_leftPass.replaceBy_text hleft, ← rightPass_rule,
      reads_rightPass.replaceBy_text hmerged]
  · intro Env Object M
    rw [Expr.value_merge (keeps_rightPass M) hmerged, Expr.value_merge (keeps_leftPass M) hleft]

/-- `"Hello, " + user.name + "! It's " + (late ? 'past ' + hour : now) + " o'clock"` -/
def greeting : Expr :=
  .plus (.literal '"' "Hello, ") " " " "
    (.plus (.code (.bare "user.name")) " " " "
      (.plus (.literal '"' "! It's ") " " " "
        (.plus (.code (.around "(late ? "
            (.plus (.literal '\'' "past ") " " " " (.one (.code (.bare "hour"))))
            (.bare " : now)"))) " " " "
          (.one (.literal '"' " o'clock")))))

/-- Names and what they lead to are texts, a conditional takes its first branch, and a text has no
members. -/
def spoken : Meaning (Text → Text) Unit where
  shown _ := []
  plus _ _ := .object ()
  code
    | [.inl t], env => .text (env t)
    | [.inl _, .inr inner, .inl t], env => if startsWith t "&." then .object () else inner env
    | _, _ => .object ()
  escaped c := [c]

theorem interpolate_text_greeting :
    interpolate greeting.text =
        "\"Hello, #\x7buser.name\x7d\" + \"! It's \" + (late ? \"past #\x7bhour\x7d\" : now) + \" o'clock\"" ∧
      ((greeting.merge leftPass.join).merge rightPass.join).value spoken = greeting.value spoken := by
  obtain ⟨htext, hvalue⟩ := interpolate_text greeting (by decide +kernel) (by decide +kernel)
  exact ⟨htext.trans (by decide +kernel), hvalue spoken⟩

def memberGreeting : Expr :=
  .plus (.literal '"' "Hi ") " " " " (.one (.code (.bare "user&.name")))

def greetingMember : Expr :=
  .one (.code (.around [] (.one (.literal '"' "Hi #\x7buser\x7d")) (.bare "&.name")))

/-- Only the head of a member chain is joined, and the rest of the chain becomes a member of the
literal. -/
theorem interpolate_text_memberGreeting :
    interpolate memberGreeting.text = greetingMember.text ∧
      memberGreeting.value spoken (fun _ ↦ "Ann") ≠ greetingMember.value spoken fun _ ↦ "Ann" := by
  refine ⟨by decide, ?_⟩
  decide

end Both

end ViewForge.Script
