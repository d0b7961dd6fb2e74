import ViewForge.Script.ToRuby

namespace ViewForge.Script

open Text

/-- What a literal has between its quotes: characters, and characters with a backslash before
them. -/
inductive Item where
  | plain (c : Char)
  | pair (c : Char)
  deriving DecidableEq, Repr

def Item.source : Item → Text
  | .plain c => [c]
  | .pair c => ['\\', c]

def itemsSource (items : List Item) : Text := items.flatMap Item.source

/-- Items that may stand between two quotes `q`: neither the quote nor a backslash is there by
itself, and between backticks no substitution begins. -/
def isBody (q : Char) : List Item → Bool
  | [] => true
  | .pair _ :: r => isBody q r
  | .plain c :: r =>
    c != '\\' && c != q && !(q == backtick && c == '$' && r.head? == some (.plain '{')) &&
      isBody q r

/-- Fixed text of a template between double quotes: quotes and the number sign of a would-be
interpolation gain a backslash, backticks and dollars lose theirs, and other pairs stay. -/
def rubyItems : List Item → Text
  | [] => []
  | .pair c :: r => (if c == backtick || c == '$' then [c] else ['\\', c]) ++ rubyItems r
  | .plain c :: r =>
    (if c == '"' || c == '#' && r.head? == some (.plain '{') then ['\\', c] else [c]) ++ rubyItems r

abbrev Substitutions := List (Text × List Item)

def substitutionsSource (rest : Substitutions) : Text :=
  rest.flatMap fun p ↦ "$\x7b" ++ p.1 ++ '}' :: itemsSource p.2

def templateSource (first : List Item) (rest : Substitutions) : Text :=
  backtick :: (itemsSource first ++ substitutionsSource rest) ++ [backtick]

/-- Code whose braces are balanced outside its literals, all of which are complete. -/
inductive Balanced : Text → Prop
  | nil : Balanced []
  | plain {c : Char} {r : Text} : isLiteralQuote c = false → c ≠ '{' → c ≠ '}' → Balanced r →
      Balanced (c :: r)
  | braces {inner r : Text} : Balanced inner → Balanced r → Balanced ('{' :: inner ++ '}' :: r)
  | string {q : Char} {body : List Item} {r : Text} : q = '"' ∨ q = '\'' →
      isBody q body = true → Balanced r → Balanced (q :: itemsSource body ++ q :: r)
  | template {first : List Item} {rest : Substitutions} {r : Text} :
      isBody backtick first = true → (∀ p ∈ rest, isBody backtick p.2 = true) →
      (∀ p ∈ rest, Balanced p.1) → Balanced r → Balanced (templateSource first rest ++ r)

section Close

variable {q : Char} {items : List Item} {rest : Substitutions} {s : List Inside} {r : Text}

def PassesTo (inside : List Inside) (t r : Text) (after : List Inside) : Prop :=
  closeLength inside (t ++ r) = (closeLength after r).map (· + t.length)

theorem PassesTo.trans {a b c : List Inside} {t u : Text} (h : PassesTo a t (u ++ r) b)
    (h' : PassesTo b u r c) : PassesTo a (t ++ u) r c := by
  unfold PassesTo at *
  rw [List.append_assoc, h, h', Option.map_map, List.length_append]
  refine congrArg (Option.map · _) (funext fun n ↦ ?_)
  simp only [Function.comp_apply]
  omega

theorem passesTo_nil (a : List Inside) (r : Text) : PassesTo a [] r a := Option.map_id'.symm

theorem passesTo_pair (c : Char) : PassesTo (.literal q :: s) ['\\', c] r (.literal q :: s) := rfl

theorem ne_of_isLiteralQuote {d : Char} (hq : isLiteralQuote q = true)
    (hd : isLiteralQuote d = false) : d ≠ q := by
  rintro rfl
  exact absurd (hq.symm.trans hd) (by decide)

theorem passesTo_plain {c : Char} (hq : isLiteralQuote q = true) (hc : c ≠ '\\')
    (hstart : ¬(q = backtick ∧ c = '$' ∧ r.head? = some '{')) :
    PassesTo (.literal q :: s) [c] r (if c == q then s else .literal q :: s) := by
  have hplain {d : Char} {u : Text} (hd : d ≠ '\\') (hu : ¬(d = '$' ∧ u.head? = some '{')) :
      closeLength (.literal q :: s) (d :: u) =
        (closeLength (if d == q then s else .literal q :: s) u).map (· + 1) := by
    rw [closeLength]
    · rintro rfl
      exact absurd rfl hd
    · rintro e v rfl
      exact absurd rfl hd
    · rintro v rfl rfl
      exact hu ⟨rfl, rfl⟩
  have hne {d : Char} (hd : isLiteralQuote d = false) : (d == q) = false :=
    beq_eq_false_iff_ne.2 (ne_of_isLiteralQuote hq hd)
  by_cases hd : c = '$' ∧ r.head? = some '{'
  · -- Between other quotes the two characters are passed over together.
    obtain ⟨rfl, hr⟩ := hd
    obtain ⟨u, rfl⟩ := List.head?_eq_some_iff.1 hr
    have hback : (q == backtick) = false := beq_eq_false_iff_ne.2 fun h ↦ hstart ⟨h, rfl, hr⟩
    have hnext := hplain (d := '{') (u := u) (by decide) (by simp)
    rw [hne (d := '{') rfl] at hnext
    unfold PassesTo
    rw [List.singleton_append, closeLength, hback, hne (d := '$') rfl]
    simp only [Bool.false_eq_true, if_false] at hnext ⊢
    rw [hnext, Option.map_map]
    rfl
  · exact hplain hc hd

/-- What may stand behind items: between backticks no brace, which a dollar would take for the
start of a substitution. -/
def Ends (q : Char) (r : Text) : Prop := q = backtick → r.head? ≠ some '{'

theorem isBody_plain {c : Char} (h : isBody q (.plain c :: items) = true) :
    c ≠ '\\' ∧ c ≠ q ∧ isBody q items = true ∧
      ¬(q = backtick ∧ c = '$' ∧ items.head? = some (.plain '{')) := by
  simp only [isBody, Bool.and_eq_true, bne_iff_ne, Bool.not_eq_true', Bool.and_eq_false_iff,
    beq_eq_false_iff_ne] at h
  refine ⟨h.1.1.1, h.1.1.2, h.2, ?_⟩
  rintro ⟨hq, hc, hhead⟩
  rcases h.1.2 with (h | h) | h
  · exact h hq
  · exact h hc
  · exact h hhead

theorem head?_itemsSource_append (items : List Item) (hr : r.head? ≠ some '{') :
    (itemsSource items ++ r).head? = some '{' ↔ items.head? = some (.plain '{') := by
  cases items with
  | nil => simpa [itemsSource] using hr
  | cons i items => cases i <;> simp [itemsSource, Item.source]

theorem passesTo_items (hq : isLiteralQuote q = true) (h : isBody q items = true)
    (hr : Ends q r) : PassesTo (.literal q :: s) (itemsSource items) r (.literal q :: s) := by
  induction items with
  | nil => exact passesTo_nil _ r
  | cons i items ih =>
    cases i with
    | pair c => exact (passesTo_pair c).trans (ih h)
    | plain c =>
      obtain ⟨hc, hcq, hrest, hstart⟩ := isBody_plain h
      refine PassesTo.trans (t := [c]) ?_ (ih hrest)
      have hplain := passesTo_plain (s := s) (r := itemsSource items ++ r) hq hc
        fun ⟨hback, hdollar, hhead⟩ ↦
          hstart ⟨hback, hdollar, (head?_itemsSource_append items (hr hback)).1 hhead⟩
      rwa [beq_eq_false_iff_ne.2 hcq] at hplain

theorem passesTo_close (hq : isLiteralQuote q = true) (r : Text) :
    PassesTo (.literal q :: s) [q] r s := by
  have hne {d : Char} (hd : isLiteralQuote d = false) : q ≠ d := (ne_of_isLiteralQuote hq hd).symm
  have hclose := passesTo_plain (s := s) (r := r) hq (hne rfl) fun h ↦ hne (d := '$') rfl h.2.1
  rwa [beq_self_eq_true] at hclose

theorem passesTo_quote (d : Nat) (hq : isLiteralQuote q = true) (r : Text) :
    PassesTo (.braces d :: s) [q] r (.literal q :: .braces d :: s) := by
  unfold PassesTo
  rw [List.singleton_append, closeLength, if_pos hq]
  rfl

def Passes (code : Text) : Prop :=
  ∀ d s r, PassesTo (.braces (d + 1) :: s) code r (.braces (d + 1) :: s)

theorem passesTo_substitution {code : Text} (h : Passes code) (r : Text) :
    PassesTo (.literal backtick :: s) ("$\x7b" ++ code ++ ['}']) r (.literal backtick :: s) := by
  have hopen (u : Text) : PassesTo (.literal backtick :: s) "$\x7b" u
      (.braces 1 :: .literal backtick :: s) := rfl
  have hclose : PassesTo (.braces 1 :: .literal backtick :: s) ['}'] r (.literal backtick :: s) :=
    rfl
  exact ((hopen _).trans (h 0 _ _)).trans hclose

theorem substitutionsSource_cons (p : Text × List Item) (rest : Substitutions) :
    substitutionsSource (p :: rest) =
      "$\x7b" ++ p.1 ++ ['}'] ++ (itemsSource p.2 ++ substitutionsSource rest) := by
  simp [substitutionsSource]

theorem head?_substitutionsSource_append (rest : Substitutions) (hr : r.head? ≠ some '{') :
    (substitutionsSource rest ++ r).head? ≠ some '{' := by
  cases rest with
  | nil => exact hr
  | cons p rest => exact fun h ↦ absurd (Option.some.inj h) (by decide)

theorem passesTo_substitutions (hcode : ∀ p ∈ rest, Passes p.1)
    (hbody : ∀ p ∈ rest, isBody backtick p.2 = true) (hr : r.head? ≠ some '{') :
    PassesTo (.literal backtick :: s) (substitutionsSource rest) r (.literal backtick :: s) := by
  induction rest with
  | nil => exact passesTo_nil _ r
  | cons p rest ih =>
    rw [List.forall_mem_cons] at hcode hbody
    have hends : Ends backtick (substitutionsSource rest ++ r) :=
      fun _ ↦ head?_substitutionsSource_append rest hr
    rw [substitutionsSource_cons]
    exact (passesTo_substitution hcode.1 _).trans
      ((passesTo_items rfl hbody.1 hends).trans (ih hcode.2 hbody.2))

/-- From its first backtick on, a template is passed over whole. -/
theorem passesTo_template {first : List Item} (hfirst : isBody backtick first = true)
    (hcode : ∀ p ∈ rest, Passes p.1) (hbody : ∀ p ∈ rest, isBody backtick p.2 = true) (r : Text) :
    PassesTo (.literal backtick :: s)
      (itemsSource first ++ substitutionsSource rest ++ [backtick]) r s := by
  have hback : ([backtick] ++ r).head? ≠ some '{' := by
    simp only [List.singleton_append, List.head?_cons, ne_eq, Option.some.injEq]
    decide
  have hends : Ends backtick (substitutionsSource rest ++ ([backtick] ++ r)) :=
    fun _ ↦ head?_substitutionsSource_append rest hback
  exact ((passesTo_items rfl hfirst hends).trans (passesTo_substitutions hcode hbody hback)).trans
    (passesTo_close rfl r)

theorem Balanced.passes {code : Text} (h : Balanced code) : Passes code := by
  intro d s r
  -- Depth and stack vary: the codes of a template are read behind the backtick of that template.
  induction h generalizing d s r with
  | nil => exact passesTo_nil _ r
  | @plain c u hquote hopen hclose _ ih =>
    have hc : PassesTo (.braces (d + 1) :: s) [c] (u ++ r) (.braces (d + 1) :: s) := by
      unfold PassesTo
      rw [List.singleton_append, closeLength]
      simp [hquote, hopen, hclose]
    exact hc.trans (ih d s r)
  | @braces inner u _ _ ihinner ih =>
    have hopen (v : Text) : PassesTo (.braces (d + 1) :: s) ['{'] v (.braces (d + 2) :: s) := rfl
    have hclose (v : Text) : PassesTo (.braces (d + 2) :: s) ['}'] v (.braces (d + 1) :: s) := rfl
    have hshape : '{' :: inner ++ '}' :: u = ['{'] ++ inner ++ ['}'] ++ u := by simp
    rw [hshape]
    exact (((hopen _).trans (ihinner (d + 1) s _)).trans (hclose _)).trans (ih d s r)
  | @string q body u hq hbody _ ih =>
    have hquote : isLiteralQuote q = true := by rcases hq with rfl | rfl <;> rfl
    have hends : Ends q ([q] ++ (u ++ r)) := by
      rintro rfl
      rcases hq with hq | hq <;> exact absurd hq (by decide)
    have hshape : q :: itemsSource body ++ q :: u = [q] ++ itemsSource body ++ [q] ++ u := by simp
    rw [hshape]
    exact (((passesTo_quote _ hquote _).trans (passesTo_items hquote hbody hends)).trans
      (passesTo_close hquote _)).trans (ih d s r)
  | @template first rest u hfirst hbody _ _ ihcode ih =>
    have hcode : ∀ p ∈ rest, Passes p.1 := fun p hp d s r ↦ ihcode p hp d s r
    have hshape : templateSource first rest ++ u =
        [backtick] ++ (itemsSource first ++ substitutionsSource rest ++ [backtick]) ++ u := by
      simp [templateSource]
    rw [hshape]
    exact ((passesTo_quote _ rfl _).trans (passesTo_template hfirst hcode hbody _)).trans (ih d s r)

end Close

section Parts

variable {items : List Item} {rest : Substitutions} {r : Text}

theorem partsFrom_length_append (t r : Text) : partsFrom t.length (t ++ r) = partsFrom 0 r := by
  induction t with
  | nil => rfl
  | cons c t ih => exact ih

def fixedPart (t : Text) : List Part := if t.isEmpty then [] else [.fixed t]

def Starts (parts : List Part) : Prop := ∀ t, parts.head? ≠ some (.fixed t)

theorem consFixed_fixedPart {parts : List Part} (h : Starts parts) (t u : Text) :
    consFixed t (fixedPart u ++ parts) = .fixed (t ++ u) :: parts := by
  cases u with
  | nil =>
    cases parts with
    | nil => simp [fixedPart, consFixed]
    | cons part parts =>
      cases part with
      | fixed v => exact absurd rfl (h v)
      | substitution code => simp [fixedPart, consFixed]
  | cons c u => rfl

theorem partsFrom_pair (c : Char) (t : Text) :
    partsFrom 0 ('\\' :: c :: t) = consFixed ['\\', c] (partsFrom 0 t) := rfl

theorem partsFrom_plain {c : Char} {t : Text} (hc : c ≠ '\\')
    (hstart : ¬(c = '$' ∧ t.head? = some '{')) :
    partsFrom 0 (c :: t) = consFixed [c] (partsFrom 0 t) := by
  have hopen : ¬startsWith (c :: t) "$\x7b" = true := by
    intro h
    obtain ⟨u, hu⟩ := List.isPrefixOf_iff_prefix.1 h
    obtain ⟨rfl, rfl⟩ := List.cons.inj hu
    exact hstart ⟨rfl, rfl⟩
  rw [partsFrom, if_neg hopen, if_neg (by simpa using hc)]

theorem partsFrom_items (h : isBody backtick items = true) (hr : r.head? ≠ some '{')
    (hstarts : Starts (partsFrom 0 r)) :
    partsFrom 0 (itemsSource items ++ r) = fixedPart (itemsSource items) ++ partsFrom 0 r := by
  induction items with
  | nil => rfl
  | cons i items ih =>
    have hstep (t : Text) (ht : t ≠ []) (hrest : isBody backtick items = true) :
        consFixed t (partsFrom 0 (itemsSource items ++ r)) =
          fixedPart (t ++ itemsSource items) ++ partsFrom 0 r := by
      rw [ih hrest, consFixed_fixedPart hstarts, fixedPart, if_neg (by simp [ht])]
      rfl
    cases i with
    | pair c => exact (partsFrom_pair c _).trans (hstep ['\\', c] (List.cons_ne_nil _ _) h)
    | plain c =>
      obtain ⟨hc, -, hrest, hstart⟩ := isBody_plain h
      have hplain := partsFrom_plain (t := itemsSource items ++ r) hc fun ⟨hdollar, hhead⟩ ↦
        hstart ⟨rfl, hdollar, (head?_itemsSource_append items hr).1 hhead⟩
      exact hplain.trans (hstep [c] (List.cons_ne_nil _ _) hrest)

theorem partsFrom_substitution {code : Text} (h : Balanced code) (r : Text) :
    partsFrom 0 ("$\x7b" ++ code ++ ['}'] ++ r) = .substitution code :: partsFrom 0 r := by
  have hclose : closeLength [.braces 1] (code ++ '}' :: r) = some (code.length + 1) := by
    rw [h.passes 0 [] ('}' :: r)]
    simp [closeLength, isLiteralQuote, Nat.add_comm]
  have hskip : partsFrom (code.length + 1) (code ++ '}' :: r) = partsFrom 0 r := by
    have hskip := partsFrom_length_append (code ++ ['}']) r
    simpa using hskip
  have hshape : ("$\x7b" ++ code ++ ['}'] ++ r : Text) = '$' :: '{' :: (code ++ '}' :: r) := by
    simp
  have hopen : startsWith ('$' :: '{' :: (code ++ '}' :: r)) "$\x7b" = true := rfl
  rw [hshape, partsFrom, if_pos hopen, List.drop_one, List.tail_cons, hclose]
  simp only [Nat.add_sub_cancel, List.take_left, partsFrom, hskip]

theorem starts_substitutions (rest : Substitutions) (hcode : ∀ p ∈ rest, Balanced p.1) :
    Starts (partsFrom 0 (substitutionsSource rest)) := by
  cases rest with
  | nil => exact fun t ↦ nofun
  | cons p rest =>
    intro t
    rw [substitutionsSource_cons, partsFrom_substitution (hcode p List.mem_cons_self)]
    exact fun h ↦ by cases Option.some.inj h

/-- The parts of a body are those it was put together from. -/
theorem partsFrom_template {first : List Item} (hfirst : isBody backtick first = true)
    (hrest : ∀ p ∈ rest, Balanced p.1 ∧ isBody backtick p.2 = true) :
    partsFrom 0 (itemsSource first ++ substitutionsSource rest) =
      fixedPart (itemsSource first) ++
        rest.flatMap fun p ↦ .substitution p.1 :: fixedPart (itemsSource p.2) := by
  have hhead (rest : Substitutions) : (substitutionsSource rest).head? ≠ some '{' := by
    simpa using head?_substitutionsSource_append (r := []) rest nofun
  rw [partsFrom_items hfirst (hhead rest) (starts_substitutions rest fun p hp ↦ (hrest p hp).1)]
  congr 1
  clear hfirst
  induction rest with
  | nil => rfl
  | cons p rest ih =>
    rw [List.forall_mem_cons] at hrest
    rw [substitutionsSource_cons, partsFrom_substitution hrest.1.1,
      partsFrom_items hrest.1.2 (hhead rest)
        (starts_substitutions rest fun p hp ↦ (hrest.2 p hp).1), ih hrest.2]
    rfl

theorem fixedText_plain {c : Char} {t : Text} (hc : c ≠ '\\')
    (hopen : ¬(c = '#' ∧ t.head? = some '{')) :
    fixedText (c :: t) = (if c == '"' then ['\\', c] else [c]) ++ fixedText t := by
  rw [fixedText]
  · split
    next hquote =>
      rw [beq_iff_eq.1 hquote]
      rfl
    next => rfl
  · rintro d u rfl
    exact absurd rfl hc
  · rintro u rfl rfl
    exact hopen ⟨rfl, rfl⟩

theorem fixedText_items (h : isBody backtick items = true) :
    fixedText (itemsSource items) = rubyItems items := by
  induction items with
  | nil => rfl
  | cons i items ih =>
    cases i with
    | pair c =>
      have hshape : itemsSource (.pair c :: items) = '\\' :: c :: itemsSource items := rfl
      rw [hshape, fixedText, ih h, rubyItems]
      split <;> rfl
    | plain c =>
      obtain ⟨hc, -, hrest, -⟩ := isBody_plain h
      have ih := ih hrest
      have hshape : itemsSource (.plain c :: items) = c :: itemsSource items := rfl
      by_cases hopen : c = '#' ∧ items.head? = some (.plain '{')
      · obtain ⟨rfl, hhead⟩ := hopen
        obtain ⟨items, rfl⟩ := List.head?_eq_some_iff.1 hhead
        rw [hshape, rubyItems, ← ih]
        rfl
      · have hhead : ¬(c = '#' ∧ (itemsSource items).head? = some '{') := by
          have hiff := head?_itemsSource_append (r := []) items nofun
          rw [List.append_nil] at hiff
          rwa [hiff]
        have hmark : (c == '#' && items.head? == some (.plain '{')) = false := by
          simpa only [Bool.and_eq_false_imp, beq_iff_eq, beq_eq_false_iff_ne, not_and] using hopen
        rw [hshape, fixedText_plain hc hhead, ih, rubyItems, hmark, Bool.or_false]

end Parts

section ToRuby

variable {first : List Item} {rest : Substitutions}

def Part.toRuby : Part → Text
  | .fixed u => fixedText u
  | .substitution code => "#\x7b" ++ strip (Script.toRuby code) ++ "\x7d"

def Segment.toRuby : Segment → Text
  | .code t => operators t
  | .string t => t
  | .template t => '"' :: (templateParts t).flatMap Part.toRuby ++ ['"']

theorem toRuby_eq (code : Text) : toRuby code = (segments code).flatMap Segment.toRuby := by
  rw [toRuby, List.flatMap_def]
  refine congrArg List.flatten ?_
  rw [← List.attach_map_val (l := segments code) (f := Segment.toRuby)]
  refine List.map_congr_left fun x _ ↦ ?_
  match x with
  | ⟨.code t, _⟩ => rfl
  | ⟨.string t, _⟩ => rfl
  | ⟨.template t, _⟩ =>
    dsimp only [Segment.toRuby]
    rw [List.flatMap_def, ← List.attach_map_val (l := templateParts t) (f := Part.toRuby)]
    refine congrArg (fun u ↦ '"' :: List.flatten u ++ ['"']) (List.map_congr_left fun y _ ↦ ?_)
    match y with
    | ⟨.fixed u, _⟩ => rfl
    | ⟨.substitution c, _⟩ => rfl

theorem segments_template (hfirst : isBody backtick first = true)
    (hrest : ∀ p ∈ rest, Balanced p.1 ∧ isBody backtick p.2 = true) :
    segments (templateSource first rest) = [.template (templateSource first rest)] := by
  let body := itemsSource first ++ substitutionsSource rest ++ [backtick]
  have hclose : closeLength [.literal backtick] body = some body.length := by
    have hpass := passesTo_template (s := []) hfirst (fun p hp ↦ (hrest p hp).1.passes)
      (fun p hp ↦ (hrest p hp).2) []
    rw [PassesTo, List.append_nil] at hpass
    rw [hpass, closeLength, Option.map_some, Nat.zero_add]
  have hskip : segmentsFrom body.length body = [] := by
    have hskip (t : Text) : segmentsFrom t.length t = [] := by
      induction t with
      | nil => rfl
      | cons c t ih => exact ih
    exact hskip body
  have hshape : templateSource first rest = backtick :: body := rfl
  have hquote : isLiteralQuote backtick = true := rfl
  rw [segments, hshape, segmentsFrom, if_pos hquote, hclose]
  simp only [Option.getD_some, List.take_length, hskip, beq_self_eq_true, if_true]

theorem templateParts_template (hfirst : isBody backtick first = true)
    (hrest : ∀ p ∈ rest, Balanced p.1 ∧ isBody backtick p.2 = true) :
    templateParts (templateSource first rest) = fixedPart (itemsSource first) ++
      rest.flatMap fun p ↦ .substitution p.1 :: fixedPart (itemsSource p.2) := by
  let body := itemsSource first ++ substitutionsSource rest
  have hbody : templateBody (backtick :: body ++ [backtick]) = body := by
    have hdrop : (backtick :: body ++ [backtick]).drop 1 = body ++ [backtick] := rfl
    rw [templateBody, hdrop]
    split
    next h => exact absurd h (by simp)
    next => simp
  have hshape : templateSource first rest = backtick :: body ++ [backtick] := rfl
  rw [templateParts, hshape, hbody, partsFrom_template hfirst hrest]

/-- A template literal is spelled in Ruby by its parts: each fixed text by itself, and between them
the spelling of each substitution. -/
theorem toRuby_template (first : List Item) (rest : Substitutions)
    (hfirst : isBody backtick first = true)
    (hrest : ∀ p ∈ rest, Balanced p.1 ∧ isBody backtick p.2 = true) :
    toRuby (templateSource first rest) =
      '"' :: (rubyItems first ++
        rest.flatMap fun p ↦ ("#\x7b" ++ strip (toRuby p.1) ++ '}' :: rubyItems p.2 : Text)) ++
        ['"'] := by
  have hfixed {items : List Item} (h : isBody backtick items = true) :
      (fixedPart (itemsSource items)).flatMap Part.toRuby = rubyItems items := by
    rw [← fixedText_items h, fixedPart]
    split
    next hempty =>
      rw [List.isEmpty_iff.1 hempty]
      rfl
    next => simp [Part.toRuby]
  have hparts : (templateParts (templateSource first rest)).flatMap Part.toRuby =
      rubyItems first ++
        rest.flatMap fun p ↦ ("#\x7b" ++ strip (toRuby p.1) ++ '}' :: rubyItems p.2 : Text) := by
    rw [templateParts_template hfirst hrest, List.flatMap_append, hfixed hfirst,
      List.flatMap_assoc]
    rw [List.flatMap_def, List.flatMap_def]
    refine congrArg (rubyItems first ++ List.flatten ·) (List.map_congr_left fun p hp ↦ ?_)
    rw [List.flatMap_cons, hfixed (hrest p hp).2]
    simp [Part.toRuby]
  rw [toRuby_eq, segments_template hfirst hrest, List.flatMap_singleton]
  exact congrArg (fun t ↦ '"' :: t ++ ['"']) hparts

theorem Balanced.plain_append {t r : Text}
    (ht : (t.all fun c ↦ !isLiteralQuote c && c != '{' && c != '}') = true) (hr : Balanced r) :
    Balanced (t ++ r) := by
  induction t with
  | nil => exact hr
  | cons c t ih =>
    simp only [List.all_cons, Bool.and_eq_true, Bool.not_eq_true', bne_iff_ne] at ht
    exact .plain ht.1.1.1 ht.1.1.2 ht.1.2 (ih ht.2)

/-- A call with a brace in a string, and with a template in which a substitution stands. -/
def nestedCall : Text := " f(\x7bk: '\x7d'\x7d, `in $\x7by ?? z\x7d`) "

theorem balanced_nestedCall : Balanced nestedCall := by
  have hoperands : Balanced "y ?? z" := .plain_append (t := "y ?? z") rfl .nil
  have htemplate : Balanced (templateSource [.plain 'i', .plain 'n', .plain ' ']
      [("y ?? z", [])] ++ ") ") :=
    .template rfl (List.forall_mem_singleton.2 rfl) (List.forall_mem_singleton.2 hoperands)
      (.plain_append (t := ") ") rfl .nil)
  have hclosed : isBody '\'' [.plain '}'] = true := rfl
  have hstring : Balanced "'\x7d'" := .string (.inr rfl) hclosed .nil
  have hkey : Balanced "k: '\x7d'" := .plain_append (t := "k: ") rfl hstring
  exact .plain_append (t := " f(") rfl (.braces hkey (.plain_append (t := ", ") rfl htemplate))

theorem toRuby_nestedCall :
    toRuby nestedCall = " f(\x7bk: '\x7d'\x7d, \"in #\x7by || z\x7d\") " := by
  have hoperands : toRuby "y ?? z" = "y || z" := by
    have hsegments : segments "y ?? z" = [.code "y ?? z"] := by decide
    rw [toRuby_eq, hsegments]
    decide
  have hparts : templateParts "`in $\x7by ?? z\x7d`" = [.fixed "in ", .substitution "y ?? z"] := by
    decide
  have hsegments : segments nestedCall = [.code " f(\x7bk: ", .string "'\x7d'", .code "\x7d, ",
      .template "`in $\x7by ?? z\x7d`", .code ") "] := by decide
  simp only [toRuby_eq nestedCall, hsegments, List.flatMap_cons, List.flatMap_nil, Segment.toRuby,
    hparts, Part.toRuby, hoperands]
  decide

theorem toRuby_template_nestedCall :
    toRuby "`\"#\x7ba\x7d\" \\`$\x7b f(\x7bk: '\x7d'\x7d, `in $\x7by ?? z\x7d`) \x7d\\n`" =
      "\"\\\"\\#\x7ba\x7d\\\" `#\x7bf(\x7bk: '\x7d'\x7d, \"in #\x7by || z\x7d\")\x7d\\n\"" := by
  let first : List Item := ("\"#\x7ba\x7d\" ".toList.map .plain) ++ [.pair backtick]
  have htemplate := toRuby_template first [(nestedCall, [.pair 'n'])] rfl
    (List.forall_mem_singleton.2 ⟨balanced_nestedCall, rfl⟩)
  rw [List.flatMap_singleton, toRuby_nestedCall] at htemplate
  exact htemplate

end ToRuby

end ViewForge.Script
