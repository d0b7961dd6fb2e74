import ViewForge.Project.Artifact
import ViewForge.Project.Settings
import ViewForge.Proofs.Erb.DirectiveLayout
import ViewForge.Proofs.Naming

namespace ViewForge

open Text Erb

namespace Naming

def isConstantName : Text → Bool
  | [] => false
  | c :: r => isAsciiUpper c && r.all isNameCharacter

def isConstantPath (t : Text) : Bool := (splitOnText "::" t).all isConstantName

def isNameRest : Text → Bool
  | [] => true
  | c :: r => (if c == '-' then r.head?.any isAsciiLower else isNameCharacter c) && isNameRest r

def namesConstant : Text → Bool
  | [] => false
  | c :: r =>
    (isSeparator c && r.head?.any isAsciiLower || isConstantName (upperLetter c)) && isNameRest r

section Paths

variable {a b t : Text} {names : List Text}

theorem isName_of_isConstantName (h : isConstantName t = true) : isName t = true := by
  cases t with
  | nil => cases h
  | cons c r =>
    rw [isConstantName, Bool.and_eq_true] at h
    rw [isName, isAsciiLetter_of_isAsciiUpper h.1, h.2, Bool.and_true]

theorem colon_not_mem (h : isConstantName t = true) : ':' ∉ t :=
  (isSegment_of_isName (isName_of_isConstantName h)).2.1

theorem isConstantPath_iff :
    isConstantPath t = true ↔
      ∃ names ≠ [], (∀ n ∈ names, isConstantName n = true) ∧ t = join "::" names := by
  constructor
  · intro h
    refine ⟨_, splitOnTextFrom_ne_nil "::" 0 t, List.all_eq_true.1 h, ?_⟩
    rw [join_splitOnTextFrom (by decide), List.drop_zero]
  · rintro ⟨names, hne, hnames, rfl⟩
    have hsplit : splitOnText "::" (join "::" names) = names :=
      splitOnText_join (fun n hn ↦ colon_not_mem (hnames n hn)) hne
    rw [isConstantPath, hsplit, List.all_eq_true]
    exact hnames

theorem isConstantPath_of_not_mem (h : ':' ∉ t) : isConstantPath t = isConstantName t := by
  have hsplit : splitOnText "::" t = [t] := splitOnText_of_not_mem [':'] h
  rw [isConstantPath, hsplit, List.all_cons, List.all_nil, Bool.and_true]

theorem isConstantPath_append_of_isConstantName (ha : isConstantName a = true) (b : Text) :
    isConstantPath (a ++ "::" ++ b) = isConstantPath b := by
  have hsplit : splitOnText "::" (a ++ "::" ++ b) = a :: splitOnText "::" b :=
    splitOnText_append [':'] (colon_not_mem ha) b
  rw [isConstantPath, hsplit, List.all_cons, ha, Bool.true_and, isConstantPath]

theorem head?_join {n : Text} (hn : isConstantName n = true) (ns : List Text) :
    (join "::" (n :: ns)).head? = n.head? := by
  have hne := (isSegment_of_isName (isName_of_isConstantName hn)).1
  obtain ⟨c, n, rfl⟩ := List.exists_cons_of_ne_nil hne
  cases ns <;> rfl

theorem isConstantPath_of_join_eq (hne : names ≠ []) (hnames : ∀ n ∈ names, isConstantName n = true)
    (heq : join "::" names = a ++ "::" ++ b) :
    isConstantPath a = true ∧ isConstantPath b = true := by
  induction names generalizing a with
  | nil => exact absurd rfl hne
  | cons n ns ih =>
    rw [List.forall_mem_cons] at hnames
    have hcolon := colon_not_mem hnames.1
    cases ns with
    | nil =>
      rw [join, List.intercalate_singleton] at heq
      exact absurd (by simp [heq]) hcolon
    | cons n' ns =>
      have hrest : isConstantPath (join "::" (n' :: ns)) = true :=
        isConstantPath_iff.2 ⟨_, List.cons_ne_nil _ _, hnames.2, rfl⟩
      rw [join_cons _ _ (List.cons_ne_nil _ _), List.append_assoc, List.append_assoc,
        List.append_eq_append_iff] at heq
      -- The parts are cut at the first `::`, behind it, or one character too late.
      rcases heq with ⟨x, rfl, heq⟩ | ⟨x, rfl, heq⟩
      · rcases x with _ | ⟨c, _ | ⟨d, y⟩⟩
        · obtain rfl := List.append_cancel_left heq
          rw [List.append_nil, isConstantPath_of_not_mem hcolon]
          exact ⟨hnames.1, hrest⟩
        · have hhead : (join "::" (n' :: ns)).head? = some ':' :=
            congrArg List.head? (List.cons.inj (List.cons.inj heq).2).2
          rw [head?_join (hnames.2 _ List.mem_cons_self)] at hhead
          exact absurd (List.mem_of_head? hhead) (colon_not_mem (hnames.2 _ List.mem_cons_self))
        · change ':' :: ':' :: join "::" (n' :: ns) = c :: d :: (y ++ ("::" ++ b)) at heq
          rw [List.cons.injEq, List.cons.injEq] at heq
          obtain ⟨rfl, rfl, heq⟩ := heq
          obtain ⟨hy, hb⟩ := ih (List.cons_ne_nil _ _) hnames.2
            (heq.trans (List.append_assoc y "::" b).symm)
          have hassoc : n ++ ':' :: ':' :: y = n ++ "::" ++ y := (List.append_assoc n "::" y).symm
          rw [hassoc, isConstantPath_append_of_isConstantName hnames.1]
          exact ⟨hy, hb⟩
      · cases x with
        | nil =>
          obtain rfl := List.append_cancel_left heq
          rw [List.append_nil] at hcolon hnames
          rw [isConstantPath_of_not_mem hcolon]
          exact ⟨hnames.1, hrest⟩
        | cons c x =>
          change ':' :: ':' :: b = c :: (x ++ ("::" ++ join "::" (n' :: ns))) at heq
          obtain ⟨rfl, -⟩ := List.cons.inj heq
          exact absurd (List.mem_append_right a List.mem_cons_self) hcolon

/-- A text put together with `::` is a constant path just when its parts are. -/
theorem isConstantPath_append (a b : Text) :
    isConstantPath (a ++ "::" ++ b) = true ↔ isConstantPath a = true ∧ isConstantPath b = true := by
  constructor
  · intro h
    obtain ⟨names, hne, hnames, heq⟩ := isConstantPath_iff.1 h
    exact isConstantPath_of_join_eq hne hnames heq.symm
  · rintro ⟨ha, hb⟩
    obtain ⟨names, hne, hnames, rfl⟩ := isConstantPath_iff.1 ha
    clear ha
    induction names with
    | nil => exact absurd rfl hne
    | cons n ns ih =>
      rw [List.forall_mem_cons] at hnames
      cases ns with
      | nil =>
        rw [join, List.intercalate_singleton, isConstantPath_append_of_isConstantName hnames.1]
        exact hb
      | cons n' ns =>
        have hassoc : join "::" (n :: n' :: ns) ++ "::" ++ b =
            n ++ "::" ++ (join "::" (n' :: ns) ++ "::" ++ b) := by
          rw [join_cons _ _ (List.cons_ne_nil _ _)]
          simp only [List.append_assoc]
        rw [hassoc, isConstantPath_append_of_isConstantName hnames.1]
        exact ih (List.cons_ne_nil _ _) hnames.2

theorem isConstantPath_join {ts : List Text} (hne : ts ≠ []) :
    isConstantPath (join "::" ts) = true ↔ ∀ t ∈ ts, isConstantPath t = true := by
  induction ts with
  | nil => exact absurd rfl hne
  | cons t ts ih =>
    cases ts with
    | nil => rw [join, List.intercalate_singleton, List.forall_mem_singleton]
    | cons u ts =>
      rw [join_cons _ _ (List.cons_ne_nil _ _), isConstantPath_append, ih (List.cons_ne_nil _ _),
        List.forall_mem_cons (a := t)]

theorem isNameCharacter_of_mem {c : Char} (h : isConstantPath t = true) (hc : c ∈ t) :
    isNameCharacter c = true ∨ c = ':' := by
  obtain ⟨names, -, hnames, rfl⟩ := isConstantPath_iff.1 h
  rcases mem_or_of_mem_join hc with hc | ⟨n, hn, hc⟩
  · right
    simpa using hc
  · have hname := isName_of_isConstantName (hnames n hn)
    exact .inl (List.all_eq_true.1 (all_isNameCharacter_of_isName hname) c hc)

end Paths

section Words

variable {c : Char} {t : Text}

theorem all_camelCase (t : Text) : (camelCase t).all isNameCharacter = isNameRest t := by
  induction t using camel_induction with
  | nil => rfl
  | capital c d t hc hd ih =>
    have hletter := isAsciiLetter_of_isAsciiLower hd
    have hupper := isAsciiLetter_of_isAsciiUpper (isAsciiUpper_upperChar hletter)
    have hne : (d == '-') = false := beq_eq_false_iff_ne.2 (ne_of_class hletter (by decide))
    have hhead :
        (if c == '-' then (d :: t).head?.any isAsciiLower else isNameCharacter c) = true := by
      rw [isSeparator, Bool.or_eq_true, beq_iff_eq, beq_iff_eq] at hc
      rcases hc with rfl | rfl
      · exact hd
      · rfl
    rw [camelCase_separator hc hd, List.all_cons, ih, isNameCharacter_of_isAsciiLetter hupper,
      isNameRest, hhead, isNameRest, hne, if_neg Bool.false_ne_true,
      isNameCharacter_of_isAsciiLetter hletter]
    rfl
  | kept c t hc ih =>
    rw [camelCase_cons hc, List.all_cons, ih, isNameRest]
    split
    next hdash =>
      rw [beq_iff_eq] at hdash
      subst hdash
      have hnone : t.head?.any isAsciiLower = false := by
        rw [Option.any_eq_false]
        exact hc rfl
      rw [hnone]
      rfl
    next => rfl

theorem upperLetter_cases (c : Char) :
    (∃ n, (n, upperLetter c) ∈ wideCapitals) ∨ upperLetter c = [upperChar c] := by
  rw [upperLetter]
  split
  next t ht =>
    obtain ⟨l, l', hl, -⟩ := List.lookup_eq_some_iff.1 ht
    exact .inl ⟨c.toNat, by rw [hl]; simp⟩
  next => exact .inr rfl

theorem upperLetter_ne_nil (c : Char) : upperLetter c ≠ [] := by
  have htable : ∀ e ∈ wideCapitals, e.2 ≠ [] := by decide
  rcases upperLetter_cases c with ⟨n, hwide⟩ | hsingle
  · exact htable _ hwide
  · rw [hsingle]
    exact List.cons_ne_nil _ _

theorem isConstantName_append {u : Text} (hu : u ≠ []) (t : Text) :
    isConstantName (u ++ t) = (isConstantName u && t.all isNameCharacter) := by
  obtain ⟨c, u, rfl⟩ := List.exists_cons_of_ne_nil hu
  rw [List.cons_append, isConstantName, isConstantName, List.all_append, Bool.and_assoc]

theorem isConstantName_pascalCase (t : Text) :
    isConstantName (pascalCase t) = namesConstant t := by
  induction t using camel_induction with
  | nil => rfl
  | capital c d t hc hd _ =>
    have hletter := isAsciiLetter_of_isAsciiLower hd
    have hupper := isAsciiUpper_upperChar hletter
    have hne : (d == '-') = false := beq_eq_false_iff_ne.2 (ne_of_class hletter (by decide))
    have hstart : (isSeparator c && (d :: t).head?.any isAsciiLower) = true := by
      rw [hc]
      exact hd
    rw [pascalCase, camelCase_separator hc hd,
      capitalize_cons (isAsciiLetter_of_isAsciiUpper hupper), upperChar_of_isAsciiUpper hupper,
      isConstantName, hupper, all_camelCase, namesConstant, hstart, isNameRest, hne,
      if_neg Bool.false_ne_true, isNameCharacter_of_isAsciiLetter hletter]
    rfl
  | kept c t hc _ =>
    have hsep : (isSeparator c && t.head?.any isAsciiLower) = false := by
      cases hs : isSeparator c with
      | true =>
        rw [Bool.true_and, Option.any_eq_false]
        exact hc hs
      | false => rfl
    rw [pascalCase, camelCase_cons hc, capitalize, isConstantName_append (upperLetter_ne_nil c),
      all_camelCase, namesConstant, hsep, Bool.false_or]

theorem isConstantName_pascalCase_of_isName (h : isName t = true) :
    isConstantName (pascalCase t) = true := by
  cases t with
  | nil => cases h
  | cons c r =>
    rw [isName, Bool.and_eq_true] at h
    rw [pascalCase_cons h.1, isConstantName, isAsciiUpper_upperChar h.1,
      all_isNameCharacter_camelCase h.2, Bool.and_true]

theorem upperLetter_of_isBlank (h : isBlank c = true) : upperLetter c = [c] :=
  blank_induction (P := fun c ↦ upperLetter c = [c]) (by decide +kernel) h

/-- Camel case adds and removes nothing but separators and letters. -/
theorem mem_camelCase (hsep : isSeparator c = false) (hletter : isAsciiLetter c = false) :
    c ∈ camelCase t ↔ c ∈ t := by
  induction t using camel_induction with
  | nil => rfl
  | capital d e t hd he ih =>
    have he := isAsciiLetter_of_isAsciiLower he
    have hupper := isAsciiLetter_of_isAsciiUpper (isAsciiUpper_upperChar he)
    have hne {x : Char} (hx : isAsciiLetter x = true) : c ≠ x := by
      rintro rfl
      exact absurd hx (hletter ▸ Bool.false_ne_true)
    have hned : c ≠ d := by
      rintro rfl
      exact absurd hd (hsep ▸ Bool.false_ne_true)
    rw [camelCase_separator hd ‹_›, List.mem_cons, List.mem_cons, List.mem_cons, ih]
    simp [hne hupper, hne he, hned]
  | kept d t hd ih => rw [camelCase_cons hd, List.mem_cons, List.mem_cons, ih]

theorem mem_pascalCase (hc : isBlank c = true) (h : c ∈ t) : c ∈ pascalCase t := by
  have hletter : isAsciiLetter c = false := by
    rw [← Bool.not_eq_true]
    intro hletter
    have hcode := toNat_of_isAsciiLetter hletter
    rw [isBlank_eq_false (by omega) (by omega)] at hc
    cases hc
  have hsep : isSeparator c = false := by
    rw [isSeparator, Bool.or_eq_false_iff, beq_eq_false_iff_ne, beq_eq_false_iff_ne]
    exact ⟨ne_of_class hc (by decide), ne_of_class hc (by decide)⟩
  have hcamel := (mem_camelCase hsep hletter).2 h
  rw [pascalCase]
  cases hname : camelCase t with
  | nil => rwa [hname] at hcamel
  | cons d r =>
    rw [hname, List.mem_cons] at hcamel
    rw [capitalize, List.mem_append]
    rcases hcamel with rfl | hcamel
    · rw [upperLetter_of_isBlank hc]
      exact .inl (List.mem_singleton_self c)
    · exact .inr hcamel

theorem upperChar_ne {d : Char} (hpos : 0 < d.toNat) (hle : d.toNat ≤ 58) (h : c ≠ d) :
    upperChar c ≠ d := by
  by_cases hascii : c.toNat < 128
  · have hmoved : upperChar c = c ∨ 58 < (upperChar c).toNat :=
      ascii_induction (p := fun c ↦ upperChar c = c ∨ 58 < (upperChar c).toNat) (by decide +kernel)
        hascii
    rcases hmoved with hsame | hcode
    · rwa [hsame]
    · rintro rfl
      omega
  have hruns : ∀ run ∈ toUpperRuns, 58 < run.first + run.shift := by decide +kernel
  have hlower : isAsciiLower c = false := by
    rw [← Bool.not_eq_true]
    intro hlower
    exact hascii (toNat_lt_of_isAsciiLetter (isAsciiLetter_of_isAsciiLower hlower))
  rw [upperChar, hlower, if_neg Bool.false_ne_true, if_neg hascii, shiftCase]
  cases hshift : toUpperRuns.findSome? (·.shift? c) with
  | none => exact h
  | some s =>
    obtain ⟨run, hrun, hs⟩ := List.exists_of_findSome?_eq_some hshift
    have hfirst := hruns run hrun
    rw [CaseRun.shift?] at hs
    split at hs
    next hin =>
      cases hs
      simp only [Bool.and_eq_true, decide_eq_true_eq] at hin
      intro heq
      have hcode := congrArg Char.toNat heq
      rw [Option.map_some, Option.getD_some, Char.ofNat] at hcode
      by_cases hvalid : (Int.toNat (c.toNat + run.shift)).isValidChar
      · rw [dif_pos hvalid] at hcode
        change Int.toNat (c.toNat + run.shift) = d.toNat at hcode
        omega
      · rw [dif_neg hvalid] at hcode
        change 0 = d.toNat at hcode
        omega
    next => cases hs

/-- Pascal case brings in letters only. -/
theorem not_mem_pascalCase {d : Char} (hpos : 0 < d.toNat) (hle : d.toNat ≤ 58)
    (hsep : isSeparator d = false) (h : d ∉ t) : d ∉ pascalCase t := by
  have hletter : isAsciiLetter d = false := by
    rw [← Bool.not_eq_true]
    intro hletter
    have hcode := toNat_of_isAsciiLetter hletter
    omega
  have hcamel : d ∉ camelCase t := (mem_camelCase hsep hletter).not.2 h
  have htable : ∀ e ∈ wideCapitals, (e.2.all fun x ↦ decide (58 < x.toNat)) = true := by decide
  rw [pascalCase]
  cases hname : camelCase t with
  | nil => exact List.not_mem_nil
  | cons e r =>
    rw [hname, List.mem_cons, not_or] at hcamel
    rw [capitalize, List.mem_append, not_or]
    refine ⟨fun hmem ↦ ?_, hcamel.2⟩
    rcases upperLetter_cases e with ⟨n, hwide⟩ | hsingle
    · have hcode := of_decide_eq_true (List.all_eq_true.1 (htable _ hwide) d hmem)
      omega
    · rw [hsingle, List.mem_singleton] at hmem
      exact upperChar_ne hpos hle (Ne.symm hcamel.1) hmem.symm

end Words

/-- Nothing but separators is lost when a path is cut into segments. -/
theorem exists_mem_segments {c : Char} {t : Text} (hcolon : c ≠ ':') (hslash : c ≠ '/')
    (h : c ∈ t) : ∃ s ∈ segments t, c ∈ s := by
  have hfrom : ∃ s ∈ segmentsFrom t, c ∈ s := by
    fun_induction segmentsFrom t with
    | case1 => cases h
    | case2 r ih =>
      rw [List.mem_cons, List.mem_cons] at h
      obtain ⟨s, hs, hc⟩ := ih ((h.resolve_left hcolon).resolve_left hcolon)
      exact ⟨s, List.mem_cons_of_mem _ hs, hc⟩
    | case3 d r hd hnil ih => exact absurd hnil (segmentsFrom_ne_nil r)
    | case4 d r hd u us hrest hsep ih =>
      rw [beq_iff_eq] at hsep
      subst hsep
      obtain ⟨s, hs, hc⟩ := ih ((List.mem_cons.1 h).resolve_left hslash)
      exact ⟨s, List.mem_cons_of_mem [] (hrest ▸ hs), hc⟩
    | case5 d r hd u us hrest hsep ih =>
      rcases List.mem_cons.1 h with rfl | h
      · exact ⟨c :: u, List.mem_cons_self, List.mem_cons_self⟩
      · obtain ⟨s, hs, hc⟩ := ih h
        rw [hrest] at hs
        rcases List.mem_cons.1 hs with rfl | hs
        · exact ⟨d :: s, List.mem_cons_self, List.mem_cons_of_mem d hc⟩
        · exact ⟨s, List.mem_cons_of_mem _ hs, hc⟩
  obtain ⟨s, hs, hc⟩ := hfrom
  refine ⟨s, List.mem_filter.2 ⟨hs, ?_⟩, hc⟩
  simpa using List.ne_nil_of_mem hc

end Naming

namespace Project

open Naming Checked

def underscored (name : Text) : Text := name.map fun c ↦ if c == ' ' then '_' else c

section Settings

variable {α β : Type} {root : Path} {entries : List (Text × Data)} {s : Settings}

theorem ap_eq_ok {f : Checked (α → β)} {x : Checked α} {b : β} (h : ap f x = .ok b) :
    ∃ g a, f = .ok g ∧ x = .ok a ∧ g a = b := by
  cases f with
  | error e => cases x <;> cases h
  | ok g =>
    cases x with
    | error e => cases h
    | ok a => exact ⟨g, a, rfl, rfl, Except.ok.inj h⟩

theorem inField_eq_ok {name : Text} {x : Checked α} {a : α} (h : inField name x = .ok a) :
    x = .ok a := by
  cases x with
  | error e => cases h
  | ok b => exact h

theorem field_namespace (h : Settings.ofEntries root entries = .ok s) :
    field entries "namespace" Settings.asNamespace "Ui" = .ok s.namespaceName := by
  rw [Settings.ofEntries] at h
  -- The namespace is the second field of fifteen.
  iterate 13
    obtain ⟨_, _, hfields, -, rfl⟩ := ap_eq_ok h
    clear h
    rename' hfields => h
  obtain ⟨_, ns, hdest, hns, rfl⟩ := ap_eq_ok h
  obtain ⟨_, dest, hmk, -, rfl⟩ := ap_eq_ok hdest
  cases hmk
  exact hns

theorem asNamespace_eq_ok {d : Data} {ns : Text} (h : Settings.asNamespace d = .ok ns) :
    ∃ raw, d = .text raw ∧ Settings.namespaceOf? raw = some ns := by
  cases d with
  | text raw =>
    simp only [Settings.asNamespace, Data.asText] at h
    cases hns : Settings.namespaceOf? raw with
    | none =>
      rw [hns] at h
      cases h
    | some path =>
      rw [hns] at h
      exact ⟨raw, rfl, hns.trans (congrArg some (Except.ok.inj h))⟩
  | _ => cases h

theorem namespaceOf?_eq_some {raw ns : Text} (h : Settings.namespaceOf? raw = some ns) :
    segments (strip raw) ≠ [] ∧ IsNamespace (strip raw) ∧ ns = constantPath raw := by
  rw [Settings.namespaceOf?] at h
  split at h
  next hvalid =>
    rw [Bool.and_eq_true, Bool.not_eq_true', List.isEmpty_eq_false_iff, List.all_eq_true] at hvalid
    exact ⟨hvalid.1, hvalid.2, (Option.some.inj h).symm⟩
  next => cases h

/-- An accepted namespace is stored as a constant path just when no white space is around it. -/
theorem isConstantPath_constantPath {raw ns : Text} (h : Settings.namespaceOf? raw = some ns) :
    isConstantPath (constantPath raw) = true ↔ strip raw = raw := by
  obtain ⟨hne, hnames, -⟩ := namespaceOf?_eq_some h
  constructor
  · intro hpath
    have hsolid : ∀ c ∈ raw, isBlank c = false := by
      intro c hc
      rw [← Bool.not_eq_true]
      intro hblank
      obtain ⟨t, ht, hct⟩ := exists_mem_segments (ne_of_class hblank (by decide))
        (ne_of_class hblank (by decide)) hc
      have hmem : c ∈ constantPath raw :=
        mem_join (List.mem_map_of_mem ht) (mem_pascalCase hblank hct)
      rcases isNameCharacter_of_mem hpath hmem with hname | rfl
      · have hcode := toNat_of_isMarkupNamePart (isMarkupNamePart_of_isNameCharacter hname)
        rw [isBlank_eq_false (by omega) (by omega)] at hblank
        cases hblank
      · cases hblank
    calc
      strip raw = ink (strip raw) :=
        (ink_eq_self_iff.2 fun c hc ↦ hsolid c ((strip_isInfix raw).subset hc)).symm
      _ = ink raw := ink_strip raw
      _ = raw := ink_eq_self_iff.2 hsolid
  · intro hstrip
    rw [hstrip] at hne hnames
    rw [constantPath, isConstantPath_join (by simpa using hne), List.forall_mem_map]
    intro t ht
    have hname := isConstantName_pascalCase_of_isName (hnames t ht)
    rw [isConstantPath_of_not_mem (colon_not_mem hname), hname]

end Settings

/-- Every part of a directory adds constants of its own to a namespace. -/
theorem isConstantPath_nestedNamespace (ns : Text) (dir : Path) :
    isConstantPath (nestedNamespace ns dir) = true ↔ isConstantPath ns = true ∧
      ∀ part ∈ dir.parts, isConstantPath (pascalCase (underscored part)) = true := by
  rw [nestedNamespace, isConstantPath_join (List.cons_ne_nil _ _), List.forall_mem_cons,
    List.forall_mem_map]
  rfl

theorem isConstantPath_pascalCase {part : Text} (h : ':' ∉ part) :
    isConstantPath (pascalCase (underscored part)) = namesConstant (underscored part) := by
  have hcolon : ':' ∉ underscored part := by
    intro hmem
    obtain ⟨c, hc, heq⟩ := List.mem_map.1 hmem
    split at heq
    · cases heq
    · exact h (heq ▸ hc)
  have hpascal := not_mem_pascalCase (by decide) (by decide) rfl hcolon
  rw [isConstantPath_of_not_mem hpascal, isConstantName_pascalCase]

/-- The namespace of accepted settings is a constant path just when it is written without white
space around it, and the namespace below a directory when the name of each directory on the way is
that of a constant too. -/
theorem isConstantPath_namespaces {root : Path} {entries : List (Text × Data)} {s : Settings}
    (h : Settings.ofEntries root entries = .ok s) :
    (isConstantPath s.namespaceName = true ↔
      ∀ raw, Data.get? entries "namespace" = some (.text raw) → strip raw = raw) ∧
    (∀ dir, isConstantPath (nestedNamespace s.namespaceName dir) = true ↔
      isConstantPath s.namespaceName = true ∧
        ∀ part ∈ dir.parts, isConstantPath (pascalCase (underscored part)) = true) ∧
    ∀ part, ':' ∉ part →
      isConstantPath (pascalCase (underscored part)) = namesConstant (underscored part) := by
  refine ⟨?_, isConstantPath_nestedNamespace _, fun part ↦ isConstantPath_pascalCase⟩
  have hfield := field_namespace h
  rw [field] at hfield
  cases hget : Data.get? entries "namespace" with
  | none =>
    rw [hget] at hfield
    rw [← Except.ok.inj hfield]
    exact iff_of_true (by decide) nofun
  | some d =>
    rw [hget] at hfield
    obtain ⟨raw, rfl, hns⟩ := asNamespace_eq_ok (inField_eq_ok hfield)
    rw [(namespaceOf?_eq_some hns).2.2, isConstantPath_constantPath hns]
    exact ⟨fun hstrip raw' heq ↦ by cases heq; exact hstrip, fun hall ↦ hall raw rfl⟩

/-- A namespace in small letters, and a directory with a dash in its name. -/
theorem isConstantPath_namespaces_adminForms :
    isConstantPath "Admin::Forms" = true ∧
    isConstantPath (nestedNamespace "Admin::Forms" (Path.ofText "user-settings")) = true := by
  have hsettings : Settings.ofEntries {} [("namespace", .text "admin/forms")] =
      .ok { root := {}, namespaceName := "Admin::Forms" } := by decide +kernel
  obtain ⟨hnamespace, hnested, hpart⟩ := isConstantPath_namespaces hsettings
  have hpath : isConstantPath "Admin::Forms" = true := by
    refine hnamespace.2 fun raw heq ↦ ?_
    cases heq
    decide
  refine ⟨hpath, (hnested (Path.ofText "user-settings")).2 ⟨hpath, ?_⟩⟩
  intro part hmem
  have hparts : (Path.ofText "user-settings").parts = ["user-settings".toList] := by decide
  rw [hparts, List.mem_singleton] at hmem
  subst hmem
  rw [hpart _ (by decide)]
  decide

/-- A blank before a namespace is stored with it, and the name of a directory may be a number. -/
theorem not_isConstantPath_blank_number :
    (∃ s, Settings.ofEntries {} [("namespace", .text " ui")] = .ok s ∧
      isConstantPath s.namespaceName = false) ∧
    isConstantPath "Ui" = true ∧
    isConstantPath (nestedNamespace "Ui" (Path.ofText "2024")) = false :=
  ⟨⟨{ root := {}, namespaceName := " ui" }, by decide +kernel⟩, by decide +kernel⟩

end Project

end ViewForge
