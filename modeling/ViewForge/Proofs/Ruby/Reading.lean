import ViewForge.Component.Default
import ViewForge.Proofs.Numerals
import ViewForge.Proofs.Ruby.Quoting
import ViewForge.Proofs.Script.Strings
import ViewForge.Proofs.Text.Splitting

namespace ViewForge

open Text

/-- The value of a literal. The entries of a hash stand as they are written; the last one for a key
is the one that counts. -/
inductive LiteralValue where
  | string (units : List Nat)
  | number (value : Amount)
  | boolean (value : Bool)
  | nil
  | array (items : List LiteralValue)
  | hash (entries : List (List Nat × LiteralValue))

namespace Ruby

open Script Numeral

def isSpace (c : Char) : Bool := c == ' ' || (9 ≤ c.toNat && c.toNat ≤ 13)

def skipSpace (t : Text) : Text := t.dropWhile isSpace

def isLabelPart (c : Char) : Bool := isAsciiLetter c || isAsciiDigit c || c == '_' || 128 ≤ c.toNat

def foldLines : Text → Text
  | '\r' :: '\n' :: r => '\n' :: foldLines r
  | c :: r => c :: foldLines r
  | [] => []

def readLabel : Text → Option (List Nat × Text)
  | '"' :: r =>
    match readQuoted r with
    | .ok (v, ':' :: s) => some (units (foldLines v), s)
    | _ => none
  | t =>
    match t.dropWhile isLabelPart with
    | ':' :: s =>
      if t.head?.any (!isAsciiDigit ·) then some (units (t.takeWhile isLabelPart), s) else none
    | _ => none

def wordValue? (t : Text) : Option LiteralValue :=
  if t == "true" then some (.boolean true)
  else if t == "false" then some (.boolean false)
  else if t == "nil" then some .nil
  else (Ruby.number? t).map .number

def readWord (t : Text) : Option (LiteralValue × Text) :=
  (wordValue? (t.takeWhile isPart)).map (·, t.dropWhile isPart)

def readNegative (t : Text) : Option (LiteralValue × Text) :=
  (Ruby.number? (t.takeWhile isPart)).map fun a ↦ (.number a.neg, t.dropWhile isPart)

section Sequence

variable {α : Type}

def readMore (close : Char) (more : Text → Option (List α × Text)) (v : α) (t : Text) :
    Option (List α × Text) :=
  match skipSpace t with
  | [] => none
  | c :: r =>
    if c == close then some ([v], r)
    else if c == ',' then (more r).map fun (vs, s) ↦ (v :: vs, s)
    else none

def readSequence (close : Char) (item : Text → Option (α × Text)) :
    Nat → Text → Option (List α × Text)
  | 0, _ => none
  | n + 1, t =>
    match skipSpace t with
    | [] => none
    | c :: r =>
      if c == close then some ([], r)
      else (item (c :: r)).bind fun (v, s) ↦ readMore close (readSequence close item n) v s

end Sequence

def readEntry (value : Text → Option (LiteralValue × Text)) (t : Text) :
    Option ((List Nat × LiteralValue) × Text) := do
  let (key, r) ← readLabel t
  let (v, s) ← value r
  return ((key, v), s)

/-- The value that a text begins with, nested no deeper than `n`, and what follows it. -/
def readValue : Nat → Text → Option (LiteralValue × Text)
  | 0, _ => none
  | n + 1, t =>
    match skipSpace t with
    | '"' :: r => (readQuoted r).toOption.map fun (v, s) ↦ (.string (units (foldLines v)), s)
    | '[' :: r => (readSequence ']' (readValue n) n r).map fun (vs, s) ↦ (.array vs, s)
    | '{' :: r => (readSequence '}' (readEntry (readValue n)) n r).map fun (es, s) ↦ (.hash es, s)
    | '-' :: r => readNegative (skipSpace r)
    | r => readWord r

def readLiteral (t : Text) : Option LiteralValue :=
  match readValue (t.length + 1) t with
  | some (v, []) => some v
  | _ => none

section Space

variable {c : Char} {r t : Text}

theorem skipSpace_of_solid (h : isSpace c = false) (r : Text) : skipSpace (c :: r) = c :: r :=
  List.dropWhile_cons_of_neg (by simp [h])

theorem skipSpace_append {s : Text} (h : ∀ c ∈ s, isSpace c = true) (t : Text) :
    skipSpace (s ++ t) = skipSpace t := by
  rw [skipSpace, List.dropWhile_append_of_pos h]
  rfl

theorem foldLines_eq_self (h : '\r' ∉ t) : foldLines t = t := by
  fun_induction foldLines t with
  | case1 => simp at h
  | case2 c r _ ih =>
    rw [List.mem_cons, not_or] at h
    rw [ih h.2]
  | case3 => rfl

theorem readValue_space (n : Nat) (t : Text) : readValue n (' ' :: t) = readValue n t := by
  cases n with
  | zero => rfl
  | succ n =>
    have hskip : skipSpace (' ' :: t) = skipSpace t :=
      skipSpace_append (List.forall_mem_singleton.2 rfl) t
    rw [readValue, readValue, hskip]

def Begins (t : Text) : Prop := ∃ c r, t = c :: r ∧ isSpace c = false ∧ c ≠ ']' ∧ c ≠ '}'

def Ends (t : Text) : Prop := ∀ c ∈ t.head?, isPart c = false

theorem toNat_of_isSpace (h : isSpace c = true) : c.toNat ≤ 32 := by
  simp only [isSpace, Bool.or_eq_true, beq_iff_eq, Bool.and_eq_true, decide_eq_true_eq] at h
  rcases h with rfl | h
  · decide
  · omega

theorem isPart_of_isSpace (h : isSpace c = true) : isPart c = false := by
  rw [← Bool.not_eq_true]
  intro hpart
  exact Nat.not_le.2 (toNat_of_isPart hpart).1 (toNat_of_isSpace h)

theorem isSpace_of_isPart (h : isPart c = true) : isSpace c = false := by
  rw [← Bool.not_eq_true]
  intro hspace
  rw [isPart_of_isSpace hspace] at h
  cases h

theorem ends_cons (h : isPart c = false) (r : Text) : Ends (c :: r) := by
  intro d hd
  rwa [← Option.some.inj hd]

end Space

section Sequence

variable {α : Type} {item : Text → Option (α × Text)} {close : Char}

def ReadsItem (item : Text → Option (α × Text)) (p : Text × Option α) : Prop :=
  Begins p.1 ∧ ∀ rest, Ends rest → item (p.1 ++ rest) = p.2.map (·, rest)

theorem readSequence_space (n : Nat) (t : Text) :
    readSequence close item n (' ' :: t) = readSequence close item n t := by
  cases n with
  | zero => rfl
  | succ n =>
    have hskip : skipSpace (' ' :: t) = skipSpace t :=
      skipSpace_append (List.forall_mem_singleton.2 rfl) t
    rw [readSequence, readSequence, hskip]

variable (hclose : close = ']' ∨ close = '}') {pad : Text} (hpad : ∀ c ∈ pad, isSpace c = true)

include hclose in
theorem isSpace_close : isSpace close = false := by
  rcases hclose with rfl | rfl <;> rfl

include hclose hpad in
theorem ends_close (rest : Text) : Ends (pad ++ close :: rest) := by
  cases pad with
  | nil => rcases hclose with rfl | rfl <;> exact ends_cons rfl rest
  | cons c pad => exact ends_cons (isPart_of_isSpace (hpad c List.mem_cons_self)) _

include hclose in
theorem readSequence_item {p : Text × Option α} (hp : ReadsItem item p) {t : Text} (ht : Ends t)
    (n : Nat) :
    readSequence close item (n + 1) (p.1 ++ t) =
      p.2.bind fun v ↦ readMore close (readSequence close item n) v t := by
  obtain ⟨⟨c, r, hc, hsolid, hne⟩, hread⟩ := hp
  have hopen : (c == close) = false := by
    rcases hclose with rfl | rfl
    · exact beq_false_of_ne hne.1
    · exact beq_false_of_ne hne.2
  have hitem := hread t ht
  rw [hc, List.cons_append] at hitem ⊢
  rw [readSequence, skipSpace_of_solid hsolid]
  simp only [hopen, Bool.false_eq_true, if_false, hitem]
  cases p.2 <;> rfl

include hclose hpad in
theorem readMore_close (more : Text → Option (List α × Text)) (v : α) (rest : Text) :
    readMore close more v (pad ++ close :: rest) = some ([v], rest) := by
  rw [readMore, skipSpace_append hpad, skipSpace_of_solid (isSpace_close hclose)]
  simp

include hclose in
theorem readMore_comma (more : Text → Option (List α × Text)) (v : α) (t : Text) :
    readMore close more v (',' :: t) = (more t).map fun (vs, s) ↦ (v :: vs, s) := by
  have hcomma : (',' == close) = false := by rcases hclose with rfl | rfl <;> rfl
  rw [readMore, skipSpace_of_solid rfl]
  simp [hcomma]

theorem mapM_snd_cons {β : Type} (p : β × Option α) (ps : List (β × Option α)) :
    (p :: ps).mapM Prod.snd = p.2.bind fun v ↦ (ps.mapM Prod.snd).map (v :: ·) := by
  rw [List.mapM_cons]
  cases p.2 with
  | none => rfl
  | some v => cases ps.mapM Prod.snd <;> rfl

include hclose hpad in
/-- Items are read one after the other; where one is none, the whole sequence is none. -/
theorem readSequence_join {ps : List (Text × Option α)} (h : ∀ p ∈ ps, ReadsItem item p) {n : Nat}
    (hn : ps.length < n) (rest : Text) :
    readSequence close item n (join ", " (ps.map Prod.fst) ++ (pad ++ close :: rest)) =
      (ps.mapM Prod.snd).map (·, rest) := by
  induction ps generalizing n with
  | nil =>
    obtain ⟨n, rfl⟩ := Nat.exists_eq_succ_of_ne_zero (Nat.ne_of_gt hn)
    change readSequence close item (n + 1) (pad ++ close :: rest) = some ([], rest)
    rw [readSequence, skipSpace_append hpad, skipSpace_of_solid (isSpace_close hclose)]
    simp
  | cons p ps ih =>
    obtain ⟨n, rfl⟩ := Nat.exists_eq_succ_of_ne_zero (Nat.ne_of_gt (Nat.zero_lt_of_lt hn))
    have hp := h p List.mem_cons_self
    cases ps with
    | nil =>
      rw [List.map_singleton, join, List.intercalate_singleton,
        readSequence_item hclose hp (ends_close hclose hpad rest)]
      simp only [readMore_close hclose hpad, mapM_snd_cons, List.mapM_nil]
      cases p.2 <;> rfl
    | cons q ps =>
      have hmore := ih (fun p hp ↦ h p (List.mem_cons_of_mem _ hp)) (Nat.lt_of_succ_lt_succ hn)
      have hcomma : join ", " ((p :: q :: ps).map Prod.fst) ++ (pad ++ close :: rest) =
          p.1 ++ ',' :: ' ' :: (join ", " ((q :: ps).map Prod.fst) ++ (pad ++ close :: rest)) := by
        rw [List.map_cons, join_cons _ _ (by simp)]
        simp
      rw [hcomma, readSequence_item hclose hp (ends_cons rfl _)]
      simp only [readMore_comma hclose, readSequence_space, hmore]
      rw [mapM_snd_cons p]
      cases p.2 with
      | none => rfl
      | some v => cases (q :: ps).mapM Prod.snd <;> rfl

end Sequence

section Values

def Reads (t : Text) (v : Option LiteralValue) : Prop :=
  Begins t ∧ ∀ n rest, t.length ≤ n → Ends rest → readValue (n + 1) (t ++ rest) = v.map (·, rest)

theorem Reads.readLiteral_eq {t : Text} {v : Option LiteralValue} (h : Reads t v) :
    readLiteral t = v := by
  have hread := h.2 t.length [] (Nat.le_refl _) nofun
  rw [List.append_nil] at hread
  rw [readLiteral, hread]
  cases v <;> rfl

theorem readValue_quote (n : Nat) (r : Text) : readValue (n + 1) ('"' :: r) =
    (readQuoted r).toOption.map fun p ↦ (.string (units (foldLines p.1)), p.2) := rfl

theorem readValue_bracket (n : Nat) (r : Text) : readValue (n + 1) ('[' :: r) =
    (readSequence ']' (readValue n) n r).map fun p ↦ (.array p.1, p.2) := rfl

theorem readValue_brace (n : Nat) (r : Text) : readValue (n + 1) ('{' :: r) =
    (readSequence '}' (readEntry (readValue n)) n r).map fun p ↦ (.hash p.1, p.2) := rfl

theorem readValue_minus (n : Nat) (r : Text) :
    readValue (n + 1) ('-' :: r) = readNegative (skipSpace r) := rfl

theorem readValue_word {c : Char} (hc : isPart c = true) (hminus : c ≠ '-') (n : Nat) (r : Text) :
    readValue (n + 1) (c :: r) = readWord (c :: r) := by
  rw [readValue, skipSpace_of_solid (isSpace_of_isPart hc)]
  split
  next heq =>
    cases heq
    cases hc
  next heq =>
    cases heq
    cases hc
  next heq =>
    cases heq
    cases hc
  next heq =>
    cases heq
    exact absurd rfl hminus
  next => rfl

def contentUnits? (w : Text) : Option (List Nat) :=
  if Interpolates w then none else some (units (foldLines w))

theorem contentUnits?_eq_some {w : Text} {u : List Nat} :
    contentUnits? w = some u ↔ ¬Interpolates w ∧ units (foldLines w) = u := by
  rw [contentUnits?, Option.ite_none_left_eq_some, Option.some.injEq]

theorem reads_quoted (w : Text) : Reads (quoted w) ((contentUnits? w).map .string) := by
  refine ⟨⟨'"', escape w ++ ['"'], rfl, rfl, by decide, by decide⟩, fun n rest _ _ ↦ ?_⟩
  have htext : quoted w ++ rest = '"' :: (escape w ++ '"' :: rest) := by simp [quoted]
  rw [htext, readValue_quote, readQuoted_escape, contentUnits?]
  split <;> rfl

theorem takeWhile_isPart {t rest : Text} (ht : ∀ c ∈ t, isPart c = true) (hrest : Ends rest) :
    (t ++ rest).takeWhile isPart = t ∧ (t ++ rest).dropWhile isPart = rest := by
  have hstop : rest.takeWhile isPart = [] ∧ rest.dropWhile isPart = rest := by
    cases rest with
    | nil => exact ⟨rfl, rfl⟩
    | cons c r => simp [hrest c rfl]
  rw [List.takeWhile_append_of_pos ht, List.dropWhile_append_of_pos ht, hstop.1, hstop.2]
  exact ⟨List.append_nil t, rfl⟩

theorem reads_word {c : Char} {t : Text} (ht : ∀ d ∈ c :: t, isPart d = true) (hc : c ≠ '-') :
    Reads (c :: t) (wordValue? (c :: t)) := by
  have hpart := ht c List.mem_cons_self
  constructor
  · refine ⟨c, t, rfl, isSpace_of_isPart hpart, ?_, ?_⟩
    · rintro rfl
      cases hpart
    · rintro rfl
      cases hpart
  · intro n rest _ hrest
    obtain ⟨htake, hdrop⟩ := takeWhile_isPart ht hrest
    rw [List.cons_append, readValue_word hpart hc, ← List.cons_append, readWord, htake, hdrop]

theorem begins_minus (t : Text) : Begins ('-' :: t) := ⟨'-', t, rfl, rfl, by decide, by decide⟩

/-- Spaces may stand behind the sign of a numeral. -/
theorem reads_negative {gap t : Text} (hgap : ∀ c ∈ gap, isSpace c = true) (hne : t ≠ [])
    (ht : ∀ c ∈ t, isPart c = true) :
    Reads ('-' :: (gap ++ t)) ((Ruby.number? t).map fun a ↦ .number a.neg) := by
  refine ⟨begins_minus _, fun n rest _ hrest ↦ ?_⟩
  obtain ⟨htake, hdrop⟩ := takeWhile_isPart ht hrest
  have hskip : skipSpace (t ++ rest) = t ++ rest := by
    obtain ⟨c, t, rfl⟩ := List.exists_cons_of_ne_nil hne
    exact skipSpace_of_solid (isSpace_of_isPart (ht c List.mem_cons_self)) (t ++ rest)
  rw [List.cons_append, readValue_minus, List.append_assoc, skipSpace_append hgap, hskip,
    readNegative, htake, hdrop, Option.map_map]
  rfl

/-- Anything else that stands there is refused. -/
theorem reads_minus_other {gap t : Text} {c : Char} (hgap : ∀ c ∈ gap, isSpace c = true)
    (hspace : isSpace c = false) (hpart : isPart c = false) :
    Reads ('-' :: (gap ++ c :: t)) none := by
  refine ⟨begins_minus _, fun n rest _ _ ↦ ?_⟩
  rw [List.cons_append, readValue_minus, List.append_assoc, skipSpace_append hgap, List.cons_append,
    skipSpace_of_solid hspace, readNegative, List.takeWhile_cons_of_neg (by simp [hpart])]
  rfl

end Values

section Nested

theorem infix_join {t : Text} {ts : List Text} (sep : Text) (h : t ∈ ts) : t <:+: join sep ts := by
  induction ts with
  | nil => cases h
  | cons u ts ih =>
    by_cases hts : ts = []
    · subst hts
      rw [List.mem_singleton.1 h, join, List.intercalate_singleton]
    · rw [join_cons sep u hts]
      rcases List.mem_cons.1 h with rfl | h
      · exact (List.prefix_append t (sep ++ join sep ts)).isInfix.trans (by simp)
      · exact (ih h).trans (List.suffix_append _ _).isInfix

theorem length_le_length_join (sep : Text) {ts : List Text} (h : ∀ t ∈ ts, t ≠ []) :
    ts.length ≤ (join sep ts).length := by
  induction ts with
  | nil => exact Nat.zero_le _
  | cons u ts ih =>
    have hu := List.length_pos_iff.2 (h u List.mem_cons_self)
    have hmore := ih fun t ht ↦ h t (List.mem_cons_of_mem u ht)
    by_cases hts : ts = []
    · subst hts
      rwa [join, List.intercalate_singleton]
    · rw [join_cons sep u hts, List.length_append, List.length_append, List.length_cons]
      omega

theorem Begins.ne_nil {t : Text} (h : Begins t) : t ≠ [] := by
  obtain ⟨c, r, rfl, -⟩ := h
  exact List.cons_ne_nil c r

theorem Reads.readsItem {p : Text × Option LiteralValue} (h : Reads p.1 p.2) {n : Nat}
    (hn : p.1.length < n) : ReadsItem (readValue n) p := by
  obtain ⟨n, rfl⟩ := Nat.exists_eq_succ_of_ne_zero (Nat.ne_of_gt (Nat.zero_lt_of_lt hn))
  exact ⟨h.1, fun rest hrest ↦ h.2 n rest (Nat.le_of_lt_succ hn) hrest⟩

theorem length_lt_of_readsItem {α : Type} {item : Text → Option (α × Text)}
    {ps : List (Text × Option α)} (h : ∀ p ∈ ps, ReadsItem item p) {n : Nat}
    (hn : (join ", " (ps.map Prod.fst)).length < n) : ps.length < n := by
  have hne : ∀ t ∈ ps.map Prod.fst, t ≠ [] := by
    intro t ht
    obtain ⟨p, hp, rfl⟩ := List.mem_map.1 ht
    exact (h p hp).1.ne_nil
  have := length_le_length_join ", " hne
  rw [List.length_map] at this
  exact Nat.lt_of_le_of_lt this hn

/-- An array is read as its items are. -/
theorem reads_array {ps : List (Text × Option LiteralValue)} (h : ∀ p ∈ ps, Reads p.1 p.2) :
    Reads ("[" ++ join ", " (ps.map Prod.fst) ++ "]") ((ps.mapM Prod.snd).map .array) := by
  refine ⟨⟨'[', _, rfl, rfl, by decide, by decide⟩, fun n rest hn _ ↦ ?_⟩
  have hlength : (join ", " (ps.map Prod.fst)).length + 2 ≤ n := by
    have hbrackets : "[".toList.length = 1 ∧ "]".toList.length = 1 := ⟨rfl, rfl⟩
    rw [List.length_append, List.length_append] at hn
    omega
  have hitem : ∀ p ∈ ps, ReadsItem (readValue n) p := by
    intro p hp
    have := (infix_join ", " (List.mem_map_of_mem (f := Prod.fst) hp)).length_le
    exact (h p hp).readsItem (by omega)
  have htext : "[" ++ join ", " (ps.map Prod.fst) ++ "]" ++ rest =
      '[' :: (join ", " (ps.map Prod.fst) ++ ([] ++ ']' :: rest)) := by
    simp
  rw [htext, readValue_bracket, readSequence_join (.inl rfl) (List.forall_mem_nil _) hitem
    (length_lt_of_readsItem hitem (by omega)) rest]
  cases ps.mapM Prod.snd <;> rfl

theorem isLabelPart_of_isIdentifierContinue {c : Char} (h : isIdentifierContinue c = true) :
    isLabelPart c = true := by
  simp only [isLabelPart, Bool.or_eq_true, beq_iff_eq, decide_eq_true_eq]
  by_cases hc : c.toNat < 128
  · simp only [isIdentifierContinue, hc, if_true, Bool.or_eq_true, beq_iff_eq] at h
    exact .inl h
  · exact .inr (Nat.not_lt.1 hc)

theorem isLabelPart_of_isIdentifierStart {c : Char} (h : isIdentifierStart c = true) :
    isLabelPart c = true := by
  simp only [isLabelPart, Bool.or_eq_true, beq_iff_eq, decide_eq_true_eq]
  by_cases hc : c.toNat < 128
  · simp only [isIdentifierStart, hc, if_true, Bool.or_eq_true, beq_iff_eq] at h
    tauto
  · exact .inr (Nat.not_lt.1 hc)

theorem isAsciiDigit_of_isIdentifierStart {c : Char} (h : isIdentifierStart c = true) :
    isAsciiDigit c = false := by
  have habove : 57 < c.toNat := by
    rw [isIdentifierStart] at h
    split at h
    · simp only [isAsciiLetter, isAsciiUpper, isAsciiLower, Bool.or_eq_true, Bool.and_eq_true,
        decide_eq_true_eq, beq_iff_eq] at h
      have hle {a : Char} (ha : a ≤ c) : a.toNat ≤ c.toNat := ha
      rcases h with (h | h) | rfl
      · exact Nat.lt_of_lt_of_le (by decide) (hle h.1)
      · exact Nat.lt_of_lt_of_le (by decide) (hle h.1)
      · decide
    · omega
  have hdigit : ¬c ≤ '9' := fun hle ↦ Nat.not_le.2 habove hle
  simp [isAsciiDigit, hdigit]

def labelText (key : Text) : Text := if isIdentifier key then key else quoted key

theorem isLabelPart_of_isIdentifier {key : Text} (h : isIdentifier key = true) :
    ∀ c ∈ key, isLabelPart c = true := by
  cases key with
  | nil => cases h
  | cons c key =>
    rw [isIdentifier, Bool.and_eq_true, List.all_eq_true] at h
    exact List.forall_mem_cons.2 ⟨isLabelPart_of_isIdentifierStart h.1,
      fun d hd ↦ isLabelPart_of_isIdentifierContinue (h.2 d hd)⟩

theorem isSpace_of_isLabelPart {c : Char} (h : isLabelPart c = true) : isSpace c = false := by
  simp only [isLabelPart, Bool.or_eq_true, decide_eq_true_eq] at h
  rcases h with h | h
  · apply isSpace_of_isPart
    rcases h with (h | h) | h
    · rw [isPart, h, Bool.or_true, Bool.true_or]
    · rw [isPart, h, Bool.true_or, Bool.true_or]
    · rw [beq_iff_eq.1 h]
      decide
  · rw [← Bool.not_eq_true]
    intro hspace
    have := toNat_of_isSpace hspace
    omega

theorem readLabel_identifier {key : Text} (h : isIdentifier key = true) (rest : Text) :
    readLabel (key ++ ':' :: rest) = some (units key, rest) := by
  have hparts := isLabelPart_of_isIdentifier h
  have htake : (key ++ ':' :: rest).takeWhile isLabelPart = key := by
    rw [List.takeWhile_append_of_pos hparts, List.takeWhile_cons_of_neg (by decide),
      List.append_nil]
  have hdrop : (key ++ ':' :: rest).dropWhile isLabelPart = ':' :: rest := by
    rw [List.dropWhile_append_of_pos hparts, List.dropWhile_cons_of_neg (by decide)]
  cases key with
  | nil => cases h
  | cons c key =>
    rw [isIdentifier, Bool.and_eq_true] at h
    rw [readLabel]
    · simp only [hdrop, htake]
      simp [isAsciiDigit_of_isIdentifierStart h.1]
    · intro r hr
      rw [(List.cons.inj hr).1] at hparts
      exact absurd (hparts _ List.mem_cons_self) (by decide)

theorem not_interpolates_of_isIdentifier {key : Text} (h : isIdentifier key = true) :
    ¬Interpolates key := by
  rintro ⟨r, hr, -⟩
  exact absurd (isLabelPart_of_isIdentifier h '#' (hr.mem List.mem_cons_self)) (by decide)

theorem readLabel_labelText (key rest : Text) :
    readLabel (labelText key ++ ':' :: rest) = (contentUnits? key).map (·, rest) := by
  rw [labelText, contentUnits?]
  split
  next hkey =>
    have hplain : '\r' ∉ key := fun hmem ↦
      absurd (isLabelPart_of_isIdentifier hkey _ hmem) (by decide)
    rw [readLabel_identifier hkey, if_neg (not_interpolates_of_isIdentifier hkey),
      foldLines_eq_self hplain]
    rfl
  next =>
    have htext : quoted key ++ ':' :: rest = '"' :: (escape key ++ '"' :: ':' :: rest) := by
      simp [quoted]
    rw [htext, readLabel, readQuoted_escape]
    split_ifs <;> rfl

theorem begins_labelText (key t : Text) : Begins (labelText key ++ t) := by
  rw [labelText]
  split
  next h =>
    have hparts := isLabelPart_of_isIdentifier h
    cases key with
    | nil => cases h
    | cons c key =>
      have hpart := hparts c List.mem_cons_self
      refine ⟨c, key ++ t, rfl, isSpace_of_isLabelPart hpart, ?_, ?_⟩
      · rintro rfl
        cases hpart
      · rintro rfl
        cases hpart
  next => exact ⟨'"', _, rfl, rfl, by decide, by decide⟩

/-- An entry of a hash: its key, the text of its value, and what that text is read as. -/
structure Entry where
  key : Text
  text : Text
  value : Option LiteralValue

def Entry.reading (e : Entry) : Text × Option (List Nat × LiteralValue) :=
  (hashPair e.key e.text, (contentUnits? e.key).bind fun key ↦ e.value.map (key, ·))

theorem Entry.readsItem {e : Entry} (h : Reads e.text e.value) {n : Nat}
    (hn : e.reading.1.length < n) : ReadsItem (readEntry (readValue n)) e.reading := by
  have htext (rest : Text) :
      e.reading.1 ++ rest = labelText e.key ++ ':' :: ' ' :: (e.text ++ rest) := by
    simp [Entry.reading, hashPair, labelText]
  constructor
  · rw [← List.append_nil e.reading.1, htext]
    exact begins_labelText _ _
  · intro rest hrest
    have hlength : e.text.length < n := by
      have := congrArg List.length (htext [])
      simp only [List.length_append, List.length_cons] at this
      omega
    have hvalue : readValue n (e.text ++ rest) = e.value.map (·, rest) :=
      (h.readsItem (p := (e.text, e.value)) hlength).2 rest hrest
    rw [htext, readEntry, readLabel_labelText]
    cases hkey : contentUnits? e.key with
    | none => simp [Entry.reading, hkey]
    | some key =>
      simp only [Option.map_some, Option.bind_eq_bind, Option.bind_some, readValue_space, hvalue]
      cases hv : e.value with
      | none => simp [Entry.reading, hv]
      | some v => simp [Entry.reading, hkey, hv]

/-- A hash is read as its entries are. -/
theorem reads_hash {es : List Entry} (h : ∀ e ∈ es, Reads e.text e.value) :
    Reads ("\x7b " ++ join ", " ((es.map Entry.reading).map Prod.fst) ++ " \x7d")
      (((es.map Entry.reading).mapM Prod.snd).map .hash) := by
  refine ⟨⟨'{', _, rfl, rfl, by decide, by decide⟩, fun n rest hn _ ↦ ?_⟩
  have hlength : (join ", " ((es.map Entry.reading).map Prod.fst)).length + 4 ≤ n := by
    have hbraces : "\x7b ".toList.length = 2 ∧ " \x7d".toList.length = 2 := ⟨rfl, rfl⟩
    rw [List.length_append, List.length_append] at hn
    omega
  have hitem : ∀ p ∈ es.map Entry.reading, ReadsItem (readEntry (readValue n)) p := by
    intro p hp
    obtain ⟨e, he, rfl⟩ := List.mem_map.1 hp
    have := (infix_join ", " (List.mem_map_of_mem (f := Prod.fst) hp)).length_le
    exact Entry.readsItem (h e he) (by omega)
  have htext (t : Text) :
      "\x7b " ++ t ++ " \x7d" ++ rest = '{' :: ' ' :: (t ++ ([' '] ++ '}' :: rest)) := by
    simp
  rw [htext, readValue_brace, readSequence_space, readSequence_join (.inr rfl)
    (List.forall_mem_singleton.2 rfl) hitem (length_lt_of_readsItem hitem (by omega)) rest]
  cases (es.map Entry.reading).mapM Prod.snd <;> rfl

theorem reads_emptyHash : Reads "\x7b\x7d" (some (.hash [])) := by
  refine ⟨⟨'{', ['}'], rfl, rfl, by decide, by decide⟩, fun n rest hn _ ↦ ?_⟩
  obtain ⟨n, rfl⟩ := Nat.exists_eq_succ_of_ne_zero (Nat.ne_of_gt (Nat.zero_lt_of_lt hn))
  rfl

end Nested

end Ruby

end ViewForge
