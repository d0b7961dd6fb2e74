import ViewForge.Component.Default
import ViewForge.Proofs.Script.Literals

namespace ViewForge.Script

open Text Source Ruby Numeral

def Key.text : Key → Text
  | .name text => text
  | .string _ body => body

/-- A minus sign and what follows it once the spaces are gone, with what that is read as. -/
def negativeReading (gap text : Text) : Text × Option LiteralValue :=
  ('-' :: (gap ++ text).filter (· != ' '),
    if gap.all isSpace then (Ruby.number? text).map fun a ↦ .number a.neg else none)

mutual

def Literal.reading : Literal → Text × Option LiteralValue
  | .string _ body =>
    (quoted (unescapeQuotes body), (contentUnits? (unescapeQuotes body)).map .string)
  | .numeral text => (text, (Ruby.number? text).map .number)
  | .negative gap text => negativeReading gap text
  | .boolean true => ("true", some (.boolean true))
  | .boolean false => ("false", some (.boolean false))
  | .null | .undefined => ("nil", some .nil)
  | .array items =>
    ("[" ++ join ", " (items.readings.map Prod.fst) ++ "]",
      (items.readings.mapM Prod.snd).map .array)
  | .object pairs =>
    (if pairs.readings.isEmpty then "\x7b\x7d"
      else "\x7b " ++ join ", " ((pairs.readings.map Entry.reading).map Prod.fst) ++ " \x7d",
      ((pairs.readings.map Entry.reading).mapM Prod.snd).map .hash)

def Items.readings : Items → List (Text × Option LiteralValue)
  | .nil => []
  | .hole rest => rest.readings
  | .item first rest => first.reading :: rest.readings

def Pairs.readings : Pairs → List Entry
  | .nil => []
  | .pair key value rest => ⟨key.text, value.reading.1, value.reading.2⟩ :: rest.readings

end

-- The equations that the definition brings are slow to derive: its words are compared by letters.
theorem Literal.reading_string (quote : Delimiter) (body : Text) :
    (Literal.string quote body).reading =
      (quoted (unescapeQuotes body), (contentUnits? (unescapeQuotes body)).map .string) := rfl

theorem Literal.reading_numeral (text : Text) :
    (Literal.numeral text).reading = (text, (Ruby.number? text).map .number) := rfl

theorem Literal.reading_negative (gap text : Text) :
    (Literal.negative gap text).reading = negativeReading gap text := rfl

theorem Literal.reading_array (items : Items) :
    (Literal.array items).reading =
      ("[" ++ join ", " (items.readings.map Prod.fst) ++ "]",
        (items.readings.mapM Prod.snd).map .array) := rfl

theorem Literal.reading_object (pairs : Pairs) :
    (Literal.object pairs).reading =
      ((if pairs.readings.isEmpty then "\x7b\x7d"
          else "\x7b " ++ join ", " ((pairs.readings.map Entry.reading).map Prod.fst) ++ " \x7d" :
            Text),
        ((pairs.readings.map Entry.reading).mapM Prod.snd).map LiteralValue.hash) := rfl

theorem keyName_of_isAt {source : Text} {k : Tree} {key : Key} (h : key.IsAt source k) :
    keyName source k = key.text ∧ (k.kind == .propertyIdentifier || k.kind == .string) = true := by
  cases key with
  | name text =>
    obtain ⟨hkind, htext⟩ := h
    simp [keyName, hkind, htext, Key.text]
  | string quote body =>
    obtain ⟨hkind, htext⟩ := h
    simp [keyName, hkind, htext, Key.text, enclosed, inside]

theorem stringOf?_of_isAt {source body : Text} {quote : Delimiter} {t : Tree}
    (htext : t.textIn source = enclosed quote body)
    (hplain : ∀ c ∈ t.children, c.kind ≠ .substitution) :
    stringOf? source t = some (quoted (unescapeQuotes body)) := by
  have hany : t.children.any (·.kind == .substitution) = false := by
    simpa using hplain
  have hbody : inside (enclosed quote body) = body := by simp [inside, enclosed]
  rw [stringOf?, hany, htext, hbody]
  rfl

theorem negativeOf?_of_isAt {source gap text : Text} {t : Tree}
    (htext : t.textIn source = '-' :: (gap ++ text)) (hparts : t.parts.map Tree.kind = [.number]) :
    negativeOf? source t = some (negativeReading gap text).1 := by
  have hstart : startsWith ('-' :: (gap ++ text)) "-" = true := rfl
  simp only [negativeOf?, htext, hparts, hstart]
  rfl

mutual

theorem Literal.literalOf?_eq {source : Text} :
    ∀ (l : Literal) (t : Tree), l.IsAt source t → literalOf? source t = some l.reading.1
  | .string quote body, t, h => by
    obtain ⟨hkind, htext, hplain⟩ := h
    have hstring := stringOf?_of_isAt htext hplain
    rw [literalOf?]
    simp only [hkind]
    cases quote <;> exact hstring
  | .numeral text, t, h => by
    rw [literalOf?]
    simp only [h.1, h.2, Literal.reading_numeral]
  | .negative gap text, t, h => by
    rw [literalOf?]
    simp only [h.1]
    exact negativeOf?_of_isAt h.2.1 h.2.2
  | .boolean value, t, h => by
    rw [Literal.IsAt] at h
    rw [literalOf?]
    cases value <;> simp only [h] <;> rfl
  | .null, t, h => by
    rw [Literal.IsAt] at h
    rw [literalOf?]
    simp only [h]
    rfl
  | .undefined, t, h => by
    rw [Literal.IsAt] at h
    rw [literalOf?]
    simp only [h]
    rfl
  | .array items, t, h => by
    have hitems := Items.itemsOf?_eq items t.unwrapped.parts h.2
    rw [literalOf?]
    simp only [h.1, hitems]
    rfl
  | .object pairs, t, h => by
    have hpairs := Pairs.pairsOf?_eq pairs t.unwrapped.parts h.2
    rw [literalOf?]
    simp only [h.1, hpairs, Option.map_some, Literal.reading_object, List.isEmpty_map]

theorem Items.itemsOf?_eq {source : Text} :
    ∀ (items : Items) (ts : List Tree), items.AreAt source ts →
      itemsOf? source ts = some (items.readings.map Prod.fst)
  | .nil, ts, h => by
    rw [Items.AreAt] at h
    rw [h, itemsOf?]
    rfl
  | .hole rest, ts, h => Items.itemsOf?_eq rest ts h
  | .item first rest, ts, h => by
    obtain ⟨t, us, rfl, hfirst, hrest⟩ := h
    rw [itemsOf?, Literal.literalOf?_eq first t hfirst, Items.itemsOf?_eq rest us hrest]
    rfl

theorem Pairs.pairsOf?_eq {source : Text} :
    ∀ (pairs : Pairs) (ts : List Tree), pairs.AreAt source ts →
      pairsOf? source ts = some ((pairs.readings.map Entry.reading).map Prod.fst)
  | .nil, ts, h => by
    rw [Pairs.AreAt] at h
    rw [h, pairsOf?]
    rfl
  | .pair key value rest, ts, h => by
    obtain ⟨t, us, k, v, rfl, hkind, hk, hv, hkey, hvalue, hrest⟩ := h
    obtain ⟨hname, hkeyed⟩ := keyName_of_isAt hkey
    have hliteral := Literal.literalOf?_eq value v hvalue
    have hmore := Pairs.pairsOf?_eq rest us hrest
    rw [pairsOf?]
    split
    next key' value' hk' hv' =>
      obtain rfl : k = key' := Option.some.inj (hk.symm.trans hk')
      obtain rfl : v = value' := Option.some.inj (hv.symm.trans hv')
      simp only [hkind, hkeyed, hliteral, hmore, hname]
      rfl
    next hnone => exact absurd hv (hnone k v hk)

end

theorem gapLength_cons {c : Char} {r : Text} (h : gapLength .code (c :: r) = (c :: r).length) :
    c = '/' ∨ (isGap c = true ∧ gapLength .code r = r.length) := by
  unfold gapLength at h
  split at h
  next heq => cases heq
  next heq => exact .inl (List.cons.inj heq).1
  next heq => exact .inl (List.cons.inj heq).1
  next heq =>
    cases heq
    split at h
    next hgap => exact .inr ⟨hgap, Nat.succ.inj h⟩
    next => cases h
  next hmode _ => cases hmode
  next hmode _ => cases hmode
  next hmode _ => cases hmode

theorem isPart_of_isGap {c : Char} (h : c = '/' ∨ isGap c = true) : isPart c = false := by
  rcases h with rfl | h
  · decide
  · rw [← Bool.not_eq_true]
    intro hpart
    obtain ⟨hlow, hhigh⟩ := toNat_of_isPart hpart
    simp only [isGap, isBlank, Bool.or_eq_true, Bool.and_eq_true, decide_eq_true_eq,
      beq_iff_eq] at h
    omega

/-- What stands between a sign and its numeral is blank, or something comes first that is no part of
a numeral. -/
theorem gap_cases {gap : Text} (h : gapLength .code gap = gap.length) :
    gap.all isSpace = true ∨ gap.all isSpace = false ∧
      ∃ blank c r, gap.filter (· != ' ') = blank ++ c :: r ∧ (∀ d ∈ blank, isSpace d = true) ∧
        isSpace c = false ∧ isPart c = false := by
  induction gap with
  | nil => exact .inl rfl
  | cons c gap ih =>
    cases hc : isSpace c with
    | false =>
      have hne : (c != ' ') = true := by
        rw [bne_iff_ne]
        rintro rfl
        cases hc
      refine .inr ⟨by simp [hc], [], c, gap.filter (· != ' '), ?_, List.forall_mem_nil _, hc, ?_⟩
      · rw [List.filter_cons, if_pos hne]
        rfl
      · exact isPart_of_isGap ((gapLength_cons h).imp_right And.left)
    | true =>
      have hslash : c ≠ '/' := by
        rintro rfl
        cases hc
      have hrest := ((gapLength_cons h).resolve_left hslash).2
      rcases ih hrest with hall | ⟨hall, blank, d, r, hfilter, hblank, hd⟩
      · exact .inl (by simp [hc, hall])
      · refine .inr ⟨by simp [hc, hall], ?_⟩
        by_cases hne : (c != ' ') = true
        · refine ⟨c :: blank, d, r, ?_, List.forall_mem_cons.2 ⟨hc, hblank⟩, hd⟩
          rw [List.filter_cons, if_pos hne, hfilter]
          rfl
        · refine ⟨blank, d, r, ?_, hblank, hd⟩
          rw [List.filter_cons, if_neg hne, hfilter]

theorem reads_negativeReading {gap text : Text} {a : Amount}
    (hgap : gapLength .code gap = gap.length) (h : number? text = some a) :
    Reads (negativeReading gap text).1 (negativeReading gap text).2 := by
  have hparts := isPart_of_number? h
  have hne : text ≠ [] := by
    rintro rfl
    cases h
  have htext : text.filter (· != ' ') = text := by
    refine List.filter_eq_self.2 fun c hc ↦ ?_
    rw [bne_iff_ne]
    rintro rfl
    cases hparts _ hc
  rw [negativeReading, List.filter_append, htext]
  rcases gap_cases hgap with hall | ⟨hall, blank, c, r, hfilter, hblank, hc, hpart⟩
  · rw [hall]
    refine reads_negative (fun c hc ↦ ?_) hne hparts
    exact List.all_eq_true.1 hall c (List.mem_of_mem_filter hc)
  · rw [hall, hfilter, List.append_assoc]
    exact reads_minus_other hblank hc hpart

theorem reads_numeral {text : Text} {a : Amount} (h : number? text = some a) :
    Reads text ((Ruby.number? text).map .number) := by
  have hne {w : Text} (hw : number? w = none) : (text == w) = false := by
    refine beq_false_of_ne ?_
    rintro rfl
    rw [hw] at h
    cases h
  have hword : wordValue? text = (Ruby.number? text).map .number := by
    rw [wordValue?, hne (by decide), hne (by decide), hne (by decide)]
    rfl
  rw [← hword]
  have hparts := isPart_of_number? h
  cases text with
  | nil => cases h
  | cons c text =>
    refine reads_word hparts ?_
    rintro rfl
    rw [number?_minus] at h
    cases h

theorem reads_object {es : List Entry} (h : ∀ e ∈ es, Reads e.text e.value) :
    Reads (if es.isEmpty then "\x7b\x7d"
        else "\x7b " ++ join ", " ((es.map Entry.reading).map Prod.fst) ++ " \x7d")
      (((es.map Entry.reading).mapM Prod.snd).map .hash) := by
  cases es with
  | nil => exact reads_emptyHash
  | cons e es => exact reads_hash h

mutual

theorem Literal.reads : ∀ (l : Literal) {v : LiteralValue}, l.value? = some v →
    Reads l.reading.1 l.reading.2
  | .string quote body, _, _ => reads_quoted (unescapeQuotes body)
  | .numeral text, v, h => by
    obtain ⟨a, ha, -⟩ := Option.map_eq_some_iff.1 h
    exact reads_numeral ha
  | .negative gap text, v, h => by
    rw [Literal.value?, Option.ite_none_right_eq_some] at h
    obtain ⟨hgap, h⟩ := h
    obtain ⟨a, ha, -⟩ := Option.map_eq_some_iff.1 h
    exact reads_negativeReading hgap ha
  | .boolean true, _, _ => reads_word (t := "rue") (List.all_eq_true.1 (by decide)) (by decide)
  | .boolean false, _, _ => reads_word (t := "alse") (List.all_eq_true.1 (by decide)) (by decide)
  | .null, _, _ => reads_word (t := "il") (List.all_eq_true.1 (by decide)) (by decide)
  | .undefined, _, _ => reads_word (t := "il") (List.all_eq_true.1 (by decide)) (by decide)
  | .array items, v, h => by
    obtain ⟨vs, hvs, -⟩ := Option.map_eq_some_iff.1 h
    exact reads_array (items.reads hvs)
  | .object pairs, v, h => by
    obtain ⟨es, hes, -⟩ := Option.map_eq_some_iff.1 h
    exact reads_object (pairs.reads hes)

theorem Items.reads : ∀ (items : Items) {vs : List LiteralValue}, items.values? = some vs →
    ∀ p ∈ items.readings, Reads p.1 p.2
  | .nil, _, _ => List.forall_mem_nil _
  | .hole rest, vs, h => by
    obtain ⟨ws, hws, -⟩ := Option.map_eq_some_iff.1 h
    exact rest.reads hws
  | .item first rest, vs, h => by
    obtain ⟨v, hv, h⟩ := Option.bind_eq_some_iff.1 h
    obtain ⟨ws, hws, -⟩ := Option.map_eq_some_iff.1 h
    exact List.forall_mem_cons.2 ⟨first.reads hv, rest.reads hws⟩

theorem Pairs.reads : ∀ (pairs : Pairs) {es : List (List Nat × LiteralValue)},
    pairs.entries? = some es → ∀ e ∈ pairs.readings, Reads e.text e.value
  | .nil, _, _ => List.forall_mem_nil _
  | .pair key value rest, es, h => by
    obtain ⟨k, hk, h⟩ := Option.bind_eq_some_iff.1 h
    obtain ⟨v, hv, h⟩ := Option.bind_eq_some_iff.1 h
    obtain ⟨fs, hfs, -⟩ := Option.map_eq_some_iff.1 h
    exact List.forall_mem_cons.2 ⟨value.reads hv, rest.reads hfs⟩

end

end ViewForge.Script
