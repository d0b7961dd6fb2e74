import ViewForge.Proofs.Component.DefaultTexts
import ViewForge.Proofs.Script.Unescaping

namespace ViewForge.Script

open Text Source Ruby Numeral

def quoteEscapes : List (Char × Char) :=
  [('\'', '\''), ('"', '"'), (Char.ofNat 96, Char.ofNat 96)]

/-- A key without escapes and interpolations that names a property of its own. -/
def Key.Faithful (key : Key) : Prop :=
  '\\' ∉ key.text ∧ ¬Interpolates key.text ∧ units key.text ≠ prototypeKey

mutual

def Literal.Faithful : Literal → Prop
  | .string _ body =>
    isMeantBy (quoteEscapes.lookup ·) body = true ∧ ¬Interpolates (unescapeQuotes body)
  | .numeral text => Portable text
  | .negative gap text => gap.all isSpace = true ∧ Portable text
  | .boolean _ | .null | .undefined => True
  | .array items => items.Faithful
  | .object pairs => pairs.Faithful

def Items.Faithful : Items → Prop
  | .nil => True
  | .hole _ => False
  | .item first rest => first.Faithful ∧ rest.Faithful

def Pairs.Faithful : Pairs → Prop
  | .nil => True
  | .pair key value rest => key.Faithful ∧ value.Faithful ∧ rest.Faithful

end

theorem unescapeQuotes_eq (t : Text) : unescapeQuotes t = unescapeBy (quoteEscapes.lookup ·) t :=
  foldl_replace_eq quoteEscapes (by decide) (by decide) t

theorem quoteEscapes_sound : Sound (quoteEscapes.lookup ·) := by
  refine sound_lookup fun p hp ↦ ?_
  simp only [quoteEscapes, List.mem_cons, List.not_mem_nil, or_false] at hp
  rcases hp with rfl | rfl | rfl <;> exact ⟨by decide, by decide, fun r ↦ rfl⟩

theorem quoteEscapes_lineEnd (c : Char) : quoteEscapes.lookup c ≠ some '\r' := by
  intro hc
  have hall : ∀ p ∈ quoteEscapes, p.2 ≠ '\r' := by decide
  exact hall _ (mem_of_lookup hc) rfl

theorem mem_quoted {c : Char} {w : Text} (h : c ∈ w) : c ∈ quoted w := by
  suffices c ∈ Ruby.escape w by simp [quoted, this]
  induction w with
  | nil => cases h
  | cons d w ih =>
    rw [escape_cons]
    rcases List.mem_cons.1 h with rfl | h
    · split <;> simp
    · split <;> simp [ih h]

theorem contentUnits?_of_faithful {quote : Delimiter} {body : Text} {u : List Nat}
    (h : meaning? quote body = some u) (hl : (Literal.string quote body).Faithful) :
    contentUnits? (unescapeQuotes body) = some u := by
  obtain ⟨hescapes, hplain⟩ := hl
  have hbreak : '\r' ∉ unescapeQuotes body := by
    rw [unescapeQuotes_eq]
    exact quoteEscapes_sound.not_mem_lineEnd quoteEscapes_lineEnd hescapes
  rw [contentUnits?_eq_some, foldLines_eq_self hbreak]
  refine ⟨hplain, ?_⟩
  rw [unescapeQuotes_eq]
  exact (quoteEscapes_sound.units_unescapeBy_eq_iff h).2 hescapes

theorem faithful_of_contentUnits? {quote : Delimiter} {body : Text} {u : List Nat}
    (h : meaning? quote body = some u) (hbreak : '\r' ∉ quoted (unescapeQuotes body))
    (hu : contentUnits? (unescapeQuotes body) = some u) : (Literal.string quote body).Faithful := by
  obtain ⟨hplain, hunits⟩ := contentUnits?_eq_some.1 hu
  rw [foldLines_eq_self fun hmem ↦ hbreak (mem_quoted hmem), unescapeQuotes_eq] at hunits
  exact ⟨(quoteEscapes_sound.units_unescapeBy_eq_iff h).1 hunits, hplain⟩

theorem Key.exists_meaning? {key : Key} {k : List Nat} (h : key.name? = some k) :
    ∃ quote, quote ≠ .backtick ∧ meaning? quote key.text = some k := by
  cases key with
  | name text => exact ⟨.apostrophe, by decide, h⟩
  | string quote body =>
    cases quote with
    | apostrophe => exact ⟨.apostrophe, by decide, h⟩
    | quotation => exact ⟨.quotation, by decide, h⟩
    | backtick => cases h

theorem Key.units_text {key : Key} {k : List Nat} (h : key.name? = some k)
    (hslash : '\\' ∉ key.text) :
    units key.text = k ∧ '\r' ∉ key.text := by
  obtain ⟨quote, hquote, hmeaning⟩ := Key.exists_meaning? h
  have hunits := (units_of_not_mem_slash hquote hmeaning hslash).symm
  exact ⟨hunits, (not_mem_of_units_eq hmeaning hunits).2⟩

theorem Key.Faithful.contentUnits?_eq {key : Key} {k : List Nat} (hkey : key.Faithful)
    (h : key.name? = some k) : contentUnits? key.text = some k ∧ k ≠ prototypeKey := by
  obtain ⟨hslash, hplain, hown⟩ := hkey
  obtain ⟨hunits, hbreak⟩ := Key.units_text h hslash
  rw [contentUnits?_eq_some, foldLines_eq_self hbreak, ← hunits]
  exact ⟨⟨hplain, rfl⟩, hown⟩

theorem Key.faithful_of_contentUnits? {key : Key} {k : List Nat} (h : key.name? = some k)
    (hbreak : '\r' ∉ key.text) (hlabel : contentUnits? key.text = some k)
    (hown : k ≠ prototypeKey) : key.Faithful := by
  obtain ⟨quote, -, hmeaning⟩ := Key.exists_meaning? h
  rw [contentUnits?_eq_some, foldLines_eq_self hbreak] at hlabel
  obtain ⟨hplain, hunits⟩ := hlabel
  refine ⟨(not_mem_of_units_eq hmeaning hunits).1, hplain, ?_⟩
  rwa [hunits]

theorem length_of_mapM_snd {α β : Type} {ps : List (β × Option α)} {vs : List α}
    (h : ps.mapM Prod.snd = some vs) : vs.length = ps.length := by
  induction ps generalizing vs with
  | nil =>
    cases h
    rfl
  | cons p ps ih =>
    rw [mapM_snd_cons] at h
    obtain ⟨v, -, h⟩ := Option.bind_eq_some_iff.1 h
    obtain ⟨ws, hws, rfl⟩ := Option.map_eq_some_iff.1 h
    rw [List.length_cons, List.length_cons, ih hws]

/-- A sequence is read as a list just if its first item is read as the head and the others as the
tail. -/
theorem mapM_snd_eq_cons {α β : Type} {p : β × Option α} {ps : List (β × Option α)} {v : α}
    {vs : List α} :
    (p :: ps).mapM Prod.snd = some (v :: vs) ↔ p.2 = some v ∧ ps.mapM Prod.snd = some vs := by
  rw [mapM_snd_cons]
  constructor
  · intro h
    obtain ⟨w, hw, h⟩ := Option.bind_eq_some_iff.1 h
    obtain ⟨ws, hws, heq⟩ := Option.map_eq_some_iff.1 h
    cases heq
    exact ⟨hw, hws⟩
  · rintro ⟨hv, hvs⟩
    rw [hv, hvs]
    rfl

theorem Items.length_readings_le (items : Items) {vs : List LiteralValue}
    (h : items.values? = some vs) : items.readings.length ≤ vs.length := by
  cases items with
  | nil => exact Nat.zero_le _
  | hole rest =>
    obtain ⟨ws, hws, rfl⟩ := Option.map_eq_some_iff.1 h
    exact Nat.le_succ_of_le (rest.length_readings_le hws)
  | item first rest =>
    obtain ⟨v, -, h⟩ := Option.bind_eq_some_iff.1 h
    obtain ⟨ws, hws, rfl⟩ := Option.map_eq_some_iff.1 h
    exact Nat.succ_le_succ (rest.length_readings_le hws)

theorem Pairs.length_le_readings (pairs : Pairs) {es : List (List Nat × LiteralValue)}
    (h : pairs.entries? = some es) : es.length ≤ pairs.readings.length := by
  cases pairs with
  | nil =>
    cases h
    exact Nat.zero_le _
  | pair key value rest =>
    obtain ⟨k, -, h⟩ := Option.bind_eq_some_iff.1 h
    obtain ⟨v, -, h⟩ := Option.bind_eq_some_iff.1 h
    obtain ⟨fs, hfs, rfl⟩ := Option.map_eq_some_iff.1 h
    have hle := rest.length_le_readings hfs
    split
    · exact Nat.le_succ_of_le hle
    · exact Nat.succ_le_succ hle

mutual

theorem Literal.reading_of_faithful : ∀ (l : Literal) {v : LiteralValue}, l.value? = some v →
    l.Faithful → l.reading.2 = some v
  | .string quote body, v, h, hl => by
    obtain ⟨u, hu, rfl⟩ := Option.map_eq_some_iff.1 h
    rw [Literal.reading_string, contentUnits?_of_faithful hu hl]
    rfl
  | .numeral text, v, h, hl => by
    obtain ⟨a, ha, rfl⟩ := Option.map_eq_some_iff.1 h
    rw [Literal.reading_numeral, (number?_eq_iff ha).2 hl]
    rfl
  | .negative gap text, v, h, hl => by
    rw [Literal.value?, Option.ite_none_right_eq_some] at h
    obtain ⟨a, ha, rfl⟩ := Option.map_eq_some_iff.1 h.2
    rw [Literal.reading_negative, negativeReading, hl.1, (number?_eq_iff ha).2 hl.2]
    rfl
  | .boolean true, v, h, _ => h
  | .boolean false, v, h, _ => h
  | .null, v, h, _ => h
  | .undefined, v, h, _ => h
  | .array items, v, h, hl => by
    obtain ⟨vs, hvs, rfl⟩ := Option.map_eq_some_iff.1 h
    rw [Literal.reading_array, items.readings_of_faithful hvs hl]
    rfl
  | .object pairs, v, h, hl => by
    obtain ⟨es, hes, rfl⟩ := Option.map_eq_some_iff.1 h
    rw [Literal.reading_object, pairs.readings_of_faithful hes hl]
    rfl

theorem Items.readings_of_faithful : ∀ (items : Items) {vs : List LiteralValue},
    items.values? = some vs → items.Faithful → items.readings.mapM Prod.snd = some vs
  | .nil, vs, h, _ => h
  | .hole rest, vs, _, hl => hl.elim
  | .item first rest, vs, h, hl => by
    obtain ⟨v, hv, h⟩ := Option.bind_eq_some_iff.1 h
    obtain ⟨ws, hws, rfl⟩ := Option.map_eq_some_iff.1 h
    exact mapM_snd_eq_cons.2
      ⟨first.reading_of_faithful hv hl.1, rest.readings_of_faithful hws hl.2⟩

theorem Pairs.readings_of_faithful : ∀ (pairs : Pairs) {es : List (List Nat × LiteralValue)},
    pairs.entries? = some es → pairs.Faithful →
      (pairs.readings.map Entry.reading).mapM Prod.snd = some es
  | .nil, es, h, _ => h
  | .pair key value rest, es, h, hl => by
    obtain ⟨k, hk, h⟩ := Option.bind_eq_some_iff.1 h
    obtain ⟨v, hv, h⟩ := Option.bind_eq_some_iff.1 h
    obtain ⟨fs, hfs, rfl⟩ := Option.map_eq_some_iff.1 h
    obtain ⟨hlabel, hown⟩ := hl.1.contentUnits?_eq hk
    rw [if_neg hown]
    refine mapM_snd_eq_cons.2 ⟨?_, rest.readings_of_faithful hfs hl.2.2⟩
    have hvalue := value.reading_of_faithful hv hl.2.1
    simp [Entry.reading, hlabel, hvalue]

end

theorem neg_injective {a b : Amount} (h : a.neg = b.neg) : a = b := by
  cases a <;> cases b <;> simp_all [Amount.neg]

theorem not_mem_hashPair {c : Char} {key value : Text} (h : c ∉ hashPair key value) :
    c ∉ key ∧ c ∉ value := by
  rw [hashPair, List.mem_append, List.mem_append, not_or, not_or] at h
  refine ⟨fun hkey ↦ h.1.1 ?_, h.2⟩
  split
  · exact hkey
  · exact mem_quoted hkey

mutual

theorem Literal.faithful_of_reading : ∀ (l : Literal) {v : LiteralValue}, l.value? = some v →
    '\r' ∉ l.reading.1 → l.reading.2 = some v → l.Faithful
  | .string quote body, v, h, hbreak, hv => by
    obtain ⟨u, hu, rfl⟩ := Option.map_eq_some_iff.1 h
    obtain ⟨w, hw, heq⟩ := Option.map_eq_some_iff.1 hv
    cases heq
    exact faithful_of_contentUnits? hu hbreak hw
  | .numeral text, v, h, _, hv => by
    obtain ⟨a, ha, rfl⟩ := Option.map_eq_some_iff.1 h
    obtain ⟨b, hb, heq⟩ := Option.map_eq_some_iff.1 hv
    cases heq
    exact (number?_eq_iff ha).1 hb
  | .negative gap text, v, h, _, hv => by
    rw [Literal.value?, Option.ite_none_right_eq_some] at h
    obtain ⟨a, ha, rfl⟩ := Option.map_eq_some_iff.1 h.2
    rw [Literal.reading_negative, negativeReading, Option.ite_none_right_eq_some] at hv
    obtain ⟨b, hb, heq⟩ := Option.map_eq_some_iff.1 hv.2
    rw [neg_injective (LiteralValue.number.inj heq)] at hb
    exact ⟨hv.1, (number?_eq_iff ha).1 hb⟩
  | .boolean _, _, _, _, _ => trivial
  | .null, _, _, _, _ => trivial
  | .undefined, _, _, _, _ => trivial
  | .array items, v, h, hbreak, hv => by
    obtain ⟨vs, hvs, rfl⟩ := Option.map_eq_some_iff.1 h
    obtain ⟨ws, hws, heq⟩ := Option.map_eq_some_iff.1 hv
    cases heq
    refine items.faithful_of_readings hvs (fun p hp hmem ↦ hbreak ?_) hws
    have hjoin := (infix_join ", " (List.mem_map_of_mem (f := Prod.fst) hp)).subset hmem
    exact List.mem_append_left _ (List.mem_append_right _ hjoin)
  | .object pairs, v, h, hbreak, hv => by
    obtain ⟨es, hes, rfl⟩ := Option.map_eq_some_iff.1 h
    obtain ⟨fs, hfs, heq⟩ := Option.map_eq_some_iff.1 hv
    cases heq
    refine pairs.faithful_of_readings hes (fun p hp hmem ↦ hbreak ?_) hfs
    have hjoin := (infix_join ", " (List.mem_map_of_mem (f := Prod.fst) hp)).subset hmem
    have hne : pairs.readings.isEmpty = false := by
      rw [List.isEmpty_eq_false_iff]
      intro hnil
      rw [hnil] at hp
      cases hp
    rw [Literal.reading_object, hne]
    exact List.mem_append_left _ (List.mem_append_right _ hjoin)

theorem Items.faithful_of_readings : ∀ (items : Items) {vs : List LiteralValue},
    items.values? = some vs → (∀ p ∈ items.readings, '\r' ∉ p.1) →
      items.readings.mapM Prod.snd = some vs → items.Faithful
  | .nil, _, _, _, _ => trivial
  | .hole rest, vs, h, _, hvs => by
    -- Fewer items are read than the array has.
    obtain ⟨ws, hws, rfl⟩ := Option.map_eq_some_iff.1 h
    have hle := rest.length_readings_le hws
    have hlength := length_of_mapM_snd hvs
    rw [Items.readings, List.length_cons] at hlength
    omega
  | .item first rest, vs, h, hbreak, hvs => by
    obtain ⟨v, hv, h⟩ := Option.bind_eq_some_iff.1 h
    obtain ⟨ws, hws, rfl⟩ := Option.map_eq_some_iff.1 h
    obtain ⟨hfirst, hrest⟩ := List.forall_mem_cons.1 hbreak
    obtain ⟨hread, hmore⟩ := mapM_snd_eq_cons.1 hvs
    exact ⟨first.faithful_of_reading hv hfirst hread, rest.faithful_of_readings hws hrest hmore⟩

theorem Pairs.faithful_of_readings : ∀ (pairs : Pairs) {es : List (List Nat × LiteralValue)},
    pairs.entries? = some es → (∀ p ∈ pairs.readings.map Entry.reading, '\r' ∉ p.1) →
      (pairs.readings.map Entry.reading).mapM Prod.snd = some es → pairs.Faithful
  | .nil, _, _, _, _ => trivial
  | .pair key value rest, es, h, hbreak, hes => by
    obtain ⟨k, hk, h⟩ := Option.bind_eq_some_iff.1 h
    obtain ⟨v, hv, h⟩ := Option.bind_eq_some_iff.1 h
    obtain ⟨fs, hfs, rfl⟩ := Option.map_eq_some_iff.1 h
    have hown : k ≠ prototypeKey := by
      -- More entries are read than the object has.
      intro hproto
      have hle := rest.length_le_readings hfs
      have hlength := length_of_mapM_snd hes
      rw [if_pos hproto, List.length_map, Pairs.readings, List.length_cons] at hlength
      omega
    rw [if_neg hown] at hes
    obtain ⟨hentry, hmore⟩ := mapM_snd_eq_cons.1 hes
    obtain ⟨hfirst, hrest⟩ := List.forall_mem_cons.1 hbreak
    obtain ⟨hkey, hvalue⟩ := not_mem_hashPair hfirst
    obtain ⟨name, hname, hentry⟩ := Option.bind_eq_some_iff.1 hentry
    obtain ⟨w, hw, heq⟩ := Option.map_eq_some_iff.1 hentry
    cases heq
    exact ⟨Key.faithful_of_contentUnits? hk hkey hname hown, value.faithful_of_reading hv hvalue hw,
      rest.faithful_of_readings hfs hrest hmore⟩

end

/-- A literal in a source has a Ruby text, which is read as the value of the literal if the literal
is faithful, and only then, unless the text has carriage returns: Ruby drops some of them. -/
theorem readLiteral_literalOf?_iff {source : Text} {l : Literal} {t : Tree} {v : LiteralValue}
    (h : l.IsAt source t) (hv : l.value? = some v) :
    ∃ text, literalOf? source t = some text ∧ (l.Faithful → readLiteral text = some v) ∧
      ('\r' ∉ text → readLiteral text = some v → l.Faithful) := by
  have hread := (l.reads hv).readLiteral_eq
  refine ⟨l.reading.1, l.literalOf?_eq t h, ?_, ?_⟩
  · rw [hread]
    exact l.reading_of_faithful hv
  · rw [hread]
    exact l.faithful_of_reading hv

def sizesSource : Text := "\x7b on: true, sizes: [- 2, 'it\\'s'] \x7d"

def sizesTree : Tree :=
  .node .object .none 0 35
    [.node .pair .none 2 10
      [.node .propertyIdentifier .key 2 4 [], .node .trueWord .value 6 10 []],
     .node .pair .none 12 33
      [.node .propertyIdentifier .key 12 17 [],
       .node .array .value 19 33
        [.node .unary .none 20 23 [.node .number .none 22 23 []], .node .string .none 25 32 []]]]

def sizesLiteral : Literal :=
  .object (.pair (.name "on") (.boolean true)
    (.pair (.name "sizes")
      (.array (.item (.negative " " "2") (.item (.string .apostrophe "it\\'s") .nil))) .nil))

def sizesValue : LiteralValue :=
  .hash [(units "on", .boolean true),
    (units "sizes", .array [.number (.finite (-(2 : Nat))), .string (units "it's")])]

theorem number?_two : number? "2" = some (.finite (2 : Nat)) ∧ Portable "2" := by
  have hdouble : nearestDouble (2 : Nat) = .finite (2 : Nat) := nearestDouble_natCast (by decide)
  exact ⟨congrArg some hdouble, hdouble⟩

theorem readLiteral_literalOf?_iff_sizes :
    ∃ text, literalOf? sizesSource sizesTree = some text ∧ readLiteral text = some sizesValue := by
  have hvalue : sizesLiteral.value? = some sizesValue := by
    simp only [sizesLiteral, Literal.value?, Pairs.entries?, Items.values?, number?_two.1]
    rfl
  have hfaithful : sizesLiteral.Faithful := by
    have hon : (Key.name "on").Faithful := ⟨by decide, by decide, by decide⟩
    have hsizes : (Key.name "sizes").Faithful := ⟨by decide, by decide, by decide⟩
    have hstring : (Literal.string .apostrophe "it\\'s").Faithful := ⟨by decide, by decide⟩
    exact ⟨hon, trivial, hsizes, ⟨⟨rfl, number?_two.2⟩, hstring, trivial⟩, trivial⟩
  have hat : sizesLiteral.IsAt sizesSource sizesTree := by
    have hitems : (Items.item (.negative " " "2") (.item (.string .apostrophe "it\\'s") .nil)).AreAt
        sizesSource [.node .unary .none 20 23 [.node .number .none 22 23 []],
          .node .string .none 25 32 []] :=
      ⟨_, _, rfl, ⟨rfl, rfl, rfl⟩, _, _, rfl, ⟨rfl, rfl, nofun⟩, rfl⟩
    exact ⟨rfl, _, _, _, _, rfl, rfl, rfl, rfl, ⟨rfl, rfl⟩, rfl,
      _, _, _, _, rfl, rfl, rfl, rfl, ⟨rfl, rfl⟩, ⟨rfl, hitems⟩, rfl⟩
  obtain ⟨text, htext, hread, -⟩ := readLiteral_literalOf?_iff hat hvalue
  exact ⟨text, htext, hread hfaithful⟩

/-- A fraction without its zero is no numeral of Ruby, and an escape of a line feed is taken for two
characters. -/
theorem readLiteral_bareFraction_lineFeed :
    number? ".5" = some (.finite (1 / 2)) ∧
    literalOf? ".5" (.node .number .none 0 2 []) = some ".5" ∧ readLiteral ".5" = none ∧
    meaning? .apostrophe "a\\nb" = some (units "a\nb") ∧
    literalOf? "'a\\nb'" (.node .string .none 0 6 []) = some "\"a\\\\nb\"" ∧
    readLiteral "\"a\\\\nb\"" = some (.string (units "a\\nb")) := by
  refine ⟨by decide +kernel, ?_, by rfl, by decide, ?_, by rfl⟩
  · rw [literalOf?]
    rfl
  · rw [literalOf?]
    rfl

end ViewForge.Script
