import ViewForge.Proofs.Erb.AttributeLayout
import ViewForge.Proofs.Erb.DirectiveLayout
import ViewForge.Proofs.Erb.Lines
import ViewForge.Proofs.Markup.Attributes
import ViewForge.Proofs.Text.References
import ViewForge.Markup.Render
import ViewForge.Template.Reference

namespace ViewForge.Template

open Text Erb Markup

/-- Code as it stands in a directive: without white space around it, without a directive in it. -/
structure IsDirectiveCode (code : Text) : Prop where
  stripped : strip code = code
  no_open : ¬("<%" : Text) <:+: code
  no_close : ¬("%>" : Text) <:+: code

abbrev Outputs := List (Text × Text)

def outputsText (rest : Outputs) : Text :=
  rest.flatMap fun p ↦ outputDirective p.1 ++ attributeText p.2

/-- The code of a directive that has nothing but white space around it. -/
def alone? (first : Text) : Outputs → Option Text
  | [p] =>
    if isBlankText (attributeText first) && isBlankText (attributeText p.2) then some p.1 else none
  | _ => none

/-- The inside of a double-quoted literal with the texts and, between them, the codes. -/
def interpolated (first : Text) (rest : Outputs) : Text :=
  Ruby.escape (unescape first) ++
    rest.flatMap fun p ↦ ("#\x7b" ++ p.1 ++ '}' :: Ruby.escape (unescape p.2) : Text)

section Inert

theorem quote_not_mem (t : Text) : '"' ∉ attributeText t :=
  fun h ↦ absurd (List.all_eq_true.1 (isQuotable_attributeText t) _ h) (by decide)

theorem open_not_mem (t : Text) : '<' ∉ attributeText t :=
  fun h ↦ absurd (List.all_eq_true.1 (isQuotable_attributeText t) _ h) (by decide)

theorem close_not_mem_escapeAttributeChar (c : Char) : '>' ∉ escapeAttributeChar c := by
  unfold escapeAttributeChar escapeChar
  split
  · decide
  next =>
    split
    · decide
    · split
      · decide
      next =>
        split
        · decide
        next hclose =>
          rw [List.mem_singleton]
          rintro rfl
          exact hclose rfl

theorem close_not_mem (t : Text) : '>' ∉ attributeText t := by
  rw [attributeText, List.mem_flatMap]
  rintro ⟨c, -, hc⟩
  exact close_not_mem_escapeAttributeChar c hc

theorem attributeText_attributeText (t : Text) :
    attributeText (attributeText t) = attributeText t := by
  rw [attributeText, unescape_attributeText, attributeText]

end Inert

section Chunks

variable {p r : Text} {rest : Outputs}

def plainChunk (t : Text) : List Chunk := if t.isEmpty then [] else [.plain t]

theorem chunks_plain_append (hp : '<' ∉ p) (hr : ∀ t, (chunks r).head? ≠ some (.plain t)) :
    chunks (p ++ r) = plainChunk p ++ chunks r := by
  induction p with
  | nil => rfl
  | cons c p ih =>
    rw [List.mem_cons, not_or] at hp
    rw [List.cons_append, chunks_cons (not_startsDirective_of_ne _ (Ne.symm hp.1)), ih hp.2]
    cases p with
    | cons d p => rfl
    | nil =>
      cases hchunks : chunks r with
      | nil => rfl
      | cons chunk chunks =>
        cases chunk with
        | plain t => exact absurd (by rw [hchunks]; rfl) (hr t)
        | directive body => rfl

theorem outputsText_cons (p : Text × Text) (rest : Outputs) :
    outputsText (p :: rest) = outputDirective p.1 ++ (attributeText p.2 ++ outputsText rest) := by
  simp [outputsText]

theorem chunks_output {code : Text} (h : IsDirectiveCode code) (r : Text) :
    chunks (outputDirective code ++ r) = .directive ("= " ++ code ++ " ") :: chunks r := by
  have hclose : ¬("%>" : Text) <:+: "= " ++ code ++ " " := by
    intro hin
    have hshape : ("= " ++ code ++ " " : Text) = ['='] ++ ' ' :: (code ++ ' ' :: []) := by simp
    rw [hshape] at hin
    rcases infix_append_cons (by decide) hin with hin | hin
    · exact absurd hin (by decide)
    rcases infix_append_cons (by decide) hin with hin | hin
    · exact h.no_close hin
    · exact absurd hin (by decide)
  have hshape : outputDirective code = "<%" ++ ("= " ++ code ++ " ") ++ "%>" := by
    simp [outputDirective]
  rw [hshape]
  exact chunks_directive r hclose

theorem head?_chunks_outputs (h : ∀ p ∈ rest, IsDirectiveCode p.1) (t : Text) :
    (chunks (outputsText rest)).head? ≠ some (.plain t) := by
  cases rest with
  | nil => exact nofun
  | cons p rest =>
    rw [outputsText_cons, chunks_output (h p List.mem_cons_self)]
    exact fun heq ↦ by cases Option.some.inj heq

/-- A value is cut where it was put together. -/
theorem chunks_outputs (first : Text) (h : ∀ p ∈ rest, IsDirectiveCode p.1) :
    chunks (attributeText first ++ outputsText rest) = plainChunk (attributeText first) ++
      rest.flatMap fun p ↦ .directive ("= " ++ p.1 ++ " ") :: plainChunk (attributeText p.2) := by
  rw [chunks_plain_append (open_not_mem first) (head?_chunks_outputs h)]
  congr 1
  induction rest with
  | nil => rfl
  | cons p rest ih =>
    rw [List.forall_mem_cons] at h
    rw [outputsText_cons, chunks_output h.1,
      chunks_plain_append (open_not_mem p.2) (head?_chunks_outputs h.2), ih h.2]
    rfl

end Chunks

section Whole

variable {code first value a b d m : Text} {rest : Outputs}

/-- Behind the space after a code there is no trim mark to drop. -/
theorem IsDirectiveCode.bareCode_eq (h : IsDirectiveCode code) :
    bareCode (' ' :: (code ++ [' '])) = code := by
  have hlast : (' ' :: (code ++ [' '])).getLast? ≠ some '-' := by
    rw [← List.cons_append, List.getLast?_concat]
    decide
  have hblank : ∀ c ∈ [' '], isBlank c = true := List.forall_mem_singleton.2 rfl
  rw [bareCode_eq_strip hlast, strip_cons_blank rfl, strip_append_blank code hblank, h.stripped]

theorem IsDirectiveCode.marked_eq (h : IsDirectiveCode code) :
    marked codeMarkers ("= " ++ code ++ " ") = (['='], code) :=
  congrArg (['='], ·) h.bareCode_eq

theorem infix_strip {p t : Text} (hne : p ≠ []) (hp : p.all (!isBlank ·) = true)
    (h : p <:+: t) : p <:+: strip t := by
  replace hp : ∀ c ∈ p, isBlank c = false := by simpa using hp
  have hblank : ∀ c ∈ t.takeWhile isBlank, isBlank c = true := fun c ↦ List.mem_takeWhile_imp
  rw [← List.takeWhile_append_dropWhile (p := isBlank) (l := t)] at h
  obtain ⟨s, u, hs⟩ := Respaces.infix_of_blank_append hp hne hblank h
  have hlast : SolidLast (s ++ p) :=
    SolidLast.of_ne_nil s (fun c hc ↦ hp c (List.mem_of_getLast? hc)) hne
  have hstrip : strip t = s ++ p ++ trimRight isBlank u := by
    rw [strip, trim, trimLeft, ← hs, trimRight_append_solidLast u hlast]
  exact ⟨s, _, hstrip.symm⟩

theorem dropWhile_eq_nil_iff : a.dropWhile isBlank = [] ↔ isBlankText a = true := by
  rw [List.dropWhile_eq_nil_iff, isBlankText, List.all_eq_true]

theorem strip_append_solid (hne : d ≠ []) (hhead : SolidHead d) (hlast : SolidLast d) :
    strip (a ++ d ++ b) = a.dropWhile isBlank ++ d ++ trimRight isBlank b := by
  have hhead' : SolidHead (d ++ b) := by
    obtain ⟨c, d, rfl⟩ := List.exists_cons_of_ne_nil hne
    exact solidHead_cons _ (hhead c rfl)
  have hleft : (a ++ (d ++ b)).dropWhile isBlank = a.dropWhile isBlank ++ (d ++ b) := by
    obtain ⟨c, d, rfl⟩ := List.exists_cons_of_ne_nil hne
    rw [List.dropWhile_append, List.cons_append,
      List.dropWhile_cons_of_neg (by simp [hhead c rfl])]
    split
    next hnil => rw [List.isEmpty_iff.1 hnil, List.nil_append]
    next => rfl
  rw [strip, trim, trimLeft, List.append_assoc, hleft, ← List.append_assoc,
    trimRight_append_solidLast b (SolidLast.of_ne_nil _ hlast hne)]

theorem wholeOutput?_of_strip (h : strip value = "<%=" ++ m ++ "%>") :
    wholeOutput? value = if occursIn "<%" (bareCode m) then none else some (bareCode m) := by
  have hstart : startsWith (strip value) "<%=" = true := by
    rw [h, List.append_assoc, startsWith_iff]
    exact List.prefix_append _ _
  have hend : endsWith (strip value) "%>" = true := by
    rw [h, endsWith_iff]
    exact List.suffix_append _ _
  have hlen : (strip value).length = m.length + 5 := by
    rw [h]
    simp only [List.length_append]
    exact Nat.add_comm 3 _ ▸ rfl
  have hinner : ((strip value).drop 3).take ((strip value).length - 5) = m := by
    rw [hlen, h]
    exact List.take_left
  have hcond : (startsWith (strip value) "<%=" && endsWith (strip value) "%>" &&
      decide (5 ≤ (strip value).length)) = true := by
    rw [hstart, hend, hlen, Bool.true_and, Bool.true_and, decide_eq_true_iff]
    exact Nat.le_add_left 5 _
  rw [wholeOutput?]
  simp only [hcond, hinner, if_true]

/-- The directives with the texts between them, cut off the delimiters at both ends. -/
def innerText : Outputs → Text → Text
  | [], code => ' ' :: (code ++ [' '])
  | p :: init, code =>
    ' ' :: p.1 ++ " %>" ++ attributeText p.2 ++ outputsText init ++ "<%= " ++ code ++ [' ']

theorem outputsText_concat (init : Outputs) (code text : Text) :
    outputsText (init ++ [(code, text)]) =
      "<%=" ++ innerText init code ++ "%>" ++ attributeText text := by
  cases init <;> simp [outputsText, innerText, outputDirective]

theorem strip_outputs (first : Text) (init : Outputs) (code text : Text) :
    strip (attributeText first ++ outputsText (init ++ [(code, text)])) =
      (attributeText first).dropWhile isBlank ++ ("<%=" ++ innerText init code ++ "%>") ++
        trimRight isBlank (attributeText text) := by
  have hhead : SolidHead ("<%=" ++ innerText init code ++ "%>") := solidHead_cons _ rfl
  have hlast : SolidLast ("<%=" ++ innerText init code ++ "%>") :=
    SolidLast.of_ne_nil _ (by rintro _ ⟨⟩; rfl) (by decide)
  rw [outputsText_concat, ← List.append_assoc, strip_append_solid (by simp) hhead hlast]

theorem wholeOutput?_eq_none_of_head (h : (strip value).head? ≠ some '<') :
    wholeOutput? value = none := by
  have hstart : startsWith (strip value) "<%=" = false := by
    rw [Bool.eq_false_iff, ne_eq, startsWith_iff]
    rintro ⟨r, hr⟩
    exact h (by rw [← hr]; rfl)
  rw [wholeOutput?]
  simp only [hstart, Bool.false_and, Bool.false_eq_true, if_false]

theorem wholeOutput?_eq_none_of_last (h : (strip value).getLast? ≠ some '>') :
    wholeOutput? value = none := by
  have hend : endsWith (strip value) "%>" = false := by
    rw [Bool.eq_false_iff, ne_eq, endsWith_iff]
    rintro ⟨r, hr⟩
    exact h (by rw [← hr]; exact List.getLast?_append_of_ne_nil r (List.cons_ne_nil '%' ['>']))
  rw [wholeOutput?]
  simp only [hend, Bool.and_false, Bool.false_and, Bool.false_eq_true, if_false]

theorem wholeOutput?_attributeText (t : Text) : wholeOutput? (attributeText t) = none := by
  refine wholeOutput?_eq_none_of_head fun h ↦ open_not_mem t ?_
  exact (strip_isInfix _).subset (List.mem_of_head? h)

/-- A directive with anything but white space before or behind it is not the whole value. -/
theorem wholeOutput?_eq_none_of_text (first : Text) (init : Outputs) (code text : Text)
    (h : ¬(isBlankText (attributeText first) && isBlankText (attributeText text)) = true) :
    wholeOutput? (attributeText first ++ outputsText (init ++ [(code, text)])) = none := by
  by_cases hfirst : isBlankText (attributeText first) = true
  · have hlast : isBlankText (attributeText text) ≠ true := by
      rwa [hfirst, Bool.true_and] at h
    refine wholeOutput?_eq_none_of_last fun hmark ↦ close_not_mem text ?_
    rw [strip_outputs, List.getLast?_append_of_ne_nil _ (mt trimRight_eq_nil_iff.1 hlast)] at hmark
    exact (trimRight_isInfix _).subset (List.mem_of_getLast? hmark)
  · refine wholeOutput?_eq_none_of_head fun hmark ↦ open_not_mem first ?_
    have hne := mt dropWhile_eq_nil_iff.1 hfirst
    rw [strip_outputs, List.append_assoc, List.head?_append_of_ne_nil _ hne] at hmark
    exact (List.dropWhile_suffix isBlank).subset (List.mem_of_head? hmark)

theorem occursIn_innerText (p : Text × Text) (init : Outputs) (code : Text) :
    occursIn "<%" (bareCode (innerText (p :: init) code)) = true := by
  have hlast : (innerText (p :: init) code).getLast? ≠ some '-' := by
    rw [innerText, List.getLast?_concat]
    decide
  have hin : ("<%" : Text) <:+: innerText (p :: init) code :=
    ⟨' ' :: p.1 ++ " %>" ++ attributeText p.2 ++ outputsText init, "= " ++ code ++ [' '],
      by simp [innerText]⟩
  rw [bareCode_eq_strip hlast, occursIn_iff (by decide)]
  exact infix_strip (by decide) (by decide) hin

/-- A value counts as one directive exactly if it is one, with nothing but white space around. -/
theorem wholeOutput?_outputs (first : Text) (h : ∀ p ∈ rest, IsDirectiveCode p.1) :
    wholeOutput? (attributeText first ++ outputsText rest) = alone? first rest := by
  -- The closing delimiter at the end of a value is that of its last directive.
  rcases rest.eq_nil_or_concat' with rfl | ⟨init, ⟨code, text⟩, rfl⟩
  · rw [outputsText, List.flatMap_nil, List.append_nil]
    exact wholeOutput?_attributeText first
  by_cases hblank : (isBlankText (attributeText first) && isBlankText (attributeText text)) = true
  · have hstrip := strip_outputs first init code text
    rw [Bool.and_eq_true] at hblank
    rw [dropWhile_eq_nil_iff.2 hblank.1, trimRight_eq_nil_iff.2 hblank.2, List.nil_append,
      List.append_nil] at hstrip
    rw [wholeOutput?_of_strip hstrip]
    cases init with
    | nil =>
      have hcode : IsDirectiveCode code := h _ List.mem_cons_self
      have hopen : ¬occursIn "<%" code = true := by
        rw [occursIn_iff (by decide)]
        exact hcode.no_open
      rw [innerText, hcode.bareCode_eq, if_neg hopen, List.nil_append, alone?,
        if_pos (by rw [hblank.1, hblank.2]; rfl)]
    | cons p init =>
      rw [if_pos (occursIn_innerText p init code)]
      cases init <;> rfl
  · rw [wholeOutput?_eq_none_of_text first init code text hblank]
    cases init with
    | nil => exact (if_neg hblank).symm
    | cons p init => cases init <;> rfl

end Whole

section Values

variable {rest : Outputs}

theorem flatMap_literalChunk_plainChunk (t : Text) :
    (plainChunk (attributeText t)).flatMap literalChunk = Ruby.escape (unescape t) := by
  rw [← unescape_attributeText t, plainChunk]
  split
  next h =>
    rw [List.isEmpty_iff.1 h]
    rfl
  next => simp [literalChunk]

theorem literal_outputs (first : Text) (h : ∀ p ∈ rest, IsDirectiveCode p.1) :
    (chunks (attributeText first ++ outputsText rest)).flatMap literalChunk =
      interpolated first rest := by
  rw [chunks_outputs first h, List.flatMap_append, flatMap_literalChunk_plainChunk,
    List.flatMap_assoc, interpolated, List.flatMap_def, List.flatMap_def]
  refine congrArg (Ruby.escape (unescape first) ++ List.flatten ·) ?_
  refine List.map_congr_left fun p hp ↦ ?_
  rw [List.flatMap_cons, flatMap_literalChunk_plainChunk, literalChunk, (h p hp).marked_eq]
  simp

theorem attributeText_append (s t : Text) :
    attributeText (attributeText s ++ attributeText t) = attributeText s ++ attributeText t ∧
      unescape (attributeText s ++ attributeText t) = unescape s ++ unescape t := by
  have happend : attributeText s ++ attributeText t =
      (unescape s ++ unescape t).flatMap escapeAttributeChar := List.flatMap_append.symm
  have hread : unescape (attributeText s ++ attributeText t) = unescape s ++ unescape t := by
    rw [happend, unescape_flatMap unescape_escapeAttributeChar]
  refine ⟨?_, hread⟩
  rw [attributeText, hread, happend]

/-- The text of an attribute is inert, written once and for all, and a call takes the text that it
stands for. A value put together from texts and directives is the one directive that stands alone,
or a literal with all of them in their order; texts in a row count as one. -/
theorem rubyValue_attributeText :
    (∀ t : Text, ('"' ∉ attributeText t ∧ '<' ∉ attributeText t ∧ '>' ∉ attributeText t) ∧
      unescape (attributeText t) = unescape t ∧
      attributeText (attributeText t) = attributeText t ∧
      rubyValue (some (attributeText t)) = Ruby.quoted (unescape t)) ∧
    (∀ (first : Text) (rest : Outputs), (∀ p ∈ rest, IsDirectiveCode p.1) →
      rubyValue (some (attributeText first ++ outputsText rest)) =
        (alone? first rest).getD ('"' :: interpolated first rest ++ ['"'])) ∧
    ∀ s t : Text,
      attributeText (attributeText s ++ attributeText t) = attributeText s ++ attributeText t ∧
        unescape (attributeText s ++ attributeText t) = unescape s ++ unescape t := by
  have hvalue (first : Text) (rest : Outputs) (h : ∀ p ∈ rest, IsDirectiveCode p.1) :
      rubyValue (some (attributeText first ++ outputsText rest)) =
        (alone? first rest).getD ('"' :: interpolated first rest ++ ['"']) := by
    rw [rubyValue, wholeOutput?_outputs first h, literal_outputs first h]
    cases alone? first rest <;> rfl
  refine ⟨fun t ↦ ⟨⟨quote_not_mem t, open_not_mem t, close_not_mem t⟩, unescape_attributeText t,
    attributeText_attributeText t, ?_⟩, hvalue, attributeText_append⟩
  have hplain := hvalue t [] nofun
  rw [outputsText, List.flatMap_nil, List.append_nil] at hplain
  rw [hplain, Ruby.quoted]
  simp [interpolated, alone?]

theorem rubyValue_attributeText_twoDirectives :
    rubyValue (some "a &amp;amp; &quot;b&quot; <%= x.y %> &lt; #\x7b<%= f(z) %>") =
      "\"a &amp; \\\"b\\\" #\x7bx.y\x7d < \\#\x7b#\x7bf(z)\x7d\"" := by
  let rest : Outputs := [("x.y", " < #\x7b"), ("f(z)", "")]
  have hcode : ∀ p ∈ rest, IsDirectiveCode p.1 := by
    simp only [rest, List.forall_mem_cons]
    exact ⟨⟨by decide, by decide, by decide⟩, ⟨by decide, by decide, by decide⟩, nofun⟩
  have hvalue := rubyValue_attributeText.2.1 "a &amp;amp; \"b\" " rest hcode
  have hwritten : attributeText "a &amp;amp; \"b\" " ++ outputsText rest =
      "a &amp;amp; &quot;b&quot; <%= x.y %> &lt; #\x7b<%= f(z) %>" := by decide +kernel
  have hliteral : (alone? "a &amp;amp; \"b\" " rest).getD
      ('"' :: interpolated "a &amp;amp; \"b\" " rest ++ ['"']) =
      "\"a &amp; \\\"b\\\" #\x7bx.y\x7d < \\#\x7b#\x7bf(z)\x7d\"" := by decide +kernel
  rw [hwritten, hliteral] at hvalue
  exact hvalue

end Values

end ViewForge.Template
