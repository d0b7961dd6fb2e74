import ViewForge.Proofs.Template.AttributeValues

namespace ViewForge.Template

open Text Erb

def between? (first last t : Text) : Option Text :=
  if first <+: t ∧ last <:+ t.drop first.length then
    some ((t.drop first.length).take (t.length - first.length - last.length))
  else none

def IsKeyword (name : Text) : Prop :=
  ∃ c r, name = c :: r ∧ (isAsciiLetter c = true ∨ c = '_') ∧ r.all isWord = true

instance (name : Text) : Decidable (IsKeyword name) :=
  match name with
  | [] => isFalse fun ⟨_, _, h, _⟩ ↦ nomatch h
  | c :: r => decidable_of_iff ((isAsciiLetter c = true ∨ c = '_') ∧ r.all isWord = true)
    ⟨fun h ↦ ⟨c, r, rfl, h⟩, fun ⟨_, _, heq, h⟩ ↦ by cases heq; exact h⟩

def keyword (name : Text) : Text :=
  if name = "class" ∨ name = "className" then "html_class"
  else if IsKeyword name then name
  else Ruby.quoted name

def outputCode? (value : Text) : Option Text := do
  let code ← (between? "<%=" "%>" (strip value)).map bareCode
  if ("<%" : Text) <:+: code then none else some code

def interpolation : Chunk → Text
  | .plain t => Ruby.escape (unescape t)
  | .directive body =>
    let code := if body.head? = some '=' ∨ body.head? = some '#' then body.tail else body
    "#\x7b" ++ bareCode code ++ "\x7d"

def passed : Option Text → Text
  | none => "true"
  | some value =>
    match outputCode? value with
    | some code => code
    | none =>
      if ("<%" : Text) <:+: value then "\"" ++ (chunks value).flatMap interpolation ++ "\""
      else Ruby.quoted (unescape value)

def spread? (directive : Text) : Option Text := do
  let body ← between? "<%=" "%>" directive
  let attributes ← between? "render_attributes(" ")" (strip body)
  return strip attributes

def argument? (a : TagAttribute) : Option Text :=
  if a.isDirective then (spread? a.name).map ("**" ++ ·)
  else some (keyword a.name ++ ": " ++ passed a.value)

def argumentList (arguments : List Text) : Text :=
  if arguments = [] then [] else "(" ++ join ", " arguments ++ ")"

def componentCall (namespacePath name : Text) (attributes : List TagAttribute) : Text :=
  let others := attributes.eraseP (·.name = Markup.componentMarker)
  "render " ++ namespacePath ++ "::" ++ name ++ "Component.new" ++
    argumentList (others.filterMap argument?)

section Between

variable {first last t m : Text}

theorem between?_append (first last m : Text) :
    between? first last (first ++ m ++ last) = some m := by
  have hdrop : (first ++ m ++ last).drop first.length = m ++ last := by
    rw [List.append_assoc, List.drop_left]
  rw [between?, hdrop, if_pos ⟨by rw [List.append_assoc]; exact List.prefix_append _ _,
    List.suffix_append _ _⟩]
  simp

theorem between?_eq_some_iff : between? first last t = some m ↔ t = first ++ m ++ last := by
  constructor
  · intro h
    rw [between?] at h
    split at h
    next hends =>
      obtain ⟨⟨r, rfl⟩, hlast⟩ := hends
      rw [List.drop_left] at hlast h
      obtain ⟨s, rfl⟩ := hlast
      simp at h
      rw [h, List.append_assoc]
    next => cases h
  · rintro rfl
    exact between?_append ..

theorem between?_eq_none (h : ¬∃ m, t = first ++ m ++ last) : between? first last t = none :=
  Option.eq_none_iff_forall_ne_some.2 fun m hm ↦ h ⟨m, between?_eq_some_iff.1 hm⟩

theorem between?_of_lead (lead inner : Text) (c : Char) :
    between? lead [c] (lead ++ inner) =
      if endsWith inner [c] then some inner.dropLast else none := by
  by_cases hlast : ∃ m, inner = m ++ [c]
  · obtain ⟨m, rfl⟩ := hlast
    rw [if_pos (endsWith_iff.2 (List.suffix_append m _)), ← List.append_assoc, between?_append,
      List.dropLast_concat]
  · have hend : ¬endsWith inner [c] = true := by
      rw [endsWith_iff]
      exact fun ⟨m, hm⟩ ↦ hlast ⟨m, hm.symm⟩
    rw [if_neg hend]
    refine between?_eq_none ?_
    rintro ⟨m, hm⟩
    rw [List.append_assoc, List.append_cancel_left_eq] at hm
    exact hlast ⟨m, hm⟩

end Between

theorem isBareKey_iff {name : Text} : isBareKey name = true ↔ IsKeyword name := by
  cases name with
  | nil => simp [isBareKey, IsKeyword]
  | cons c r =>
    have htake : r.takeWhile isWord = r ↔ r.all isWord = true := by
      rw [List.takeWhile_eq_self_iff, List.all_eq_true]
    by_cases hstart : isAsciiLetter c = true ∨ c = '_'
    · simp [isBareKey, plainName, IsKeyword, hstart, htake]
    · simp [isBareKey, plainName, IsKeyword, hstart]

theorem chunks_of_no_open {t : Text} (h : ¬("<%" : Text) <:+: t) : chunks t = plainChunk t := by
  induction t with
  | nil => rfl
  | cons c t ih =>
    have hstart : ¬startsDirective (c :: t) = true := by
      rw [startsDirective, startsWith_iff]
      exact fun hstarts ↦ h hstarts.isInfix
    rw [chunks_cons hstart, ih fun hin ↦ h (hin.trans (List.suffix_cons c t).isInfix)]
    cases t <;> rfl

theorem output_ends_iff {t : Text} :
    (startsWith t "<%=" && endsWith t "%>") = true ↔ ∃ m, t = "<%=" ++ m ++ "%>" := by
  rw [Bool.and_eq_true, startsWith_iff, endsWith_iff]
  constructor
  · rintro ⟨⟨r, rfl⟩, hlast⟩
    have hr : "%>" <:+ r := by
      rcases List.suffix_cons_iff.1 hlast with heq | hlast
      · cases heq
      rcases List.suffix_cons_iff.1 hlast with heq | hlast
      · cases heq
      rcases List.suffix_cons_iff.1 hlast with heq | hlast
      · cases heq
      exact hlast
    obtain ⟨m, rfl⟩ := hr
    exact ⟨m, (List.append_assoc ..).symm⟩
  · rintro ⟨m, rfl⟩
    exact ⟨by rw [List.append_assoc]; exact List.prefix_append _ _, List.suffix_append _ _⟩

theorem wholeOutput?_eq (value : Text) : wholeOutput? value = outputCode? value := by
  rw [wholeOutput?, outputCode?]
  by_cases hshape : ∃ m, strip value = "<%=" ++ m ++ "%>"
  · obtain ⟨m, hm⟩ := hshape
    have hends := output_ends_iff.2 ⟨m, hm⟩
    have hinner : (("<%=" ++ m ++ "%>" : Text).drop 3).take
        (("<%=" ++ m ++ "%>" : Text).length - 5) = m := by simp
    have hlength : 5 ≤ (strip value).length := by simp [hm]
    have hpat : ("<%" : Text) ≠ [] := by decide
    dsimp only
    rw [hends, Bool.true_and, if_pos (decide_eq_true hlength), hm, hinner, between?_append]
    simp only [occursIn_iff hpat]
    rfl
  · have hends : (startsWith (strip value) "<%=" && endsWith (strip value) "%>") = false := by
      rw [← Bool.not_eq_true, output_ends_iff]
      exact hshape
    dsimp only
    rw [hends, Bool.false_and, if_neg Bool.false_ne_true, between?_eq_none hshape]
    rfl

theorem literalChunk_eq (chunk : Chunk) : literalChunk chunk = interpolation chunk := by
  cases chunk with
  | plain t => rfl
  | directive body =>
    cases body with
    | nil => rfl
    | cons c r =>
      by_cases hmarker : c = '=' ∨ c = '#'
      · have hcode : (marked codeMarkers (c :: r)).2 = bareCode r := by
          simp [marked, codeMarkers, hmarker]
        simp [literalChunk, interpolation, hcode, hmarker]
      · have hcode : (marked codeMarkers (c :: r)).2 = bareCode (c :: r) := by
          simp [marked, codeMarkers, hmarker]
        simp [literalChunk, interpolation, hcode, hmarker]

theorem rubyValue_eq (value : Option Text) : rubyValue value = passed value := by
  cases value with
  | none => rfl
  | some t =>
    rw [rubyValue, passed, wholeOutput?_eq]
    cases outputCode? t with
    | some code => rfl
    | none =>
      dsimp only
      split
      · rw [funext literalChunk_eq]
        rfl
      next hplain =>
        rw [chunks_of_no_open hplain]
        cases t with
        | nil => rfl
        | cons c t => simp [plainChunk, literalChunk, Ruby.quoted]

section Spread

theorem prefix_append_iff {p b r : Text} {c : Char} (hc : c ∉ p) : p <+: b ++ c :: r ↔ p <+: b := by
  refine ⟨fun h ↦ ?_, fun h ↦ h.trans (List.prefix_append b _)⟩
  rcases List.prefix_or_prefix_of_prefix h (List.prefix_append b (c :: r)) with hb | ⟨d, rfl⟩
  · exact hb
  · cases d with
    | nil => simp
    | cons e d =>
      obtain ⟨s, hs⟩ := h
      simp only [List.append_assoc, List.append_cancel_left_eq, List.cons_append,
        List.cons.injEq] at hs
      rw [hs.1] at hc
      exact absurd (by simp) hc

def spreadLead : Text := "render_attributes("

theorem spreadArgument?_append (body : Text) :
    spreadArgument? ("<%=" ++ body ++ "%>") =
      (between? spreadLead ")" (strip body)).map strip := by
  have hends := output_ends_iff.2 ⟨body, rfl⟩
  have hcall : (("<%=" ++ body ++ "%>" : Text).drop 3).dropWhile isBlank =
      body.dropWhile isBlank ++ "%>" :=
    dropWhile_append_solid (fun _ h ↦ h) (solidHead_cons _ rfl) body
  have hstrip : strip body = trimRight isBlank (body.dropWhile isBlank) := rfl
  rw [spreadArgument?, hcall, hstrip, if_pos hends]
  generalize body.dropWhile isBlank = call
  dsimp only
  by_cases hlead : spreadLead <+: call
  · obtain ⟨rest, rfl⟩ := hlead
    have hstarts : startsWith (spreadLead ++ rest ++ "%>") "render_attributes(" = true := by
      rw [startsWith_iff, List.append_assoc]
      exact List.prefix_append spreadLead _
    have hinner : (((spreadLead ++ rest ++ "%>").drop
        ("render_attributes(" : Text).length).dropLast).dropLast = rest := by
      have hdrop : (spreadLead ++ (rest ++ "%>")).drop ("render_attributes(" : Text).length =
          rest ++ ['%'] ++ ['>'] := by
        rw [List.append_assoc]
        exact List.drop_left
      rw [List.append_assoc, hdrop, List.dropLast_concat, List.dropLast_concat]
    have hlast : SolidLast spreadLead := solidLast_concat "render_attributes".toList rfl
    rw [hstarts, hinner, trimRight_append_solidLast rest hlast, Bool.true_and]
    generalize trimRight isBlank rest = inner
    have hbetween : between? spreadLead ")" (spreadLead ++ inner) =
        if endsWith inner ")" then some inner.dropLast else none :=
      between?_of_lead spreadLead inner ')'
    rw [hbetween]
    split <;> rfl
  · have hstarts : startsWith (call ++ "%>") "render_attributes(" = false := by
      rw [← Bool.not_eq_true, startsWith_iff]
      exact fun h ↦ hlead ((prefix_append_iff (by decide)).1 h)
    rw [hstarts, Bool.false_and, if_neg Bool.false_ne_true, between?_eq_none]
    · rfl
    · rintro ⟨m, hm⟩
      refine hlead (List.IsPrefix.trans ?_ (trimRight_eq_rdropWhile isBlank call ▸
        List.rdropWhile_prefix _ call))
      rw [hm, List.append_assoc]
      exact List.prefix_append _ _

theorem spreadArgument?_eq (directive : Text) : spreadArgument? directive = spread? directive := by
  by_cases hshape : ∃ body, directive = "<%=" ++ body ++ "%>"
  · obtain ⟨body, rfl⟩ := hshape
    have hlead : between? spreadLead ")" (strip body) =
        between? "render_attributes(" ")" (strip body) := rfl
    rw [spreadArgument?_append, spread?, between?_append, hlead]
    change _ = (between? "render_attributes(" ")" (strip body)).bind fun m ↦ some (strip m)
    cases between? "render_attributes(" ")" (strip body) <;> rfl
  · rw [spread?, between?_eq_none hshape, spreadArgument?,
      if_neg fun h ↦ hshape (output_ends_iff.1 h)]
    rfl

end Spread

theorem rubyArgument?_eq (a : TagAttribute) : rubyArgument? a = argument? a := by
  rw [rubyArgument?, argument?, spreadArgument?_eq, rubyValue_eq]
  have hclass : isBareKey "html_class" = true := by decide
  have hname : (a.name == "class" || a.name == "className") = true ↔
      a.name = "class" ∨ a.name = "className" := by simp
  have hkeyword : (let name : Text :=
      if a.name == "class" || a.name == "className" then "html_class" else a.name
      if isBareKey name then name else Ruby.quoted name) = keyword a.name := by
    dsimp only
    rw [keyword]
    by_cases hclassName : a.name = "class" ∨ a.name = "className"
    · rw [if_pos (hname.2 hclassName), if_pos hclass, if_pos hclassName]
    · rw [if_neg fun h ↦ hclassName (hname.1 h), if_neg hclassName]
      simp only [isBareKey_iff]
  split
  · rfl
  · rw [← hkeyword]

theorem argument_ne_nil (attributes : List TagAttribute) :
    ∀ t ∈ attributes.filterMap argument?, t ≠ [] := by
  intro t ht
  obtain ⟨a, -, ha⟩ := List.mem_filterMap.1 ht
  rw [argument?] at ha
  split at ha
  · obtain ⟨m, -, rfl⟩ := Option.map_eq_some_iff.1 ha
    exact nofun
  · cases ha
    simp

theorem join_eq_nil_iff {sep : Text} {ts : List Text} (h : ∀ t ∈ ts, t ≠ []) :
    join sep ts = [] ↔ ts = [] := by
  cases ts with
  | nil => simp [join]
  | cons t ts =>
    refine iff_of_false (fun hnil ↦ h t List.mem_cons_self ?_) (List.cons_ne_nil t ts)
    cases ts with
    | nil => rwa [join, List.intercalate_singleton] at hnil
    | cons u ts =>
      rw [join, List.intercalate_cons_cons] at hnil
      simp only [List.append_eq_nil_iff] at hnil
      exact hnil.1.1

theorem argumentList_eq {arguments : List Text} (h : ∀ t ∈ arguments, t ≠ []) :
    (if (join ", " arguments).isEmpty then [] else '(' :: join ", " arguments ++ [')']) =
      argumentList arguments := by
  have hempty : (join ", " arguments).isEmpty = true ↔ arguments = [] :=
    List.isEmpty_iff.trans (join_eq_nil_iff h)
  rw [argumentList]
  by_cases hnil : arguments = []
  · rw [if_pos (hempty.2 hnil), if_pos hnil]
  · rw [if_neg fun h ↦ hnil (hempty.1 h), if_neg hnil]
    rfl

/-- The call that takes the place of a marked tag. -/
theorem renderCall_eq (namespacePath name : Text) (tag : Tag) :
    renderCall namespacePath (some name) (tag.erase Markup.componentMarker) =
      componentCall namespacePath name tag.attributes := by
  have hname (marker : Text) :
      (fun a : TagAttribute ↦ a.name == marker) = fun a ↦ decide (a.name = marker) := by
    funext a
    rw [Bool.eq_iff_iff, beq_iff_eq, decide_eq_true_iff]
  have herase : (tag.erase Markup.componentMarker).attributes =
      tag.attributes.eraseP (·.name = Markup.componentMarker) := by
    rw [Tag.erase, hname]
  have harguments : rubyArgument? = argument? := funext rubyArgument?_eq
  unfold renderCall componentCall
  rw [herase, harguments, Option.getD_some]
  dsimp only
  rw [argumentList_eq (argument_ne_nil _)]

end ViewForge.Template
