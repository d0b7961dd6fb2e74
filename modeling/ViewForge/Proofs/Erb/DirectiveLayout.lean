import ViewForge.Proofs.Erb.Spacing

namespace ViewForge.Erb

open Text

section Code

variable {a b code w : Text} {c : Char}

theorem quoteAfter_of_concat {q : Option Char} (hq : ∀ d ∈ q, isQuote d = true)
    (hc : isQuote c = false) (h : quoteAfter q (a ++ [c]) = none) : quoteAfter q a = none := by
  fun_induction quoteAfter q a with
  | case1 q =>
    cases q with
    | none => rfl
    | some d =>
      exfalso
      by_cases hslash : c = '\\'
      · rw [hslash] at h
        cases h
      · have hne : (c == d) = false := by
          rw [beq_eq_false_iff_ne]
          rintro rfl
          rw [hq c rfl] at hc
          cases hc
        rw [List.nil_append, quoteAfter_cons_some _ hslash, hne] at h
        cases h
  | case2 q => cases h
  | case3 q d r ih =>
    rw [List.cons_append, List.cons_append, quoteAfter] at h
    exact ih hq h
  | case4 q d r h₁ h₂ ih =>
    have hslash : d ≠ '\\' := by
      cases r with
      | nil => exact fun hd ↦ h₁ hd rfl
      | cons e r => exact fun hd ↦ h₂ e r hd rfl
    rw [List.cons_append, quoteAfter_cons_some _ hslash] at h
    refine ih (fun e he ↦ ?_) h
    split at he
    next => cases he
    next => exact hq e he
  | case5 d r ih =>
    rw [List.cons_append, quoteAfter] at h
    refine ih (fun e he ↦ ?_) h
    split at he
    next hquote =>
      cases he
      exact hquote
    next => cases he

/-- What stands at the end of clean code and is no quote may go. -/
theorem CleanCode.of_append (h : CleanCode (a ++ w)) (hw : ∀ c ∈ w, isQuote c = false) :
    CleanCode a := by
  induction w using List.reverseRecOn with
  | nil => rwa [List.append_nil] at h
  | append_singleton w c ih =>
    rw [List.forall_mem_append, List.forall_mem_singleton] at hw
    rw [← List.append_assoc] at h
    refine ih ⟨fun hin ↦ h.no_close ?_, quoteAfter_of_concat nofun hw.2 h.closed⟩ hw.1
    exact hin.trans (List.prefix_append _ _).isInfix

theorem CleanCode.trimLeft (h : CleanCode code) : CleanCode (code.dropWhile isBlank) where
  no_close := fun hin ↦ h.no_close (hin.trans (List.dropWhile_suffix isBlank).isInfix)
  closed := by
    have hclosed := h.closed
    rw [← List.takeWhile_append_dropWhile (p := isBlank) (l := code)] at hclosed
    have hblank : ∀ c ∈ code.takeWhile isBlank, isBlank c = true :=
      fun c hc ↦ List.mem_takeWhile_imp hc
    rwa [quoteAfter_blank_append _ (by exact nofun) hblank] at hclosed

theorem CleanCode.trimRight (h : CleanCode code) : CleanCode (trimRight isBlank code) := by
  rw [trimRight_eq_rdropWhile]
  rw [← List.rdropWhile_append_rtakeWhile (p := isBlank) (l := code)] at h
  exact h.of_append fun c hc ↦ isQuote_of_isBlank (List.mem_rtakeWhile_imp hc)

theorem CleanCode.strip (h : CleanCode code) : CleanCode (strip code) := h.trimLeft.trimRight

/-- The code of a body without its trim mark, on one line. -/
def lineOfCode (body : Text) : Text := strip (joinLines (bareCode body))

def padded (code : Text) : Text := ' ' :: if code.isEmpty then [] else code ++ [' ']

theorem spacedDirective_eq (marker code : Text) :
    spacedDirective marker code =
      "<%" ++ (if marker == ['-'] then [] else marker) ++ padded (strip (joinLines code)) ++
        "%>" := by
  simp [spacedDirective, padded]

theorem dropLast_append_of_endsWith {t : Text} (h : endsWith t "-" = true) :
    t = t.dropLast ++ ['-'] := by
  obtain ⟨s, rfl⟩ := endsWith_iff.1 h
  exact congrArg (· ++ ['-']) List.dropLast_concat.symm

theorem CleanCode.bareCode (h : CleanCode code) : CleanCode (bareCode code) := by
  rw [Erb.bareCode]
  refine CleanCode.trimRight ?_
  split
  next hdash =>
    have htrim := h.trimLeft
    rw [dropLast_append_of_endsWith hdash] at htrim
    exact htrim.of_append (List.forall_mem_singleton.2 rfl)
  next => exact h.trimLeft

theorem CleanCode.lineOfCode (h : CleanCode code) : CleanCode (lineOfCode code) :=
  (h.bareCode.respaced respaces_joinLines).strip

theorem CleanCode.padded (h : CleanCode code) : CleanCode (padded code) := by
  refine CleanCode.cons (by decide) (by decide) ?_
  split
  · exact ⟨by decide, rfl⟩
  · exact h.append_cons (by decide) (by decide) (by decide) ⟨by decide, rfl⟩

theorem bareCode_isInfix (t : Text) : bareCode t <:+: t := by
  rw [bareCode]
  refine (trimRight_isInfix _).trans ?_
  split
  · exact (List.dropLast_prefix _).isInfix.trans (List.dropWhile_suffix isBlank).isInfix
  · exact (List.dropWhile_suffix isBlank).isInfix

theorem strip_isInfix (t : Text) : strip t <:+: t :=
  (trimRight_isInfix _).trans (List.dropWhile_suffix isBlank).isInfix

theorem no_close_lineOfCode (h : ¬("%>" : Text) <:+: code) :
    ¬("%>" : Text) <:+: lineOfCode code := by
  intro hin
  have hjoin := hin.trans (strip_isInfix _)
  have hbare := respaces_joinLines.infix_of_infix (ink_eq_self_iff.1 rfl) hjoin
  exact h (hbare.trans (bareCode_isInfix code))

theorem no_close_padded (h : ¬("%>" : Text) <:+: code) : ¬("%>" : Text) <:+: padded code := by
  intro hin
  rw [padded] at hin
  split at hin
  · exact absurd hin (by decide)
  · rcases infix_append_cons (a := []) (by decide) hin with hin | hin
    · exact absurd hin (by decide)
    · rcases infix_append_cons (by decide) hin with hin | hin
      · exact h hin
      · exact absurd hin (by decide)

theorem not_mem_lineOfCode (body : Text) : '\n' ∉ lineOfCode body :=
  fun h ↦ not_mem_joinLines _ ((strip_isInfix _).subset h)

theorem solidLast_lineOfCode (body : Text) : SolidLast (lineOfCode body) :=
  solidLast_trimRight _

theorem solidHead_lineOfCode (body : Text) : SolidHead (lineOfCode body) := by
  intro c hc
  refine solidHead_trimLeft (joinLines (bareCode body)) c ?_
  rw [lineOfCode, strip, trim, trimLeft, trimRight_eq_rdropWhile] at hc
  obtain ⟨s, hs⟩ := List.rdropWhile_prefix isBlank ((joinLines (bareCode body)).dropWhile isBlank)
  rw [← hs, List.head?_append, hc]
  rfl

/-- Code on one line, between single spaces, stays as it is. -/
theorem lineOfCode_padded (hbreak : '\n' ∉ code) (hhead : SolidHead code)
    (hlast : SolidLast code) : lineOfCode (padded code) = code := by
  have hbare : bareCode (padded code) = code := by
    cases code with
    | nil => rfl
    | cons c r =>
      have hc : ¬isBlank c = true := Bool.eq_false_iff.1 (hhead c rfl)
      have hdrop : (padded (c :: r)).dropWhile isBlank = c :: r ++ [' '] := by
        change (' ' :: (c :: r ++ [' '])).dropWhile isBlank = _
        rw [List.dropWhile_cons_of_pos (by decide), List.cons_append,
          List.dropWhile_cons_of_neg hc]
      have hend : ¬endsWith (c :: r ++ [' ']) "-" = true := by simp [endsWith]
      rw [bareCode]
      simp only [hdrop, if_neg hend]
      rw [trimRight_append_blank _ (ink_eq_nil_iff.1 rfl), trimRight_eq_self_iff.2 hlast]
  have htrim : code.dropWhile isBlank = code := by
    cases code with
    | nil => rfl
    | cons c r => exact List.dropWhile_cons_of_neg (Bool.eq_false_iff.1 (hhead c rfl))
  rw [lineOfCode, hbare, joinLines_eq_self hbreak, strip, trim, trimLeft, htrim,
    trimRight_eq_self_iff.2 hlast]

theorem lineOfCode_padded_lineOfCode (body : Text) :
    lineOfCode (padded (lineOfCode body)) = lineOfCode body :=
  lineOfCode_padded (not_mem_lineOfCode body) (solidHead_lineOfCode body)
    (solidLast_lineOfCode body)

theorem bareCode_eq_strip (h : code.getLast? ≠ some '-') : bareCode code = strip code := by
  have hdash : ¬endsWith (code.dropWhile isBlank) "-" = true := by
    intro hend
    have hsuffix := (endsWith_iff.1 hend).trans (List.dropWhile_suffix isBlank)
    obtain ⟨s, rfl⟩ := hsuffix
    exact h List.getLast?_concat
  rw [bareCode, if_neg hdash]
  rfl

/-- Only a trim mark at the end of the code is lost when it is laid out. -/
theorem ink_lineOfCode (h : code.getLast? ≠ some '-') : ink (lineOfCode code) = ink code := by
  rw [lineOfCode, ink_strip, respaces_joinLines.ink_eq, bareCode_eq_strip h, ink_strip]

theorem ink_padded (code : Text) : ink (padded code) = ink code := by
  rw [padded, ink_cons_of_blank (by decide)]
  split
  next hempty => rw [List.isEmpty_iff.1 hempty]
  next => rw [ink_append, show ink [' '] = [] from rfl, List.append_nil]

theorem not_mem_padded (h : '\n' ∉ code) : '\n' ∉ padded code := by
  rw [padded]
  split
  · decide
  · simp [h]

end Code

def respelled (body : Text) : Text :=
  spacedDirective (marked formatMarkers body).1 (marked formatMarkers body).2

def directiveMarker : TokenKind → Text
  | .output => "="
  | .comment => "#"
  | _ => []

def laidDirective (kind : TokenKind) (code : Text) : Text :=
  "<%" ++ directiveMarker kind ++ padded (lineOfCode code) ++ "%>"

section Directive

variable {kind : TokenKind} {body code d : Text}

theorem normalizeDirective_eq (body : Text) :
    normalizeDirective ("<%" ++ body ++ "%>") = respelled body := by
  have hend : endsWith ("<%" ++ body ++ "%>") "%>" = true :=
    endsWith_iff.2 (List.suffix_append _ _)
  have hlen : ("<%" ++ body ++ "%>" : Text).length = body.length + 4 := by simp
  have htake : (("<%" ++ body ++ "%>" : Text).drop 2).take (body.length + 4 - 4) = body :=
    List.take_left
  have hbody : wholeBody? ("<%" ++ body ++ "%>") = some body := by
    rw [wholeBody?, hend, hlen, htake]
    simp [startsDirective, startsWith]
  rw [normalizeDirective, hbody, respelled]

theorem respelled_output (code : Text) : respelled ('=' :: code) = laidDirective .output code := by
  have hmarked : marked formatMarkers ('=' :: code) = (['='], bareCode code) := rfl
  rw [respelled, hmarked, spacedDirective_eq]
  rfl

theorem respelled_comment (code : Text) :
    respelled ('#' :: code) = laidDirective .comment code := by
  have hmarked : marked formatMarkers ('#' :: code) = (['#'], bareCode code) := rfl
  rw [respelled, hmarked, spacedDirective_eq]
  rfl

theorem respelled_trimmed (code : Text) : respelled ('-' :: code) = laidDirective .code code := by
  have hmarked : marked formatMarkers ('-' :: code) = (['-'], bareCode code) := rfl
  rw [respelled, hmarked, spacedDirective_eq]
  rfl

theorem respelled_code (hequals : code.head? ≠ some '=') (hhash : code.head? ≠ some '#')
    (hdash : code.head? ≠ some '-') : respelled code = laidDirective .code code := by
  have hmarked : marked formatMarkers code = ([], bareCode code) := by
    cases code with
    | nil => rfl
    | cons c r =>
      have hc : ¬formatMarkers.contains c = true := by
        simp only [formatMarkers, String.reduceToList, List.contains_cons, List.contains_nil,
          Bool.or_eq_true, beq_iff_eq, Bool.or_false]
        rintro (rfl | rfl | rfl)
        · exact hequals rfl
        · exact hhash rfl
        · exact hdash rfl
      rw [marked, if_neg hc]
  rw [respelled, hmarked, spacedDirective_eq]
  rfl

theorem respelled_padded (kind : TokenKind) (code : Text) :
    respelled (directiveMarker kind ++ padded (lineOfCode code)) = laidDirective kind code := by
  have hagain (kind : TokenKind) :
      laidDirective kind (padded (lineOfCode code)) = laidDirective kind code := by
    rw [laidDirective, lineOfCode_padded_lineOfCode, ← laidDirective]
  cases kind with
  | output => exact (respelled_output _).trans (hagain .output)
  | comment => exact (respelled_comment _).trans (hagain .comment)
  | text | openTag | closeTag | htmlComment | code =>
    have hcode : respelled (padded (lineOfCode code)) = _ := respelled_code nofun nofun nofun
    exact hcode.trans (hagain .code)

theorem normalizeDirective_laidDirective (kind : TokenKind) (code : Text) :
    normalizeDirective (laidDirective kind code) = laidDirective kind code := by
  have hshape : laidDirective kind code =
      "<%" ++ (directiveMarker kind ++ padded (lineOfCode code)) ++ "%>" := by
    rw [laidDirective, List.append_assoc "<%".toList]
  nth_rewrite 1 [hshape]
  rw [normalizeDirective_eq, respelled_padded]

/-- A clean directive is laid out as a clean one of its kind. -/
theorem CleanDirective.exists_laidDirective (h : CleanDirective kind d) :
    ∃ code, normalizeDirective d = laidDirective kind code ∧
      CleanDirective kind (laidDirective kind code) := by
  cases h with
  | code body hb hequals hhash =>
    have hclean (code : Text) (hc : CleanCode code) :
        CleanDirective .code (laidDirective .code code) :=
      .code _ hc.lineOfCode.padded nofun nofun
    rw [normalizeDirective_eq]
    by_cases hdash : body.head? = some '-'
    · obtain ⟨code, rfl⟩ := List.head?_eq_some_iff.1 hdash
      refine ⟨code, respelled_trimmed code, hclean code ⟨fun hin ↦ hb.no_close ?_, hb.closed⟩⟩
      exact hin.trans (List.suffix_cons '-' code).isInfix
    · exact ⟨body, respelled_code hequals hhash hdash, hclean body hb⟩
  | output body hb =>
    exact ⟨body, (normalizeDirective_eq ('=' :: body)).trans (respelled_output body),
      .output _ hb.lineOfCode.padded⟩
  | comment body hb =>
    exact ⟨body, (normalizeDirective_eq ('#' :: body)).trans (respelled_comment body),
      .comment _ (no_close_padded (no_close_lineOfCode hb))⟩

theorem squeezes_laidDirective (kind : TokenKind) (code : Text) :
    Squeezes (laidDirective kind code) (laidDirective kind code) where
  head _ := solidHead_cons _ (by decide)
  last := by
    have hshape : laidDirective kind code =
        "<%" ++ directiveMarker kind ++ padded (lineOfCode code) ++ "%" ++ ['>'] := by
      simp [laidDirective]
    rw [hshape]
    exact solidLast_concat _ (by decide)
  eq := by
    have hcode := not_mem_padded (not_mem_lineOfCode code)
    refine squeeze_eq_self ?_
    cases kind <;> simp [laidDirective, directiveMarker, hcode]

theorem ink_laidDirective (h : code.getLast? ≠ some '-') :
    ink (laidDirective kind code) = "<%" ++ ink (directiveMarker kind ++ code) ++ "%>" := by
  rw [laidDirective, ink_append, ink_append, ink_append, ink_padded, ink_lineOfCode h, ink_append,
    List.append_assoc "<%".toList]
  rfl

theorem getLast?_of_cons {c d : Char} {t : Text} (h : (c :: t).getLast? ≠ some d) :
    t.getLast? ≠ some d := by
  cases t with
  | nil => exact nofun
  | cons e t => rwa [List.getLast?_cons_cons] at h

/-- Without trim marks the layout of a directive changes only white space. -/
theorem ink_respelled (hhead : body.head? ≠ some '-') (hlast : body.getLast? ≠ some '-') :
    ink (respelled body) = "<%" ++ ink body ++ "%>" := by
  by_cases hequals : body.head? = some '='
  · obtain ⟨code, rfl⟩ := List.head?_eq_some_iff.1 hequals
    rw [respelled_output, ink_laidDirective (getLast?_of_cons hlast)]
    rfl
  by_cases hhash : body.head? = some '#'
  · obtain ⟨code, rfl⟩ := List.head?_eq_some_iff.1 hhash
    rw [respelled_comment, ink_laidDirective (getLast?_of_cons hlast)]
    rfl
  rw [respelled_code hequals hhash hhead, ink_laidDirective hlast]
  rfl

end Directive

end ViewForge.Erb
