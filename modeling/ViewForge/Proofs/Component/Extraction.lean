import ViewForge.Component.OfSource
import ViewForge.Proofs.Source.Traversal

namespace ViewForge

open Source

def IsFirst (p : Candidate → Bool) (cs : List Candidate) (c : Candidate) : Prop :=
  ∃ before after, cs = before ++ c :: after ∧ p c = true ∧ ∀ d ∈ before, p d = false

/-- The first candidate with markup and a capital, or the first with markup if none has both. -/
def IsComponentOf (cs : List Candidate) (c : Candidate) : Prop :=
  IsFirst (fun d ↦ d.hasMarkup && d.isCapitalized) cs c ∨
    (∀ d ∈ cs, (d.hasMarkup && d.isCapitalized) = false) ∧ IsFirst Candidate.hasMarkup cs c

variable {p : Candidate → Bool} {cs : List Candidate} {c : Candidate} {parsed : Parsed}

theorem find?_eq_some_iff_isFirst : cs.find? p = some c ↔ IsFirst p cs c := by
  rw [List.find?_eq_some_iff_append, IsFirst]
  constructor
  · rintro ⟨hc, before, after, hsplit, hbefore⟩
    exact ⟨before, after, hsplit, hc, fun d hd ↦ by simpa using hbefore d hd⟩
  · rintro ⟨before, after, hsplit, hc, hbefore⟩
    exact ⟨hc, before, after, hsplit, fun d hd ↦ by simpa using hbefore d hd⟩

theorem find?_eq_none_iff : cs.find? p = none ↔ ∀ d ∈ cs, p d = false := by
  simp only [List.find?_eq_none, Bool.not_eq_true]

theorem Candidate.hasMarkup_iff (c : Candidate) :
    c.hasMarkup = true ↔ c.function.outermostMarkup ≠ [] := by
  rw [Ne, Tree.outermostMarkup_eq_nil_iff, hasMarkup, List.any_eq_true]
  simp only [not_forall, Bool.not_eq_false, exists_prop]

theorem chosenCandidate?_eq (parsed : Parsed) :
    chosenCandidate? parsed =
      ((candidates parsed).find? fun c ↦ c.hasMarkup && c.isCapitalized).or
        ((candidates parsed).find? Candidate.hasMarkup) := by
  rw [chosenCandidate?, List.find?_filter, List.head?_filter]
  simp only [Bool.decide_and, Bool.decide_eq_true]

theorem chosenCandidate?_eq_some_iff :
    chosenCandidate? parsed = some c ↔ IsComponentOf (candidates parsed) c := by
  rw [chosenCandidate?_eq, Option.or_eq_some_iff, find?_eq_some_iff_isFirst, find?_eq_none_iff,
    find?_eq_some_iff_isFirst, IsComponentOf]

theorem chosenCandidate?_eq_none_iff :
    chosenCandidate? parsed = none ↔ ∀ c ∈ candidates parsed, c.hasMarkup = false := by
  rw [chosenCandidate?_eq, Option.or_eq_none_iff, find?_eq_none_iff, find?_eq_none_iff]
  refine ⟨And.right, fun h ↦ ⟨fun c hc ↦ ?_, h⟩⟩
  rw [h c hc, Bool.false_and]

/-- A definition takes its name, its props and its state from the chosen candidate. -/
theorem map_ofParsed? (parsed : Parsed) :
    (Definition.ofParsed? parsed).map (fun d ↦ (d.name, d.props, d.hasState)) =
      (chosenCandidate? parsed).map fun c ↦
        (c.name, (propertiesOf parsed.source c.function).map Prod.fst,
          (hooksOf parsed.source c.function).any stateHooks.contains) := by
  rw [Definition.ofParsed?]
  cases chosenCandidate? parsed <;> rfl

/-- Walking a tree visits all its places in pre-order, each once, and its outermost markup is found
in the same order. So a candidate has markup just if there is outermost markup in its function; a
source without such a candidate has no component, and any other has the first whose name begins with
a capital, or the first. -/
theorem walk_choosesComponent :
    (∀ t : Tree, t.walk = t.preorder ∧ t.walk.map some = t.paths.map t.at? ∧
      t.paths.Pairwise (· < ·) ∧ (∀ path, path ∈ t.paths ↔ (t.at? path).isSome = true) ∧
      t.outermostMarkup.map some = (t.paths.filter t.isOutermostAt).map t.at?) ∧
    (∀ c : Candidate, c.hasMarkup = true ↔ c.function.outermostMarkup ≠ []) ∧
    ∀ parsed : Parsed,
      (Definition.ofParsed? parsed = none ↔ ∀ c ∈ candidates parsed, c.hasMarkup = false) ∧
      (∀ c, chosenCandidate? parsed = some c ↔ IsComponentOf (candidates parsed) c) ∧
      (Definition.ofParsed? parsed).map (fun d ↦ (d.name, d.props, d.hasState)) =
        (chosenCandidate? parsed).map fun c ↦
          (c.name, (propertiesOf parsed.source c.function).map Prod.fst,
            (hooksOf parsed.source c.function).any stateHooks.contains) := by
  refine ⟨fun t ↦ ?_, Candidate.hasMarkup_iff, fun parsed ↦ ?_⟩
  · exact ⟨t.walk_eq_preorder, t.map_at?_paths.symm, t.pairwise_paths,
      fun path ↦ Tree.mem_paths_iff, t.map_at?_outermost.symm⟩
  · refine ⟨?_, fun c ↦ chosenCandidate?_eq_some_iff, map_ofParsed? parsed⟩
    rw [← chosenCandidate?_eq_none_iff, ← Option.map_eq_none_iff, map_ofParsed?,
      Option.map_eq_none_iff]

end ViewForge
