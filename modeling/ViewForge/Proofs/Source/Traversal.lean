import Mathlib.Data.List.Lex
import ViewForge.Source.Tree

namespace ViewForge.Source.Tree

mutual

def preorder : Tree → List Tree
  | .node kind role start stop children =>
    .node kind role start stop children :: preorderBelow children

def preorderBelow : List Tree → List Tree
  | [] => []
  | t :: rest => t.preorder ++ preorderBelow rest

end

def at? : Tree → List Nat → Option Tree
  | t, [] => some t
  | t, i :: path => t.children[i]?.bind fun c ↦ c.at? path

mutual

def paths : Tree → List (List Nat)
  | .node _ _ _ _ children => [] :: pathsFrom 0 children

def pathsFrom (i : Nat) : List Tree → List (List Nat)
  | [] => []
  | t :: rest => t.paths.map (i :: ·) ++ pathsFrom (i + 1) rest

end

def isMarkupAt (t : Tree) (path : List Nat) : Bool := (t.at? path).any isMarkup

def isOutermostAt (t : Tree) (path : List Nat) : Bool :=
  t.isMarkupAt path && (List.range path.length).all fun n ↦ !t.isMarkupAt (path.take n)

/-- What holds of a tree when it holds of its children holds of every tree. -/
theorem children_induction {motive : Tree → Prop}
    (step : ∀ t, (∀ c ∈ t.children, motive c) → motive t) (t : Tree) : motive t :=
  step t fun c _ ↦ children_induction step c
termination_by t.size
decreasing_by exact size_lt_of_mem_children ‹_›

section Walk

variable {t u : Tree}

theorem preorderBelow_append (ts us : List Tree) :
    preorderBelow (ts ++ us) = preorderBelow ts ++ preorderBelow us := by
  induction ts with
  | nil => rfl
  | cons t ts ih => rw [List.cons_append, preorderBelow, preorderBelow, ih, List.append_assoc]

theorem preorder_eq (t : Tree) : t.preorder = t :: preorderBelow t.children := by
  cases t
  rw [preorder]
  rfl

/-- The trees that are still to be visited stand on the stack in the order in which they come. -/
theorem walkFrom_eq (ts : List Tree) : walkFrom ts = preorderBelow ts := by
  fun_induction walkFrom ts with
  | case1 => rfl
  | case2 t rest ih =>
    rw [ih, preorderBelow_append, preorderBelow, preorder_eq, List.cons_append]

theorem walk_eq_preorder (t : Tree) : t.walk = t.preorder := by
  rw [walk, walkFrom_eq, preorderBelow, preorderBelow, List.append_nil]

theorem preorderBelow_eq_flatMap (ts : List Tree) : preorderBelow ts = ts.flatMap walk := by
  induction ts with
  | nil => rfl
  | cons t ts ih => rw [preorderBelow, ih, ← walk_eq_preorder, List.flatMap_cons]

theorem walk_eq (t : Tree) : t.walk = t :: t.children.flatMap walk := by
  rw [walk_eq_preorder, preorder_eq, preorderBelow_eq_flatMap]

theorem mem_walk : u ∈ t.walk ↔ u = t ∨ ∃ c ∈ t.children, u ∈ c.walk := by
  rw [walk_eq, List.mem_cons, List.mem_flatMap]

theorem self_mem_walk (t : Tree) : t ∈ t.walk := mem_walk.2 (.inl rfl)

theorem mem_walk_of_mem_children (h : u ∈ t.children) : u ∈ t.walk :=
  mem_walk.2 (.inr ⟨u, h, u.self_mem_walk⟩)

theorem mem_walk_trans {v : Tree} (hu : u ∈ t.walk) (hv : v ∈ u.walk) : v ∈ t.walk := by
  induction t using children_induction with
  | step t ih =>
    rcases mem_walk.1 hu with rfl | ⟨c, hc, huc⟩
    · exact hv
    · exact mem_walk.2 (.inr ⟨c, hc, ih c hc huc⟩)

theorem outermostFrom_append (ts us : List Tree) :
    outermostFrom (ts ++ us) = outermostFrom ts ++ outermostFrom us := by
  fun_induction outermostFrom ts with
  | case1 => rfl
  | case2 t rest hmarkup ih =>
    rw [List.cons_append, outermostFrom, if_pos hmarkup, ih, List.cons_append]
  | case3 t rest hmarkup ih =>
    rw [List.cons_append, outermostFrom, if_neg hmarkup, ← List.append_assoc, ih]

theorem outermostFrom_eq_flatMap (ts : List Tree) :
    outermostFrom ts = ts.flatMap outermostMarkup := by
  induction ts with
  | nil =>
    rw [outermostFrom]
    rfl
  | cons t ts ih => rw [← List.singleton_append, outermostFrom_append, ih]; rfl

/-- Nothing below markup is looked at. -/
theorem outermostMarkup_eq (t : Tree) :
    t.outermostMarkup =
      if t.isMarkup then [t] else t.children.flatMap outermostMarkup := by
  rw [outermostMarkup, outermostFrom, outermostFrom_eq_flatMap, List.append_nil,
    outermostFrom_eq_flatMap, List.flatMap_nil]

theorem outermostMarkup_eq_nil_iff : t.outermostMarkup = [] ↔ ∀ u ∈ t.walk, u.isMarkup = false := by
  induction t using children_induction with
  | step t ih =>
    rw [outermostMarkup_eq, walk_eq, List.forall_mem_cons]
    cases hmarkup : t.isMarkup with
    | true => simp
    | false =>
      simp only [Bool.false_eq_true, if_false, true_and, List.flatMap_eq_nil_iff,
        List.mem_flatMap, forall_exists_index, and_imp]
      exact ⟨fun h u c hc hu ↦ (ih c hc).1 (h c hc) u hu,
        fun h c hc ↦ (ih c hc).2 fun u hu ↦ h u c hc hu⟩

end Walk

section Paths

variable {t : Tree}

theorem paths_eq (t : Tree) : t.paths = [] :: pathsFrom 0 t.children := by
  cases t
  rw [paths]
  rfl

theorem mem_pathsFrom {i : Nat} {ts : List Tree} {path : List Nat} :
    path ∈ pathsFrom i ts ↔ ∃ n c below, ts[n]? = some c ∧ below ∈ c.paths ∧
      path = (i + n) :: below := by
  induction ts generalizing i with
  | nil => simp [pathsFrom]
  | cons t ts ih =>
    rw [pathsFrom, List.mem_append, List.mem_map, ih]
    constructor
    · rintro (⟨below, hbelow, rfl⟩ | ⟨n, c, below, hn, hbelow, rfl⟩)
      · exact ⟨0, t, below, rfl, hbelow, rfl⟩
      · exact ⟨n + 1, c, below, hn, hbelow, by rw [Nat.add_assoc, Nat.add_comm 1]⟩
    · rintro ⟨_ | n, c, below, hn, hbelow, rfl⟩
      · cases hn
        exact .inl ⟨below, hbelow, rfl⟩
      · exact .inr ⟨n, c, below, hn, hbelow, by rw [Nat.add_assoc, Nat.add_comm 1]⟩

/-- The paths are those at whose end something stands. -/
theorem mem_paths_iff {path : List Nat} : path ∈ t.paths ↔ (t.at? path).isSome := by
  induction path generalizing t with
  | nil => simp [paths_eq, at?]
  | cons i path ih =>
    have hbelow : i :: path ∈ t.paths ↔ ∃ c, t.children[i]? = some c ∧ path ∈ c.paths := by
      rw [paths_eq, List.mem_cons, mem_pathsFrom]
      simp
    rw [hbelow, at?]
    cases t.children[i]? with
    | none => simp
    | some c => simp [ih]

theorem pairwise_map_cons {paths : List (List Nat)} (i : Nat) (h : paths.Pairwise (· < ·)) :
    (paths.map (i :: ·)).Pairwise (· < ·) :=
  List.pairwise_map.2 (h.imp fun hlt ↦ List.cons_lt_cons_iff.2 (.inr ⟨rfl, hlt⟩))

mutual

/-- The paths come from left to right, each before those that go on from it. -/
theorem pairwise_paths (t : Tree) : t.paths.Pairwise (· < ·) := by
  cases t with
  | node kind role start stop children =>
    rw [paths]
    refine List.pairwise_cons.2 ⟨fun path hpath ↦ ?_, pairwise_pathsFrom 0 children⟩
    obtain ⟨n, c, below, -, -, rfl⟩ := mem_pathsFrom.1 hpath
    exact List.nil_lt_cons _ _

theorem pairwise_pathsFrom (i : Nat) (ts : List Tree) : (pathsFrom i ts).Pairwise (· < ·) := by
  cases ts with
  | nil => exact List.Pairwise.nil
  | cons t ts =>
    rw [pathsFrom]
    refine List.pairwise_append.2
      ⟨pairwise_map_cons i (pairwise_paths t), pairwise_pathsFrom (i + 1) ts, ?_⟩
    intro path hpath path' hpath'
    obtain ⟨below, -, rfl⟩ := List.mem_map.1 hpath
    obtain ⟨n, c, below', -, -, rfl⟩ := mem_pathsFrom.1 hpath'
    exact List.cons_lt_cons_iff.2 (.inl (by omega))

end

/-- What a path contributes below the root is what its rest contributes below the child. -/
theorem flatMap_pathsFrom {α : Type} {f : Tree → List Nat → List α}
    (h : ∀ i c path, t.children[i]? = some c → f t (i :: path) = f c path) :
    (pathsFrom 0 t.children).flatMap (f t) = t.children.flatMap fun c ↦ c.paths.flatMap (f c) := by
  have hfrom (i : Nat) (ts : List Tree)
      (hts : ∀ n c, ts[n]? = some c → t.children[i + n]? = some c) :
      (pathsFrom i ts).flatMap (f t) = ts.flatMap fun c ↦ c.paths.flatMap (f c) := by
    induction ts generalizing i with
    | nil => rfl
    | cons c ts ih =>
      have hhead : (c.paths.map (i :: ·)).flatMap (f t) = c.paths.flatMap (f c) := by
        rw [List.flatMap_map]
        exact congrArg c.paths.flatMap (funext fun path ↦ h i c path (hts 0 c rfl))
      have hrest := ih (i + 1) fun n d hd ↦ by
        rw [Nat.add_assoc, Nat.add_comm 1]
        exact hts (n + 1) d hd
      rw [pathsFrom, List.flatMap_append, hhead, hrest, List.flatMap_cons]
  exact hfrom 0 t.children fun n c hn ↦ by rwa [Nat.zero_add]

/-- Walking a tree visits what stands at the ends of its paths. -/
theorem map_at?_paths (t : Tree) : t.paths.map t.at? = t.walk.map some := by
  induction t using children_induction with
  | step t ih =>
    have hbelow : (pathsFrom 0 t.children).flatMap (fun path ↦ [t.at? path]) =
        t.children.flatMap fun c ↦ c.paths.flatMap fun path ↦ [c.at? path] :=
      flatMap_pathsFrom (f := fun t path ↦ [t.at? path]) fun i c path hc ↦ by
        rw [at?, hc, Option.bind_some]
    rw [paths_eq, walk_eq, List.map_cons, List.map_cons, at?, List.map_flatMap,
      List.map_eq_flatMap, hbelow]
    refine congrArg (some t :: ·) (List.flatMap_congr fun c hc ↦ ?_)
    rw [← List.map_eq_flatMap, ih c hc]

theorem isMarkupAt_cons {i : Nat} {c : Tree} (path : List Nat) (h : t.children[i]? = some c) :
    t.isMarkupAt (i :: path) = c.isMarkupAt path := by
  rw [isMarkupAt, at?, h, Option.bind_some, isMarkupAt]

theorem isOutermostAt_cons {i : Nat} {c : Tree} (path : List Nat) (h : t.children[i]? = some c) :
    t.isOutermostAt (i :: path) = (!t.isMarkup && c.isOutermostAt path) := by
  have hroot : t.isMarkupAt [] = t.isMarkup := rfl
  simp only [isOutermostAt, isMarkupAt_cons path h, List.length_cons, List.range_succ_eq_map,
    List.all_cons, List.take_zero, hroot, List.all_map, Function.comp_def, List.take_succ_cons,
    isMarkupAt_cons _ h]
  rw [Bool.and_left_comm]

/-- The outermost markup is what stands where markup is and none above it, in the order of the
walk. -/
theorem map_at?_outermost (t : Tree) :
    (t.paths.filter t.isOutermostAt).map t.at? = t.outermostMarkup.map some := by
  induction t using children_induction with
  | step t ih =>
    have hflat (u : Tree) : (u.paths.filter u.isOutermostAt).map u.at? =
        u.paths.flatMap fun path ↦ if u.isOutermostAt path then [u.at? path] else [] := by
      induction u.paths with
      | nil => rfl
      | cons path paths ih =>
        rw [List.flatMap_cons, ← ih, List.filter_cons]
        split <;> rfl
    rw [hflat, paths_eq, List.flatMap_cons, outermostMarkup_eq]
    have hroot : t.isOutermostAt [] = t.isMarkup := Bool.and_true _
    cases hmarkup : t.isMarkup with
    | true =>
      -- Below markup no path leads to outermost markup.
      have hnone : (pathsFrom 0 t.children).flatMap
          (fun path ↦ if t.isOutermostAt path then [t.at? path] else []) = [] := by
        refine List.flatMap_eq_nil_iff.2 fun path hpath ↦ ?_
        obtain ⟨n, c, below, hn, -, rfl⟩ := mem_pathsFrom.1 hpath
        rw [Nat.zero_add, isOutermostAt_cons below hn, hmarkup]
        rfl
      rw [hnone, hroot, hmarkup]
      rfl
    | false =>
      have hbelow := flatMap_pathsFrom (t := t)
        (f := fun t path ↦ if t.isOutermostAt path then [t.at? path] else []) fun i c path hc ↦ by
          rw [isOutermostAt_cons path hc, hmarkup, at?, hc, Option.bind_some, Bool.not_false,
            Bool.true_and]
      rw [hbelow, hroot, hmarkup, if_neg Bool.false_ne_true, if_neg Bool.false_ne_true,
        List.nil_append, List.map_flatMap]
      refine List.flatMap_congr fun c hc ↦ ?_
      rw [← hflat, ih c hc]

end Paths

end ViewForge.Source.Tree
