import ViewForge.Markup.OfTree
import ViewForge.Proofs.Markup.Scoping
import ViewForge.Proofs.Source.Spans
import ViewForge.Proofs.Text.Bytes

namespace ViewForge.Source.Tree

variable {source : Text} {base : Nat} {bound : List Text} {t : Tree}

def reference (source : Text) (base : Nat) (t : Tree) : Markup.Ref :=
  ⟨t.start - base, t.textIn source, t.kind == .shorthandProperty⟩

/-- References that are made by names in a tree, in their order. No name is below another one. -/
def MadeBy (source : Text) (base : Nat) (t : Tree) (refs : List Markup.Ref) : Prop :=
  ∃ names : List Tree, refs = names.map (reference source base) ∧
    (∀ u ∈ names, u ∈ t.walk ∧ u.isName = true) ∧ names.Pairwise t.Apart

theorem madeBy_freeNamesBelow (test : Tree → Bool) {ts : List Tree} (hsub : ts.Sublist t.children)
    (hts : ∀ c ∈ ts, MadeBy source base c (freeNames source base bound c)) :
    ∃ names : List Tree,
      freeNamesBelow source base bound test ts = names.map (reference source base) ∧
      (∀ u ∈ names, (∃ c ∈ ts, u ∈ c.walk) ∧ u.isName = true) ∧ names.Pairwise t.Apart := by
  induction ts with
  | nil => exact ⟨[], rfl, List.forall_mem_nil _, .nil⟩
  | cons c ts ih =>
    rw [List.forall_mem_cons] at hts
    obtain ⟨names, hnames, hmem, hapart⟩ := hts.1
    obtain ⟨more, hmore, hmem', hapart'⟩ := ih ((List.sublist_cons_self c ts).trans hsub) hts.2
    have hlater (u : Tree) (hu : u ∈ more) :
        (∃ d ∈ c :: ts, u ∈ d.walk) ∧ u.isName = true := by
      obtain ⟨⟨d, hd, hwalk⟩, hname⟩ := hmem' u hu
      exact ⟨⟨d, List.mem_cons_of_mem _ hd, hwalk⟩, hname⟩
    rw [freeNamesBelow, hmore]
    cases test c with
    | false => exact ⟨more, rfl, hlater, hapart'⟩
    | true =>
      refine ⟨names ++ more, ?_, fun u hu ↦ ?_, ?_⟩
      · rw [if_pos rfl, hnames, List.map_append]
      · rcases List.mem_append.1 hu with hu | hu
        · exact ⟨⟨c, List.mem_cons_self, (hmem u hu).1⟩, (hmem u hu).2⟩
        · exact hlater u hu
      · have hc : c ∈ t.walk := mem_walk_of_mem_children (hsub.subset List.mem_cons_self)
        refine List.pairwise_append.2 ⟨hapart.imp (.of_mem_walk hc), hapart', fun x hx y hy ↦ ?_⟩
        obtain ⟨⟨d, hd, hwalk⟩, -⟩ := hmem' y hy
        exact ⟨t, t.self_mem_walk, c, d, ((List.singleton_sublist.2 hd).cons_cons c).trans hsub,
          (hmem x hx).1, hwalk⟩

/-- The free names of a tree are made by names in it, in the order in which they stand. -/
theorem madeBy_freeNames (source : Text) (base : Nat) (bound : List Text) (t : Tree) :
    MadeBy source base t (freeNames source base bound t) := by
  induction t using children_induction generalizing bound with
  | step t ih =>
    have hnone : MadeBy source base t [] := ⟨[], rfl, List.forall_mem_nil _, .nil⟩
    have hself (hname : t.isName = true) : MadeBy source base t [reference source base t] :=
      ⟨[t], rfl, List.forall_mem_singleton.2 ⟨t.self_mem_walk, hname⟩, List.pairwise_singleton _ _⟩
    have hbelow (bound : List Text) (test : Tree → Bool) :
        MadeBy source base t (freeNamesBelow source base bound test t.children) := by
      obtain ⟨names, hnames, hmem, hapart⟩ := madeBy_freeNamesBelow test
        (List.Sublist.refl t.children) fun c hc ↦ ih c hc bound
      exact ⟨names, hnames, fun u hu ↦ ⟨mem_walk.2 (.inr (hmem u hu).1), (hmem u hu).2⟩, hapart⟩
    cases t with
    | node kind role start stop children =>
      rw [freeNames]
      split
      next hkind =>
        obtain rfl := beq_iff_eq.1 hkind
        split
        · exact hnone
        · exact hself rfl
      next hkind =>
        split
        next hkind =>
          obtain rfl := beq_iff_eq.1 hkind
          split
          · exact hnone
          · exact hself rfl
        next hkind => exact hbelow _ _

end ViewForge.Source.Tree

namespace ViewForge.Markup

open Text Source

section Placed

variable {source : Text} {base cursor stop : Nat} {refs : List Ref} {names : List Tree}

theorem placed_map_reference (h : Ordered cursor stop names) (hbase : base ≤ cursor)
    (hstop : stop ≤ source.length) :
    Placed (slice source base stop) (cursor - base) (names.map (Tree.reference source base)) := by
  induction names generalizing cursor with
  | nil => trivial
  | cons u names ih =>
    obtain ⟨hstart, hle, hrest⟩ := Ordered.cons_iff.1 h
    have hlength := h.length_textIn List.mem_cons_self hstop
    have hnext : u.start - base + (u.textIn source).length = u.stop - base := by omega
    refine ⟨Nat.sub_le_sub_right hstart base, ?_, ?_⟩
    · rw [Tree.reference, drop_slice source (hbase.trans hstart)]
      exact slice_prefix source hrest.le
    · rw [Tree.reference, hnext]
      exact ih hrest (by omega)

theorem pairwise_map_reference (h : Ordered base stop names) (hstop : stop ≤ source.length) :
    (names.map (Tree.reference source base)).Pairwise fun a b ↦
      a.offset + a.name.length ≤ b.offset := by
  refine List.pairwise_map.2 (h.apart.imp_of_mem fun {u v} hu hv hapart ↦ ?_)
  obtain ⟨hstart, hle, -⟩ := h.inside u hu
  have hlength := h.length_textIn hu hstop
  simp only [Tree.reference, hlength]
  omega

/-- A text made of stretches, each with the name behind it as it is written, and a last stretch. -/
def assemble (write : Ref → Text) (stretches : List (Text × Ref)) (last : Text) : Text :=
  stretches.flatMap (fun s ↦ s.1 ++ write s.2) ++ last

def Ref.replaced (replacement : Text → Option Text) (ref : Ref) : Text :=
  match replacement ref.name with
  | none => ref.name
  | some new => if ref.shorthand then ref.name ++ [':', ' '] ++ new else new

/-- Where the names stand, a source falls into the stretches between them. -/
theorem Placed.exists_stretches (h : Placed source cursor refs)
    (hle : ∀ ref ∈ refs, ref.offset ≤ source.length) :
    ∃ stretches last, refs = stretches.map Prod.snd ∧
      (∀ write, weave source write cursor refs = assemble write stretches last) ∧
      ∀ before lead ref after, stretches = before ++ (lead, ref) :: after →
        cursor + (assemble Ref.name before lead).length = ref.offset := by
  induction refs generalizing cursor with
  | nil => exact ⟨[], source.drop cursor, rfl, fun write ↦ rfl, by simp⟩
  | cons ref refs ih =>
    obtain ⟨hplace, hname, hrest⟩ := h
    rw [List.forall_mem_cons] at hle
    obtain ⟨stretches, last, hrefs, hweave, hoffset⟩ := ih hrest hle.2
    have hlead : ((source.take ref.offset).drop cursor).length = ref.offset - cursor := by
      rw [List.length_drop, List.length_take, Nat.min_eq_left hle.1]
    refine ⟨((source.take ref.offset).drop cursor, ref) :: stretches, last, ?_, fun write ↦ ?_, ?_⟩
    · rw [List.map_cons, ← hrefs]
    · rw [weave, hweave, assemble, assemble, List.flatMap_cons, ← List.append_assoc]
    · intro before lead other after hsplit
      cases before with
      | nil =>
        obtain ⟨⟨rfl, rfl⟩, -⟩ := by simpa using hsplit
        rw [assemble, List.flatMap_nil, List.nil_append, hlead]
        omega
      | cons first before =>
        obtain ⟨rfl, hrest⟩ := List.cons.inj hsplit
        have hnext := hoffset before lead other after hrest
        simp only [assemble, List.flatMap_cons, List.length_append, hlead] at hnext ⊢
        omega

/-- If no name has a replacement, nothing changes. -/
theorem substituteFrom_eq_drop {replacement : Text → Option Text}
    (h : ∀ ref ∈ refs, replacement ref.name = none) :
    substituteFrom source replacement cursor refs = source.drop cursor := by
  induction refs with
  | nil => rfl
  | cons ref refs ih =>
    rw [List.forall_mem_cons] at h
    rw [substituteFrom, h.1]
    exact ih h.2

theorem weave_name (h : Placed source cursor refs) :
    weave source Ref.name cursor refs = source.drop cursor := by
  have hweave : substituteFrom source (fun _ ↦ none) cursor refs =
      weave source Ref.name cursor refs := substituteFrom_eq_weave h
  exact hweave.symm.trans (substituteFrom_eq_drop fun _ _ ↦ rfl)

end Placed

/-- The names that an expression refers to stand in its source one behind the other, and a
replacement rewrites the occurrences of the names it replaces and keeps what stands around them. -/
structure Expr.Exact (e : Expr) : Prop where
  apart : e.refs.Pairwise fun a b ↦ a.offset + a.name.length ≤ b.offset
  found : ∀ ref ∈ e.refs,
    slice e.source ref.offset (ref.offset + ref.name.length) = ref.name
  substituted : ∃ stretches last, e.refs = stretches.map Prod.snd ∧
    e.source = assemble Ref.name stretches last ∧
    (∀ before lead ref after, stretches = before ++ (lead, ref) :: after →
      (assemble Ref.name before lead).length = ref.offset) ∧
    ∀ replacement, e.substitute replacement = assemble (Ref.replaced replacement) stretches last
  kept : ∀ replacement, (∀ ref ∈ e.refs, replacement ref.name = none) →
    e.substitute replacement = e.source

/-- Whatever an expression is, its source and its references are those of its tree without
parentheses. -/
theorem source_refs_ofTree (source : Text) (t : Tree) :
    (Expr.ofTree source t).source = t.unwrapped.textIn source ∧
      (Expr.ofTree source t).refs = t.unwrapped.refs source := by
  rw [Expr.ofTree]
  dsimp only
  repeat' split
  all_goals exact ⟨rfl, rfl⟩

/-- References that names make, counted from where the expression starts, are exact. -/
theorem exact_of_names {e : Expr} {source : Text} {start stop : Nat} {names : List Tree}
    (hsource : e.source = slice source start stop)
    (hrefs : e.refs = names.map (Tree.reference source start)) (h : Ordered start stop names)
    (hstop : stop ≤ source.length) : e.Exact := by
  have hplaced : Placed e.source 0 e.refs := by
    rw [hsource, hrefs, ← Nat.sub_self start]
    exact placed_map_reference h (Nat.le_refl start) hstop
  have hpairs := pairwise_map_reference h hstop
  rw [← hrefs] at hpairs
  have hlength : e.source.length = stop - start := by rw [hsource, length_slice source hstop]
  have hinside : ∀ ref ∈ e.refs, ref.offset ≤ e.source.length := by
    rw [hrefs, hlength, List.forall_mem_map]
    intro u hu
    have hu := h.inside u hu
    exact Nat.sub_le_sub_right (hu.2.1.trans hu.2.2) start
  obtain ⟨stretches, last, hstretches, hweave, hoffset⟩ := hplaced.exists_stretches hinside
  refine ⟨hpairs, ?_, ?_, fun replacement hnone ↦ ?_⟩
  · rw [hrefs, List.forall_mem_map, hsource]
    intro u hu
    obtain ⟨hstart, hle, hend⟩ := h.inside u hu
    have hplace : u.start - start + (u.stop - u.start) - (u.start - start) = u.stop - u.start :=
      Nat.add_sub_cancel_left _ _
    rw [Tree.reference, h.length_textIn hu hstop, slice, hplace, drop_slice source hstart,
      take_slice source hend]
    rfl
  · refine ⟨stretches, last, hstretches, ?_, ?_, fun replacement ↦ ?_⟩
    · exact (weave_name hplaced).symm.trans (hweave Ref.name)
    · intro before lead ref after hsplit
      rw [← hoffset before lead ref after hsplit, Nat.zero_add]
    · exact (substituteFrom_eq_weave hplaced).trans (hweave (Ref.replaced replacement))
  · exact substituteFrom_eq_drop hnone

/-- An object in parentheses: a name as key and value, a value, and a function that binds a name. -/
def sizesSource : Text := "(\x7b é, n: ñ, f: x => x + é \x7d)"

def sizesTree : Tree :=
  .node .parenthesized .none 0 28
    [.node .object .none 1 27
      [.node .shorthandProperty .none 3 4 [],
       .node .pair .none 6 10
        [.node .propertyIdentifier .key 6 7 [], .node .identifier .value 9 10 []],
       .node .pair .none 12 25
        [.node .propertyIdentifier .key 12 13 [],
         .node .arrow .value 15 25
          [.node .identifier .parameter 15 16 [],
           .node .binary .body 20 25
            [.node .identifier .left 20 21 [], .node .operator .operator 22 23 [],
             .node .identifier .right 24 25 []]]]]]

end ViewForge.Markup
