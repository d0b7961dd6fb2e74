import Mathlib.Data.List.Basic
import ViewForge.Proofs.Source.Traversal
import ViewForge.Source.Scope

namespace ViewForge.Source

section Slices

variable {a b c d : Nat} (source : Text)

theorem slice_append (hab : a ≤ b) (hbc : b ≤ c) :
    slice source a b ++ slice source b c = slice source a c := by
  have hlength : c - a = b - a + (c - b) := by omega
  rw [slice, slice, slice, hlength, List.take_add, List.drop_drop, Nat.add_sub_cancel' hab]

/-- A stretch of a stretch, told by its places in the whole. -/
theorem drop_slice (hab : a ≤ b) : (slice source a c).drop (b - a) = slice source b c := by
  have hlength : c - a - (b - a) = c - b := by omega
  rw [slice, slice, List.drop_take, List.drop_drop, Nat.add_sub_cancel' hab, hlength]

theorem take_slice (hbc : b ≤ c) : (slice source a c).take (b - a) = slice source a b := by
  rw [slice, slice, List.take_take, Nat.min_eq_left (Nat.sub_le_sub_right hbc a)]

theorem slice_prefix (hbc : b ≤ c) : slice source a b <+: slice source a c := by
  rw [← take_slice source hbc]
  exact List.take_prefix _ _

theorem length_slice (hb : b ≤ source.length) : (slice source a b).length = b - a := by
  rw [slice, List.length_take, List.length_drop]
  omega

end Slices

/-- Some trees stand between two places, one behind the other. -/
structure Ordered (start stop : Nat) (ts : List Tree) : Prop where
  le : start ≤ stop
  inside : ∀ t ∈ ts, start ≤ t.start ∧ t.start ≤ t.stop ∧ t.stop ≤ stop
  apart : ts.Pairwise fun t u ↦ t.stop ≤ u.start

instance (start stop : Nat) (ts : List Tree) : Decidable (Ordered start stop ts) :=
  decidable_of_iff
    (start ≤ stop ∧ (∀ t ∈ ts, start ≤ t.start ∧ t.start ≤ t.stop ∧ t.stop ≤ stop) ∧
      ts.Pairwise fun t u ↦ t.stop ≤ u.start)
    ⟨fun ⟨hle, hinside, hapart⟩ ↦ ⟨hle, hinside, hapart⟩, fun h ↦ ⟨h.le, h.inside, h.apart⟩⟩

namespace Ordered

variable {start stop : Nat} {t : Tree} {ts us : List Tree}

theorem cons_iff : Ordered start stop (t :: ts) ↔
    start ≤ t.start ∧ t.start ≤ t.stop ∧ Ordered t.stop stop ts := by
  constructor
  · rintro ⟨-, hinside, hapart⟩
    rw [List.forall_mem_cons] at hinside
    obtain ⟨⟨hstart, hle, hstop⟩, hinside⟩ := hinside
    obtain ⟨hnext, hapart⟩ := List.pairwise_cons.1 hapart
    exact ⟨hstart, hle, hstop, fun u hu ↦ ⟨hnext u hu, (hinside u hu).2⟩, hapart⟩
  · rintro ⟨hstart, hle, hstop, hinside, hapart⟩
    refine ⟨by omega, List.forall_mem_cons.2 ⟨⟨hstart, hle, hstop⟩, fun u hu ↦ ?_⟩,
      List.pairwise_cons.2 ⟨fun u hu ↦ (hinside u hu).1, hapart⟩⟩
    exact ⟨by have := (hinside u hu).1; omega, (hinside u hu).2⟩

theorem sublist (h : Ordered start stop ts) (hsub : us.Sublist ts) : Ordered start stop us :=
  ⟨h.le, fun t ht ↦ h.inside t (hsub.subset ht), h.apart.sublist hsub⟩

theorem widen {start' : Nat} (h : Ordered start stop ts) (hle : start' ≤ start) :
    Ordered start' stop ts :=
  ⟨hle.trans h.le, fun t ht ↦ ⟨hle.trans (h.inside t ht).1, (h.inside t ht).2⟩, h.apart⟩

/-- A tree among some inside a source covers as many characters as its span says. -/
theorem length_textIn {source : Text} (h : Ordered start stop ts) (ht : t ∈ ts)
    (hstop : stop ≤ source.length) : (t.textIn source).length = t.stop - t.start :=
  length_slice source ((h.inside t ht).2.2.trans hstop)

end Ordered

namespace Tree

def isName (t : Tree) : Bool := t.kind == .identifier || t.kind == .shorthandProperty

/-- A tree over a source: the children of every node stand in order inside it. -/
structure Spans (t : Tree) (source : Text) : Prop where
  le_length : t.stop ≤ source.length
  ordered : ∀ u ∈ t.walk, Ordered u.start u.stop u.children

/-- No two nodes begin at one place, unless one is below the other. A node without characters begins
where it stands. -/
def Disjoint (t : Tree) : Prop :=
  ∀ u ∈ t.walk, u.children.Pairwise fun c d ↦ ∀ x ∈ c.walk, ∀ y ∈ d.walk, x.start ≠ y.start

/-- One node is in a child of some node, and the other in a later child of that node. -/
def Apart (t x y : Tree) : Prop :=
  ∃ u ∈ t.walk, ∃ c d, [c, d].Sublist u.children ∧ x ∈ c.walk ∧ y ∈ d.walk

section Walk

variable {source : Text} {t u x y : Tree}

theorem Apart.of_mem_walk (hu : u ∈ t.walk) (h : u.Apart x y) : t.Apart x y := by
  obtain ⟨v, hv, hsplit⟩ := h
  exact ⟨v, mem_walk_trans hu hv, hsplit⟩

/-- A node stands inside the tree that it is in. -/
theorem Spans.inside (h : t.Spans source) (hu : u ∈ t.walk) :
    t.start ≤ u.start ∧ u.start ≤ u.stop ∧ u.stop ≤ t.stop := by
  have hordered := h.ordered
  clear h
  induction t using children_induction with
  | step t ih =>
    have hself := hordered t t.self_mem_walk
    rcases mem_walk.1 hu with rfl | ⟨c, hc, hu⟩
    · exact ⟨Nat.le_refl _, hself.le, Nat.le_refl _⟩
    · obtain ⟨hstart, -, hstop⟩ := hself.inside c hc
      obtain ⟨hfirst, hle, hlast⟩ := ih c hc hu fun v hv ↦
        hordered v (mem_walk_trans (mem_walk_of_mem_children hc) hv)
      exact ⟨hstart.trans hfirst, hle, hlast.trans hstop⟩

/-- Every part of a tree over a source is one. -/
theorem Spans.of_mem_walk (h : t.Spans source) (hu : u ∈ t.walk) : u.Spans source :=
  ⟨(h.inside hu).2.2.trans h.le_length, fun v hv ↦ h.ordered v (mem_walk_trans hu hv)⟩

theorem Spans.stop_le (h : t.Spans source) (hxy : t.Apart x y) : x.stop ≤ y.start := by
  obtain ⟨u, hu, c, d, hsub, hx, hy⟩ := hxy
  have hbetween := List.pairwise_iff_forall_sublist.1 (h.ordered u hu).apart hsub
  have hspans {v : Tree} (hv : v ∈ [c, d]) : v.Spans source :=
    h.of_mem_walk (mem_walk_trans hu (mem_walk_of_mem_children (hsub.subset hv)))
  have hfirst := ((hspans List.mem_cons_self).inside hx).2.2
  have hsecond := ((hspans (List.mem_cons_of_mem _ List.mem_cons_self)).inside hy).1
  exact hfirst.trans (hbetween.trans hsecond)

theorem Spans.start_lt (h : t.Spans source) (hdisjoint : t.Disjoint) (hx : x ∈ t.walk)
    (hxy : t.Apart x y) : x.start < y.start := by
  obtain ⟨-, hle, -⟩ := h.inside hx
  have hstop := h.stop_le hxy
  obtain ⟨u, hu, c, d, hsub, hx, hy⟩ := hxy
  have hne := List.pairwise_iff_forall_sublist.1 (hdisjoint u hu) hsub x hx y hy
  omega

/-- Where every node has a character, those that stand in order are disjoint. -/
theorem Spans.disjoint (h : t.Spans source) (hwide : ∀ u ∈ t.walk, u.start < u.stop) :
    t.Disjoint := by
  intro u hu
  refine List.pairwise_iff_forall_sublist.2 fun {c d} hsub x hx y hy ↦ ?_
  have hc : c ∈ u.children := hsub.subset List.mem_cons_self
  have hstop := h.stop_le ⟨u, hu, c, d, hsub, hx, hy⟩
  have hlt := hwide x (mem_walk_trans hu (mem_walk_trans (mem_walk_of_mem_children hc) hx))
  omega

theorem Spans.ordered_of_apart {ts : List Tree} (h : t.Spans source) (hts : ∀ u ∈ ts, u ∈ t.walk)
    (hapart : ts.Pairwise t.Apart) : Ordered t.start t.stop ts :=
  ⟨(h.inside t.self_mem_walk).2.1, fun u hu ↦ h.inside (hts u hu), hapart.imp h.stop_le⟩

end Walk

mutual

/-- Without parentheses an expression is one of its own nodes. -/
theorem unwrapped_mem_walk (t : Tree) : t.unwrapped ∈ t.walk := by
  cases t with
  | node kind role start stop children =>
    rw [unwrapped]
    split
    · split
      next u h =>
        obtain ⟨c, hc, hu⟩ := exists_of_single children h
        exact mem_walk.2 (.inr ⟨c, hc, hu⟩)
      next => exact self_mem_walk _
    · exact self_mem_walk _

theorem exists_of_single (ts : List Tree) {u : Tree} (h : unwrapped.single ts = some u) :
    ∃ c ∈ ts, u ∈ c.walk := by
  cases ts with
  | nil => simp [unwrapped.single] at h
  | cons t ts =>
    rw [unwrapped.single] at h
    split at h
    · split at h
      · cases h
        exact ⟨t, List.mem_cons_self, unwrapped_mem_walk t⟩
      · cases h
    · obtain ⟨c, hc, hu⟩ := exists_of_single ts h
      exact ⟨c, List.mem_cons_of_mem _ hc, hu⟩

end

end Tree

end ViewForge.Source
