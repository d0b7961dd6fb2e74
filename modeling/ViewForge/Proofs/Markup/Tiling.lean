import ViewForge.Markup.OfTree
import ViewForge.Proofs.Markup.Spacing
import ViewForge.Proofs.Source.Spans

namespace ViewForge.Markup

open Text Source

def nodeOf (source : Text) (t : Tree) : Node :=
  if t.isMarkup then .ofTree source t
  else if t.kind = .container then .container (t.parts.head?.map (Expr.ofTree source))
  else .unsupported t.kind.label (slice source t.start t.stop)

/-- What content is read from: the text between two places, or a child that is more than text. -/
inductive Piece where
  | gap (start stop : Nat)
  | child (t : Tree)

namespace Piece

def start : Piece → Nat
  | .gap a _ => a
  | .child t => t.start

def stop : Piece → Nat
  | .gap _ b => b
  | .child t => t.stop

def child? : Piece → Option Tree
  | .gap .. => none
  | .child t => some t

def text (source : Text) (p : Piece) : Text := slice source p.start p.stop

def isGap (p : Piece) : Bool := p.child?.isNone

/-- What is made of a piece: a gap becomes the text that is left of it, if any is. -/
def nodes (source : Text) : Piece → List Node
  | .gap a b =>
    if cleanText (slice source a b) = [] then [] else [.text (cleanText (slice source a b))]
  | .child t => [nodeOf source t]

def covers (place : Nat) (p : Piece) : Bool := p.start ≤ place && place < p.stop

end Piece

def piecesAround (start stop : Nat) : List Tree → List Piece
  | [] => [.gap start stop]
  | t :: rest => .gap start t.start :: .child t :: piecesAround t.stop stop rest

def contentChildren (t : Tree) : List Tree :=
  t.children.filter fun c ↦ c.kind != .openingTag && c.kind != .closingTag

def contentPieces (t : Tree) : List Piece :=
  piecesAround (contentStart t) (contentStop t) ((contentChildren t).filter isStructural)

def Tiles (start stop : Nat) : List Piece → Prop
  | [] => start = stop
  | p :: rest => p.start = start ∧ p.start ≤ p.stop ∧ Tiles p.stop stop rest

section Tiles

variable {start stop : Nat} {ps : List Piece} {source : Text}

theorem Tiles.le (h : Tiles start stop ps) : start ≤ stop := by
  induction ps generalizing start with
  | nil => exact Nat.le_of_eq h
  | cons p ps ih =>
    obtain ⟨rfl, hle, hrest⟩ := h
    exact hle.trans (ih hrest)

theorem Tiles.flatMap_text (h : Tiles start stop ps) :
    ps.flatMap (Piece.text source) = slice source start stop := by
  induction ps generalizing start with
  | nil =>
    obtain rfl := h
    rw [slice, Nat.sub_self, List.take_zero, List.flatMap_nil]
  | cons p ps ih =>
    obtain ⟨rfl, hle, hrest⟩ := h
    rw [List.flatMap_cons, ih hrest, Piece.text, slice_append source hle hrest.le]

/-- A place between the ends is covered by one piece, any other by none. -/
theorem Tiles.countP_covers (h : Tiles start stop ps) (place : Nat) :
    ps.countP (Piece.covers place) = if start ≤ place ∧ place < stop then 1 else 0 := by
  induction ps generalizing start with
  | nil =>
    obtain rfl := h
    rw [List.countP_nil, if_neg (by omega)]
  | cons p ps ih =>
    obtain ⟨rfl, hle, hrest⟩ := h
    have hstop := hrest.le
    have hcovers : p.covers place = true ↔ p.start ≤ place ∧ place < p.stop := by
      rw [Piece.covers, Bool.and_eq_true, decide_eq_true_eq, decide_eq_true_eq]
    rw [List.countP_cons, ih hrest]
    by_cases hplace : p.start ≤ place ∧ place < p.stop
    · rw [if_pos (hcovers.2 hplace), if_neg (by omega), if_pos (by omega)]
    · rw [if_neg fun h ↦ hplace (hcovers.1 h)]
      exact if_congr (by omega) rfl rfl

end Tiles

section Pieces

variable {start stop : Nat} {ts : List Tree} {source : Text}

theorem filterMap_child?_piecesAround (start stop : Nat) (ts : List Tree) :
    (piecesAround start stop ts).filterMap Piece.child? = ts := by
  induction ts generalizing start with
  | nil => rfl
  | cons t ts ih => exact congrArg (t :: ·) (ih t.stop)

theorem tiles_piecesAround (h : Ordered start stop ts) :
    Tiles start stop (piecesAround start stop ts) := by
  induction ts generalizing start with
  | nil => exact ⟨rfl, h.le, rfl⟩
  | cons t ts ih =>
    obtain ⟨hstart, hle, hrest⟩ := Ordered.cons_iff.1 h
    exact ⟨rfl, hstart, rfl, hle, ih hrest⟩

/-- The first gap reaches as far as nothing else begins. -/
theorem exists_first_gap (start : Nat) {place : Nat} (h : Ordered place stop ts) :
    ∃ last, .gap start last ∈ piecesAround start stop ts ∧ place ≤ last := by
  cases ts with
  | nil => exact ⟨stop, List.mem_singleton_self _, h.le⟩
  | cons t ts => exact ⟨t.start, List.mem_cons_self, (Ordered.cons_iff.1 h).1⟩

/-- A child that is not structural stands in a gap. -/
theorem exists_gap {c : Tree} (h : Ordered start stop ts) (hc : c ∈ ts)
    (hplain : isStructural c = false) :
    ∃ first last, .gap first last ∈ piecesAround start stop (ts.filter isStructural) ∧
      first ≤ c.start ∧ c.stop ≤ last := by
  induction ts generalizing start with
  | nil => cases hc
  | cons t ts ih =>
    obtain ⟨hstart, hle, hrest⟩ := Ordered.cons_iff.1 h
    cases ht : isStructural t with
    | true =>
      have hmem : c ∈ ts := by
        refine (List.mem_cons.1 hc).resolve_left fun heq ↦ ?_
        rw [heq, ht] at hplain
        cases hplain
      obtain ⟨first, last, hgap, hfirst, hlast⟩ := ih hrest hmem
      rw [List.filter_cons_of_pos ht]
      exact ⟨first, last, List.mem_cons_of_mem _ (List.mem_cons_of_mem _ hgap), hfirst, hlast⟩
    | false =>
      rw [List.filter_cons_of_neg (by rw [ht]; exact Bool.false_ne_true)]
      rcases List.mem_cons.1 hc with rfl | hmem
      · obtain ⟨last, hgap, hlast⟩ := exists_first_gap start (hrest.sublist List.filter_sublist)
        exact ⟨start, last, hgap, hstart, hlast⟩
      · exact ih (hrest.widen (hstart.trans hle)) hmem

theorem childOf_eq (source : Text) (t : Tree) : childOf source t = nodeOf source t := by
  have hcontained : containedOf source t = t.parts.head?.map (Expr.ofTree source) := by
    rw [containedOf]
    split
    next hnone => rw [hnone, Option.map_none]
    next inner hinner => rw [hinner, Option.map_some]
  rw [childOf, nodeOf, hcontained]
  simp only [beq_iff_eq]
  rfl

theorem textBetween_eq (source : Text) (start stop : Nat) :
    textBetween source start stop = Piece.nodes source (.gap start stop) := by
  simp only [textBetween, Piece.nodes, List.isEmpty_iff]

/-- The cursor stands where the last structural child ended; what is no structural child leaves it
there. -/
theorem contentOf_eq (source : Text) (start stop : Nat) (ts : List Tree) :
    contentOf source start stop ts =
      (piecesAround start stop (ts.filter isStructural)).flatMap (Piece.nodes source) := by
  induction ts generalizing start with
  | nil => rw [contentOf, textBetween_eq, List.filter_nil, piecesAround, List.flatMap_singleton]
  | cons t ts ih =>
    rw [contentOf]
    split
    next ht =>
      rw [ih, List.filter_cons_of_pos ht, piecesAround, List.flatMap_cons, List.flatMap_cons,
        textBetween_eq, childOf_eq]
      rfl
    next ht => rw [ih, List.filter_cons_of_neg ht]

theorem filter_isStructural_contentChildren (t : Tree) :
    (contentChildren t).filter isStructural = t.children.filter isStructural := by
  rw [contentChildren, List.filter_filter]
  refine List.filter_congr fun c _ ↦ ?_
  cases hopening : c.kind == .openingTag <;> cases hclosing : c.kind == .closingTag <;>
    simp [isStructural, hopening, hclosing, bne]

theorem children_ofTree {t : Tree} (h : t.kind = .element) :
    (Node.ofTree source t).children =
      contentOf source (contentStart t) (contentStop t) t.children := by
  rw [Node.ofTree, h, if_neg (by decide)]
  split
  · rfl
  · split <;> rfl

end Pieces

section Texts

def Node.text? : Node → Option Text
  | .text v => some v
  | _ => none

theorem text?_nodeOf (source : Text) (t : Tree) : (nodeOf source t).text? = none := by
  have htree : (Node.ofTree source t).text? = none := by
    rw [Node.ofTree]
    split
    · rfl
    · dsimp only
      split
      · rfl
      · split <;> rfl
  rw [nodeOf]
  split
  · exact htree
  · split <;> rfl

/-- The texts among the nodes are what is left of the gaps. -/
theorem filterMap_text?_nodes (source : Text) (ps : List Piece) :
    (ps.flatMap (Piece.nodes source)).filterMap Node.text? =
      ((ps.filter Piece.isGap).map fun p ↦ cleanText (p.text source)).filter (!·.isEmpty) := by
  induction ps with
  | nil => rfl
  | cons p ps ih =>
    rw [List.flatMap_cons, List.filterMap_append, ih]
    cases p with
    | child t =>
      rw [Piece.nodes, List.filterMap_cons, text?_nodeOf]
      rfl
    | gap a b =>
      have htext : (Piece.gap a b).text source = slice source a b := rfl
      rw [List.filter_cons_of_pos rfl, List.map_cons, htext, Piece.nodes]
      cases cleanText (slice source a b) <;> rfl

end Texts

/-- The structural children of an element and the gaps around them cover the source from the end of
the opening tag to the start of the closing tag once and in order, and its content is made of them
piece by piece. Text, references and comments stand in the gaps; what the gaps hold besides white
space is shown. -/
theorem contentPieces_tile (source : Text) {t : Tree} (hkind : t.kind = .element)
    (h : Ordered (contentStart t) (contentStop t) (contentChildren t)) :
    (Node.ofTree source t).children = (contentPieces t).flatMap (Piece.nodes source) ∧
    (contentPieces t).filterMap Piece.child? = (contentChildren t).filter isStructural ∧
    Tiles (contentStart t) (contentStop t) (contentPieces t) ∧
    (contentPieces t).flatMap (Piece.text source) =
      slice source (contentStart t) (contentStop t) ∧
    (∀ place, (contentPieces t).countP (Piece.covers place) =
      if contentStart t ≤ place ∧ place < contentStop t then 1 else 0) ∧
    (∀ c ∈ contentChildren t, isStructural c = false →
      ∃ first last, .gap first last ∈ contentPieces t ∧ first ≤ c.start ∧ c.stop ≤ last) ∧
    (Node.ofTree source t).children.filterMap Node.text? =
      (((contentPieces t).filter Piece.isGap).map fun p ↦ cleanText (p.text source)).filter
        (!·.isEmpty) ∧
    ((Node.ofTree source t).children.filterMap Node.text?).flatMap ink =
      ((contentPieces t).filter Piece.isGap).flatMap fun p ↦ ink (p.text source) := by
  have htiles : Tiles (contentStart t) (contentStop t) (contentPieces t) :=
    tiles_piecesAround (h.sublist List.filter_sublist)
  have hchildren : (Node.ofTree source t).children =
      (contentPieces t).flatMap (Piece.nodes source) := by
    rw [children_ofTree hkind, contentOf_eq, contentPieces, filter_isStructural_contentChildren]
  have htexts := filterMap_text?_nodes source (contentPieces t)
  rw [← hchildren] at htexts
  refine ⟨hchildren, filterMap_child?_piecesAround _ _ _, htiles, htiles.flatMap_text,
    htiles.countP_covers, fun c hc hplain ↦ exists_gap h hc hplain, htexts, ?_⟩
  rw [htexts, flatMap_ink_filter, List.flatMap_map]
  exact congrArg (List.flatMap · _) (funext fun p ↦ ink_cleanText _)

def noteSource : Text := "<p>Zoë &amp; <b/>\n  \x7bn\x7d // ok\n</p>"

/-- Text, a reference, an element, an expression and a comment between two tags. -/
def noteElement : Tree :=
  .node .element .none 0 34
    [.node .openingTag .none 0 3 [.node .identifier .name 1 2 []],
     .node .text .none 3 7 [],
     .node .characterReference .none 7 12 [],
     .node .selfClosingElement .none 13 17 [.node .identifier .name 14 15 []],
     .node .container .none 20 23 [.node .identifier .none 21 22 []],
     .node .comment .none 24 29 [],
     .node .closingTag .none 30 34 [.node .identifier .name 32 33 []]]

theorem contentPieces_tile_noteElement :
    Ordered (contentStart noteElement) (contentStop noteElement) (contentChildren noteElement) ∧
    (Node.ofTree noteSource noteElement).children =
      [.text "Zoë &amp; ", nodeOf noteSource (.node .selfClosingElement .none 13 17
          [.node .identifier .name 14 15 []]),
        nodeOf noteSource (.node .container .none 20 23 [.node .identifier .none 21 22 []]),
        .text " // ok"] ∧
    (contentPieces noteElement).map (Piece.text noteSource) =
      ["Zoë &amp; ", "<b/>", "\n  ", "\x7bn\x7d", " // ok\n"] := by
  have h : Ordered (contentStart noteElement) (contentStop noteElement)
      (contentChildren noteElement) := by decide
  refine ⟨h, ?_, by decide⟩
  rw [(contentPieces_tile noteSource rfl h).1]
  rfl

end ViewForge.Markup
