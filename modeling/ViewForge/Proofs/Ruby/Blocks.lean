import ViewForge.Proofs.Warnings
import ViewForge.Ruby.Block

namespace ViewForge.Ruby

open Text

def isIdentifierPart (c : Char) : Bool := c.isAlphanum || c == '_' || 127 < c.toNat

def isIndent (c : Char) : Bool := c == ' ' || c == '\t'

def leadingWord (line : Text) : Text := (line.dropWhile isIndent).takeWhile isIdentifierPart

def indentation (line : Text) : Nat := (line.takeWhile (· == ' ')).length

def isOpener (line : Text) : Bool :=
  ["module".toList, "class".toList, "def".toList, "case".toList].contains (leadingWord line)

def isCloser (line : Text) : Bool := leadingWord line == "end".toList

/-- How many blocks are open behind a line, if it is indented as the blocks around it ask. No
indentation fits an `end` where nothing is open. -/
def readLine (depth : Nat) (line : Text) : Option Nat :=
  if isOpener line then if indentation line = 2 * depth then some (depth + 1) else none
  else if isCloser line then if indentation line + 2 = 2 * depth then some (depth - 1) else none
  else some depth

def IsBalanced (file : Text) : Prop := (lines file).foldlM readLine 0 = some 0

instance : DecidablePred IsBalanced := fun _ ↦ inferInstanceAs (Decidable (_ = _))

structure IsPlain (line : Text) : Prop where
  unbroken : '\n' ∉ line
  opener : isOpener line = false
  closer : isCloser line = false

/-- A line that opens a block and is not indented by itself. -/
structure IsHead (line : Text) : Prop where
  unbroken : '\n' ∉ line
  opener : isOpener line = true
  solid : line.head? ≠ some ' '

section Reading

variable {line : Text} {depth : Nat}

theorem leadingWord_indented (depth : Nat) (line : Text) :
    leadingWord (indented depth line) = leadingWord line := by
  rw [leadingWord, leadingWord, indented]
  generalize 2 * depth = n
  induction n with
  | zero => rfl
  | succ n ih =>
    rw [List.replicate_succ, List.cons_append, List.dropWhile_cons_of_pos rfl]
    exact ih

theorem isOpener_indented (depth : Nat) (line : Text) :
    isOpener (indented depth line) = isOpener line := by
  rw [isOpener, leadingWord_indented, isOpener]

theorem isCloser_indented (depth : Nat) (line : Text) :
    isCloser (indented depth line) = isCloser line := by
  rw [isCloser, leadingWord_indented, isCloser]

theorem indentation_indented (depth : Nat) (line : Text) :
    indentation (indented depth line) = 2 * depth + indentation line := by
  rw [indentation, indentation, indented]
  generalize 2 * depth = n
  induction n with
  | zero => simp
  | succ n ih =>
    rw [List.replicate_succ, List.cons_append, List.takeWhile_cons_of_pos rfl, List.length_cons, ih]
    omega

theorem IsHead.indentation_eq (h : IsHead line) : indentation line = 0 := by
  rw [indentation, List.length_eq_zero_iff]
  cases line with
  | nil => rfl
  | cons c r =>
    have hc : c ≠ ' ' := fun hc ↦ h.solid (congrArg some hc)
    exact List.takeWhile_cons_of_neg (by simpa using hc)

theorem IsPlain.readLine_eq (h : IsPlain line) (depth found : Nat) :
    readLine found (indented depth line) = some found := by
  rw [readLine, isOpener_indented, h.opener, isCloser_indented, h.closer]
  rfl

theorem IsHead.readLine_eq (h : IsHead line) (depth : Nat) :
    readLine depth (indented depth line) = some (depth + 1) := by
  rw [readLine, isOpener_indented, h.opener, if_pos rfl, indentation_indented, h.indentation_eq,
    Nat.add_zero, if_pos rfl]

theorem readLine_end (depth found : Nat) :
    readLine found (indented depth "end") = if found = depth + 1 then some depth else none := by
  have hopener : isOpener "end" = false := by decide
  have hcloser : isCloser "end" = true := by decide
  have hindent : indentation (indented depth "end") = 2 * depth := indentation_indented depth "end"
  rw [readLine, isOpener_indented, isCloser_indented, hindent, hopener, hcloser]
  by_cases heq : found = depth + 1
  · rw [heq, if_neg Bool.false_ne_true, if_pos rfl, if_pos (by omega), if_pos rfl]
    rfl
  · rw [if_neg heq, if_neg Bool.false_ne_true, if_pos rfl, if_neg (by omega)]

/-- A line inside a block that is not plain leaves another depth than it found. -/
theorem readLine_ne (h : isOpener line = true ∨ isCloser line = true) (depth : Nat) :
    readLine (depth + 1) (indented (depth + 1) line) ≠ some (depth + 1) := by
  rw [readLine, isOpener_indented, isCloser_indented, indentation_indented]
  cases hopener : isOpener line with
  | true =>
    rw [if_pos rfl]
    split <;> simp
  | false =>
    -- A line of the block's own depth stands too far in for an `end`.
    rw [if_neg Bool.false_ne_true, if_pos (h.resolve_left (by simp [hopener])), if_neg (by omega)]
    exact nofun

theorem isHead_append {word : Text} {rest : Text}
    (hword : word ∈ [("module " : Text), "class ", "def ", "case "]) (hrest : '\n' ∉ rest) :
    IsHead (word ++ rest) := by
  simp only [List.mem_cons, List.not_mem_nil, or_false] at hword
  rcases hword with rfl | rfl | rfl | rfl
  all_goals
    refine ⟨fun hmem ↦ ?_, rfl, by simp⟩
    rcases List.mem_append.1 hmem with hmem | hmem
    · exact absurd hmem (by decide)
    · exact hrest hmem

end Reading

/-- The depth that statements lead to from each depth, where no line of theirs is broken. -/
def Leads (stmts : List Stmt) (result : Nat → Option Nat) : Prop :=
  ∀ depth, (∀ l ∈ stmtsLines depth stmts, '\n' ∉ l) ∧
    (stmtsLines depth stmts).foldlM readLine depth = result depth

def Keeps (stmts : List Stmt) : Prop := Leads stmts some

def Fails (stmts : List Stmt) : Prop := Leads stmts fun _ ↦ none

section Blocks

variable {stmts more : List Stmt} {gs : List (List Stmt)} {result : Nat → Option Nat}
  {head line : Text}

theorem keeps_nil : Keeps [] := fun _ ↦ ⟨nofun, rfl⟩

theorem keeps_blank : Keeps [.blank] := fun _ ↦ ⟨List.forall_mem_singleton.2 nofun, rfl⟩

theorem Keeps.append (h : Keeps stmts) (hmore : Leads more result) :
    Leads (stmts ++ more) result := by
  intro depth
  rw [stmtsLines_append, List.forall_mem_append, List.foldlM_append, (h depth).2]
  exact ⟨⟨(h depth).1, (hmore depth).1⟩, (hmore depth).2⟩

theorem Fails.append (h : Fails stmts) (hmore : Leads more result) : Fails (stmts ++ more) := by
  intro depth
  rw [stmtsLines_append, List.forall_mem_append, List.foldlM_append, (h depth).2]
  exact ⟨⟨(h depth).1, (hmore depth).1⟩, rfl⟩

theorem not_mem_indented {depth : Nat} (h : '\n' ∉ line) : '\n' ∉ indented depth line := by
  intro hmem
  rcases List.mem_append.1 hmem with hmem | hmem
  · cases List.eq_of_mem_replicate hmem
  · exact h hmem

theorem IsPlain.keeps (h : IsPlain line) : Keeps [.line line] := by
  intro depth
  have hlines : stmtsLines depth [.line line] = [indented depth line] := rfl
  rw [hlines, List.forall_mem_singleton, List.foldlM_cons, h.readLine_eq]
  exact ⟨not_mem_indented h.unbroken, rfl⟩

theorem keeps_map {α : Type} {xs : List α} {f : α → Text} (h : ∀ x ∈ xs, IsPlain (f x)) :
    Keeps (xs.map fun x ↦ .line (f x)) := by
  induction xs with
  | nil => exact keeps_nil
  | cons x xs ih =>
    rw [List.forall_mem_cons] at h
    exact h.1.keeps.append (ih h.2)

theorem IsHead.block (hhead : IsHead head) (h : Leads stmts result) :
    Leads [.block head stmts] fun depth ↦
      (result (depth + 1)).bind fun found ↦ if found = depth + 1 then some depth else none := by
  intro depth
  have hlines : stmtsLines depth [.block head stmts] =
      indented depth head :: (stmtsLines (depth + 1) stmts ++ [indented depth "end"]) :=
    List.append_nil _
  rw [hlines, List.forall_mem_cons, List.forall_mem_append, List.forall_mem_singleton]
  refine ⟨⟨not_mem_indented hhead.unbroken, (h (depth + 1)).1, not_mem_indented (by decide)⟩, ?_⟩
  rw [List.foldlM_cons, hhead.readLine_eq, Option.bind_eq_bind, Option.bind_some,
    List.foldlM_append, (h (depth + 1)).2]
  congr 1
  funext found
  rw [List.foldlM_cons, readLine_end]
  split <;> rfl

theorem IsHead.keeps_block (hhead : IsHead head) (h : Keeps stmts) :
    Keeps [.block head stmts] := by
  intro depth
  simpa using hhead.block h depth

theorem IsHead.fails_block (hhead : IsHead head) (h : Leads stmts result)
    (hne : ∀ depth, result (depth + 1) ≠ some (depth + 1)) : Fails [.block head stmts] := by
  intro depth
  obtain ⟨hlines, hresult⟩ := hhead.block h depth
  refine ⟨hlines, hresult.trans ?_⟩
  have hout := hne depth
  dsimp only
  cases hfound : result (depth + 1) with
  | none => rfl
  | some found => exact if_neg fun heq ↦ hout (hfound.trans (congrArg some heq))

theorem foldlM_plain {ls : List Text} (h : ∀ l ∈ ls, IsPlain l) (depth found : Nat) :
    (ls.map (indented depth)).foldlM readLine found = some found := by
  induction ls with
  | nil => rfl
  | cons l ls ih =>
    rw [List.forall_mem_cons] at h
    rw [List.map_cons, List.foldlM_cons, h.1.readLine_eq]
    exact ih h.2

theorem IsHead.keeps_branches (hhead : IsHead head) {ls : List Text} (h : ∀ l ∈ ls, IsPlain l) :
    Keeps [.branches head ls] := by
  intro depth
  have hlines : stmtsLines depth [.branches head ls] =
      indented depth head :: (ls.map (indented depth) ++ [indented depth "end"]) :=
    List.append_nil _
  rw [hlines, List.forall_mem_cons, List.forall_mem_append, List.forall_mem_map,
    List.forall_mem_singleton]
  refine ⟨⟨not_mem_indented hhead.unbroken, fun l hl ↦ not_mem_indented (h l hl).unbroken,
    not_mem_indented (by decide)⟩, ?_⟩
  rw [List.foldlM_cons, hhead.readLine_eq, Option.bind_eq_bind, Option.bind_some,
    List.foldlM_append, foldlM_plain h, Option.bind_eq_bind, Option.bind_some, List.foldlM_cons,
    readLine_end, if_pos rfl]
  rfl

theorem keeps_method {signature : Text} {body : List Text} (hsignature : '\n' ∉ signature)
    (h : ∀ l ∈ body, IsPlain l) : Keeps [method signature body] := by
  refine (isHead_append (by decide) hsignature).keeps_block ?_
  induction body with
  | nil => exact keeps_nil
  | cons l body ih =>
    rw [List.forall_mem_cons] at h
    rw [List.map_cons]
    cases l with
    | nil => exact keeps_blank.append (ih h.2)
    | cons c r => exact h.1.keeps.append (ih h.2)

/-- A method of one line that reads as the head or the end of a block. -/
theorem fails_method {signature : Text} (hsignature : '\n' ∉ signature) (hunbroken : '\n' ∉ line)
    (h : isOpener line = true ∨ isCloser line = true) : Fails [method signature [line]] := by
  have hbody : Leads [.line line] fun depth ↦ readLine depth (indented depth line) := fun depth ↦
    ⟨List.forall_mem_singleton.2 (not_mem_indented hunbroken), bind_pure _⟩
  have hmethod : method signature [line] = .block ("def " ++ signature) [.line line] := by
    cases line with
    | nil => exact absurd h (by decide)
    | cons c r => rfl
  rw [hmethod]
  exact (isHead_append (by decide) hsignature).fails_block hbody (readLine_ne h)

theorem keeps_inModules {names : List Text} (hnames : ∀ n ∈ names, '\n' ∉ n) (h : Keeps stmts) :
    Keeps (inModules names stmts) := by
  induction names with
  | nil => exact h
  | cons n names ih =>
    rw [List.forall_mem_cons] at hnames
    exact (isHead_append (by decide) hnames.1).keeps_block (ih hnames.2)

theorem fails_inModules {names : List Text} (hnames : ∀ n ∈ names, '\n' ∉ n) (h : Fails stmts) :
    Fails (inModules names stmts) := by
  induction names with
  | nil => exact h
  | cons n names ih =>
    rw [List.forall_mem_cons] at hnames
    exact (isHead_append (by decide) hnames.1).fails_block (ih hnames.2) fun _ ↦ nofun

theorem keeps_separated (h : ∀ g ∈ gs, Keeps g) : Keeps (separated gs) := by
  induction gs with
  | nil => exact keeps_nil
  | cons g gs ih =>
    rw [List.forall_mem_cons] at h
    cases gs with
    | nil => exact h.1
    | cons g' gs => exact h.1.append (keeps_blank.append (ih h.2))

theorem keeps_or_fails_separated (h : ∀ g ∈ gs, Keeps g ∨ Fails g) :
    Keeps (separated gs) ∨ Fails (separated gs) := by
  induction gs with
  | nil => exact .inl keeps_nil
  | cons g gs ih =>
    rw [List.forall_mem_cons] at h
    cases gs with
    | nil => exact h.1
    | cons g' gs =>
      rcases h.1, ih h.2 with ⟨hg | hg, hrest | hrest⟩
      · exact .inl (hg.append (keeps_blank.append hrest))
      · exact .inr (hg.append (keeps_blank.append hrest))
      · exact .inr (hg.append (keeps_blank.append hrest))
      · exact .inr (hg.append (keeps_blank.append hrest))

theorem fails_separated (h : ∀ g ∈ gs, Keeps g ∨ Fails g) {bad : List Stmt} (hbad : bad ∈ gs)
    (hfails : Fails bad) : Fails (separated gs) := by
  induction gs with
  | nil => cases hbad
  | cons g gs ih =>
    rw [List.forall_mem_cons] at h
    cases gs with
    | nil => rwa [← List.mem_singleton.1 hbad]
    | cons g' gs =>
      obtain ⟨result, hrest⟩ : ∃ result, Leads (separated (g' :: gs)) result :=
        (keeps_or_fails_separated h.2).elim (fun hrest ↦ ⟨_, hrest⟩) fun hrest ↦ ⟨_, hrest⟩
      rcases List.mem_cons.1 hbad with rfl | hbad
      · exact hfails.append (keeps_blank.append hrest)
      · rcases h.1 with hg | hg
        · exact hg.append (keeps_blank.append (ih h.2 hbad))
        · exact hg.append (keeps_blank.append hrest)

theorem lines_of_not_mem (h : '\n' ∉ line) : lines line = [line] :=
  splitBy_of_none fun _ hc ↦ beq_eq_false_iff_ne.2 fun heq ↦ h (heq ▸ hc)

theorem isBalanced_fileText (h : Leads stmts result) :
    IsBalanced (fileText stmts) ↔ result 0 = some 0 := by
  obtain ⟨hunbroken, hresult⟩ := h 0
  rw [IsBalanced, ← hresult]
  cases hprinted : stmtsLines 0 stmts with
  | nil =>
    rw [fileText, hprinted]
    exact iff_of_true rfl rfl
  | cons l ls =>
    have hself : (stmtsLines 0 stmts).flatMap lines = stmtsLines 0 stmts := by
      rw [List.flatMap_congr fun l hl ↦ lines_of_not_mem (hunbroken l hl), List.flatMap_singleton']
    have hlines : lines (fileText stmts) = stmtsLines 0 stmts ++ [[]] :=
      (lines_unlines_break (by simp [hprinted]) []).trans (congrArg (· ++ [[]]) hself)
    -- The last line is empty and changes nothing.
    rw [hlines, hprinted, List.foldlM_append]
    exact Iff.of_eq (congrArg (· = some 0) (bind_pure _))

end Blocks

end ViewForge.Ruby
