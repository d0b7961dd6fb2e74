import ViewForge.Proofs.Erb.Control

namespace ViewForge.Erb

open Text Markup

/-- What a run writes: text character by character, and every tag, comment and output as it
stands in the template. -/
inductive Event where
  | char (c : Char)
  | token (k : Token)
  deriving DecidableEq, Repr

def Token.events (k : Token) : List Event :=
  if k.kind = .text then k.text.map .char else [.token k]

inductive Command where
  | emit (event : Event)
  | choose (test : Text) (yes no : List Command)
  | each (receiver : Text) (names : List Text) (body : List Command)

/-- An environment tells in each state which conditions hold, and for each loop the states in
which its body is run, one for each element. -/
structure Env (σ : Type) where
  holds : σ → Text → Bool
  each : σ → Text → List Text → List σ

mutual

def Command.run {σ : Type} (env : Env σ) (s : σ) : Command → List Event
  | .emit event => [event]
  | .choose test yes no => if env.holds s test then runAll env s yes else runAll env s no
  | .each receiver names body => (env.each s receiver names).flatMap fun s' ↦ runAll env s' body

def runAll {σ : Type} (env : Env σ) (s : σ) : List Command → List Event
  | [] => []
  | c :: r => c.run env s ++ runAll env s r

end

/-- A directive whose `end` is still to come, with the commands before it. -/
inductive Opening where
  | branch (before : List Command) (test : Text)
  | alternative (before : List Command) (test : Text) (yes : List Command)
  | loop (before : List Command) (receiver : Text) (names : List Text)

def Opening.close (body : List Command) : Opening → List Command
  | .branch before test => before ++ [.choose test body []]
  | .alternative before test yes => before ++ [.choose test yes body]
  | .loop before receiver names => before ++ [.each receiver names body]

/-- A program read up to some place: the commands since the last open directive. -/
structure Reading where
  body : List Command := []
  openings : List Opening := []

def Control.read : Control → Reading → Option Reading
  | .condition test, ⟨body, openings⟩ => some ⟨[], .branch body test :: openings⟩
  | .repetition receiver names, ⟨body, openings⟩ =>
    some ⟨[], .loop body receiver names :: openings⟩
  | .otherwise, ⟨body, .branch before test :: openings⟩ =>
    some ⟨[], .alternative before test body :: openings⟩
  | .close, ⟨body, opening :: openings⟩ => some ⟨opening.close body, openings⟩
  | _, _ => none

def readToken (r : Reading) (k : Token) : Option Reading :=
  if k.kind = .code then k.control.read r
  else some { r with body := r.body ++ k.events.map .emit }

def program? (ts : List Token) : Option (List Command) :=
  (ts.foldlM readToken {}).bind fun r ↦ if r.openings.isEmpty then some r.body else none

def runTemplate {σ : Type} (env : Env σ) (s : σ) (template : Text) : Option (List Event) :=
  (program? (tokenize template)).map (runAll env s)

theorem runAll_append {σ : Type} (env : Env σ) (s : σ) (a b : List Command) :
    runAll env s (a ++ b) = runAll env s a ++ runAll env s b := by
  induction a with
  | nil => rfl
  | cons c a ih => rw [List.cons_append, runAll, runAll, ih, List.append_assoc]

theorem runAll_emit {σ : Type} (env : Env σ) (s : σ) (events : List Event) :
    runAll env s (events.map .emit) = events := by
  induction events with
  | nil => rfl
  | cons e events ih =>
    rw [List.map_cons, runAll, ih, Command.run]
    rfl

theorem readToken_text (r : Reading) (t : Text) :
    readToken r ⟨.text, t⟩ = some { r with body := r.body ++ (t.map Event.char).map .emit } := rfl

theorem program?_joinTexts (ts : List Token) : program? (joinTexts ts) = program? ts := by
  have hnil (r : Reading) : readToken r ⟨.text, []⟩ = some r := by
    rw [readToken_text, List.map_nil, List.map_nil, List.append_nil]
  have happend (r : Reading) (t u : Text) :
      (readToken r ⟨.text, t⟩ >>= fun r' ↦ readToken r' ⟨.text, u⟩) =
        readToken r ⟨.text, t ++ u⟩ := by
    simp [readToken_text]
  rw [program?, program?, run_joinTexts hnil happend]

end ViewForge.Erb
