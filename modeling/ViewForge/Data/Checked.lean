import ViewForge.Data.Value
import ViewForge.Text.Letter

namespace ViewForge

open Text

inductive Problem where
  | missing
  | notString
  | notList
  | notTable
  | notBoolean
  | unclearBoolean
  | notPath
  | notOneOf (options : List Text)
  | badNamespace (raw : Text)
  deriving DecidableEq, Repr

def quotedOptions : List Text → Text
  | [] => []
  | [a] => '\'' :: a ++ ['\'']
  | [a, b] => "'" ++ a ++ "' or '" ++ b ++ "'"
  | a :: r => "'" ++ a ++ "', " ++ quotedOptions r

def Problem.message : Problem → Text
  | .missing => "Field required"
  | .notString => "Input should be a valid string"
  | .notList => "Input should be a valid list"
  | .notTable => "Input should be a valid dictionary"
  | .notBoolean => "Input should be a valid boolean"
  | .unclearBoolean => "Input should be a valid boolean, unable to interpret input"
  | .notPath => "Input is not a valid path for <class 'pathlib.Path'>"
  | .notOneOf options => "Input should be " ++ quotedOptions options
  | .badNamespace raw =>
    "Value error, Invalid namespace: '" ++ raw ++
      "'. Expected a Ruby constant path such as 'Ui' or 'Admin::Forms'."

/-- A problem and the path to it, outermost field first. -/
structure Fault where
  path : List Text
  problem : Problem
  deriving DecidableEq, Repr

def Fault.message (f : Fault) : Text := join "." f.path ++ ": " ++ f.problem.message

def faultsMessage (faults : List Fault) : Text :=
  join "; " ((faults.map Fault.message).mergeSort fun a b ↦ !decide (b < a))

abbrev Checked (α : Type) := Except (List Fault) α

namespace Checked

variable {α β : Type}

def fault (p : Problem) : Checked α := .error [⟨[], p⟩]

def ap (f : Checked (α → β)) (x : Checked α) : Checked β :=
  match f, x with
  | .ok g, .ok a => .ok (g a)
  | .error e, .ok _ => .error e
  | .ok _, .error e => .error e
  | .error e, .error e' => .error (e ++ e')

def inField (name : Text) (x : Checked α) : Checked α :=
  x.mapError fun faults ↦ faults.map fun f ↦ { f with path := name :: f.path }

def each (check : Data → Checked α) (index : Nat) : List Data → Checked (List α)
  | [] => .ok []
  | d :: r => ap (ap (.ok List.cons) (inField (ofNat index) (check d))) (each check (index + 1) r)

def field (entries : List (Text × Data)) (name : Text) (check : Data → Checked α) (default : α) :
    Checked α :=
  match Data.get? entries name with
  | none => .ok default
  | some d => inField name (check d)

def required (entries : List (Text × Data)) (name : Text) (check : Data → Checked α) :
    Checked α :=
  match Data.get? entries name with
  | none => inField name (fault .missing)
  | some d => inField name (check d)

end Checked

namespace Data

open Checked

variable {α : Type}

def asText : Data → Checked Text
  | .text t => .ok t
  | _ => fault .notString

def asOptional (check : Data → Checked α) : Data → Checked (Option α)
  | .null => .ok none
  | d => (check d).map some

def asList (check : Data → Checked α) : Data → Checked (List α)
  | .list items => each check 0 items
  | _ => fault .notList

def asTable : Data → Checked (List (Text × Data))
  | .table entries => .ok entries
  | _ => fault .notTable

def trueWords : List Text := ["1", "on", "t", "true", "y", "yes"]

def falseWords : List Text := ["0", "off", "f", "false", "n", "no"]

/-- Truth values, the numbers 0 and 1, and the words that stand for them in any case. -/
def asBool : Data → Checked Bool
  | .bool b => .ok b
  | .integer n => if n == 1 then .ok true else if n == 0 then .ok false else fault .unclearBoolean
  | .text t =>
    if trueWords.contains (lower t) then .ok true
    else if falseWords.contains (lower t) then .ok false
    else fault .unclearBoolean
  | _ => fault .notBoolean

def asOneOf (options : List (Text × α)) : Data → Checked α
  | .text t =>
    match Assoc.get? t options with
    | some a => .ok a
    | none => fault (.notOneOf (options.map (·.1)))
  | _ => fault (.notOneOf (options.map (·.1)))

end Data

end ViewForge
