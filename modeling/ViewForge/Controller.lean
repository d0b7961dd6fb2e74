import ViewForge.Component.Basic

namespace ViewForge.Controller

open Text Markup

/-- The handlers of a component with their bindings, in the order of their first binding. -/
def handlers (events : List EventBinding) : List (Text × List EventBinding) :=
  events.foldl
    (fun groups e ↦
      if groups.any (·.1 == e.handler) then
        groups.map fun (h, bs) ↦ if h == e.handler then (h, bs ++ [e]) else (h, bs)
      else groups ++ [(e.handler, [e])])
    []

/-- Stubs for components whose name holds one of some words. -/
def suggestedStubs : List (List Text × List (Text × Text)) :=
  [(["button"],
    [("toggleActive", "Toggles the active state"),
     ("setLoading", "Shows or hides a loading state")]),
   (["input", "field"],
    [("clear", "Clears the input value"),
     ("setValidationState", "Marks the input valid or invalid")]),
   (["dropdown", "menu"],
    [("toggle", "Toggles the menu"), ("open", "Opens the menu"), ("close", "Closes the menu")])]

/-- Texts by their characters, without repetition. -/
def sortedNames (names : List Text) : List Text :=
  (names.mergeSort fun a b ↦ !decide (b < a)).eraseReps

def opening (head : Text) : Text := "  " ++ head ++ " \x7b"

def lifecycleMethod (identifier name event : Text) : List Text :=
  [opening (name ++ "()"), "    console.log(\"" ++ identifier ++ " controller " ++ event ++ "\")",
   "  \x7d"]

def handlerMethod (identifier : Text) (handler : Text) (bindings : List EventBinding) : List Text :=
  let events := join ", " (sortedNames (bindings.map (·.event)))
  let params := (bindings.head?.map (·.params)).getD []
  let event := (bindings.head?.map (·.event)).getD []
  ["  // Handles " ++ events ++ " (data-action=\"" ++ event ++ "->" ++ identifier ++ "#" ++ handler ++
    "\")"] ++
    (if params.isEmpty then [] else ["  // Original callback parameters: " ++ join ", " params]) ++
    [opening (handler ++ "(event)"), "    // TODO: port the handler logic", "  \x7d"]

def stubs (name : Text) (taken : List Text) : List (Text × Text) :=
  (suggestedStubs.filter fun s ↦ s.1.any (occursIn · (lower name))).flatMap fun s ↦
    s.2.filter fun m ↦ !taken.contains m.1

def stubMethod (stub : Text × Text) : List Text :=
  ["  // " ++ stub.2, opening (stub.1 ++ "()"), "  \x7d"]

/-- The names of the methods that a controller declares for handlers and stubs. -/
def methods (c : Component) : List (List Text) :=
  let identifier := c.controllerIdentifier
  let groups := handlers c.events
  [lifecycleMethod identifier "connect" "connected",
   lifecycleMethod identifier "disconnect" "disconnected"] ++
    groups.map (fun (h, bs) ↦ handlerMethod identifier h bs) ++
    (stubs c.name (groups.map (·.1))).map stubMethod

def separated : List (List Text) → List Text
  | [] => []
  | [g] => g
  | g :: r => g ++ [] :: separated r

def file (c : Component) : Text :=
  let header : List Text :=
    ["import \x7b Controller \x7d from \"@hotwired/stimulus\"", [],
     "// Connects to data-controller=\"" ++ c.controllerIdentifier ++ "\"",
     "export default class extends Controller \x7b"]
  unlines (header ++ separated (methods c) ++ [['}']]) ++ "\n"

end ViewForge.Controller
