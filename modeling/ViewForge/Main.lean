import ViewForge.Project.Command

open ViewForge ViewForge.Project

def placeOf (path : String) : Place := (Path.ofText path.toList).segments

def pathOf (place : Place) : String := String.ofList (Path.ofPlace place).toText

/-- Reads a directory and everything below it. -/
partial def readTree (path : String) : IO (List (Place × Entry)) := do
  let here ← IO.currentDir
  let mut found : List (Place × Entry) := [(placeOf path, .directory)]
  for entry in ← (here / path).readDir do
    let inner := entry.path.toString
    if ← entry.path.isDir then found := found ++ (← readTree inner)
    else found := found ++ [(placeOf inner, .file (← IO.FS.readBinFile inner).toList)]
  return found

def readAbove (place : Place) : IO (List (Place × Entry)) := do
  let here ← IO.currentDir
  let mut found : List (Place × Entry) := []
  for above in ancestors place do
    found := found ++ [(above, .directory)]
    let settings := above ++ [settingsFile]
    if ← (here / pathOf settings).pathExists then
      found := found ++ [(settings, .file (← IO.FS.readBinFile (pathOf settings)).toList)]
  return found

def namedDirectories (words : List String) : IO (List String) := do
  let here ← IO.currentDir
  let mut found : List String := []
  for word in words do
    let path := here / String.ofList ((splitValue word.toList).2.getD word.toList)
    if ← path.isDir then found := found ++ [path.toString]
  return found

def readStore (words : List String) : IO Store := do
  let here := (← IO.currentDir).toString
  let mut entries ← readAbove (placeOf here)
  for directory in here :: (← namedDirectories words) do
    entries := entries ++ (← readAbove (placeOf directory)) ++ (← readTree directory)
  return { current := placeOf here, entries := Assoc.ofList entries }

def writeChanges (before after : Store) : IO Unit := do
  for (place, entry) in after.entries do
    if before.get? place != some entry then
      match entry with
      | .directory => IO.FS.createDirAll (pathOf place)
      | .file bytes => IO.FS.writeBinFile (pathOf place) (ByteArray.mk bytes.toArray)

def printedText : Printed → Text
  | .line t => unstyled t
  | .table title columns rows =>
    Text.unlines (title :: (columns :: rows).map fun cells ↦ Text.join " | " (cells.map unstyled))

def main (words : List String) : IO UInt32 := do
  let store ← readStore words
  let command := Command.ofWords (words.map String.toList)
  let (result, session) := command.run.run { store }
  writeChanges store session.store
  IO.print (String.ofList session.stdout)
  for (_, message) in session.logs do
    IO.eprintln (String.ofList (unstyled message))
  for p in session.printed do
    IO.eprintln (String.ofList (printedText p))
  match result with
  | .ok code => return .ofNat code.number
  | .error failure => do
    IO.eprintln (String.ofList failure.message)
    return 1
