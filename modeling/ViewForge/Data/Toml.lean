import ViewForge.Data.Value
import ViewForge.Text.Letter

namespace ViewForge.Toml

open Text

abbrev Reader := StateT Text Option

def peek : Reader (Option Char) := do return (← get).head?

def take (c : Char) : Reader Unit := do
  match ← get with
  | d :: r => if c == d then set r else failure
  | [] => failure

def takeText (t : Text) : Reader Unit := do
  if startsWith (← get) t then modify (·.drop t.length) else failure

def skipWhile (p : Char → Bool) : Reader Unit := modify (·.dropWhile p)

def isSpace (c : Char) : Bool := c == ' ' || c == '\t'

def skipSpace : Reader Unit := skipWhile isSpace

def isControl (c : Char) : Bool := (c.toNat < 32 && c != '\t') || c.toNat == 127

def skipComment : Reader Unit := do
  if (← peek) == some '#' then
    let (comment, rest) := (← get).span (· != '\n')
    if comment.any isControl then failure else set rest

def skipLinesUpTo : Nat → Reader Unit
  | 0 => pure ()
  | n + 1 => do
    skipWhile fun c ↦ isSpace c || c == '\n'
    if (← peek) == some '#' then
      skipComment
      skipLinesUpTo n

def skipLines : Reader Unit := do skipLinesUpTo (← get).length

def hexValue? (c : Char) : Option Nat :=
  if isAsciiDigit c then some (c.toNat - '0'.toNat)
  else if 'a' ≤ c && c ≤ 'f' then some (c.toNat - 'a'.toNat + 10)
  else if 'A' ≤ c && c ≤ 'F' then some (c.toNat - 'A'.toNat + 10)
  else none

def digitsValue? (base : Nat) (t : Text) : Option Nat :=
  t.foldlM (fun n c ↦ do
    let d ← hexValue? c
    if d < base then some (n * base + d) else none) 0

def numberedChar? (digits : Text) : Option Char := do
  let n ← digitsValue? 16 digits
  if n < 0xD800 || (0xDFFF < n && n < 0x110000) then some (Char.ofNat n) else none

def plainEscapes : List (Char × Char) :=
  [('b', '\x08'), ('t', '\t'), ('n', '\n'), ('f', '\x0c'), ('r', '\r'), ('"', '"'), ('\\', '\\')]

/-- The character that an escape stands for, and the length of the escape behind its
backslash. -/
def escape? (t : Text) : Option (Char × Nat) :=
  match t with
  | 'u' :: r => if r.length < 4 then none else (numberedChar? (r.take 4)).map (·, 5)
  | 'U' :: r => if r.length < 8 then none else (numberedChar? (r.take 8)).map (·, 9)
  | c :: _ => (Assoc.get? c plainEscapes).map (·, 1)
  | [] => none

def lineJoin? (t : Text) : Option Nat :=
  let gap := t.takeWhile fun c ↦ isSpace c || c == '\n'
  if (gap.dropWhile isSpace).head? == some '\n' then some gap.length else none

/-- The content of a basic string and what follows it; `skip` characters are already read. -/
def basicFrom : Nat → Text → Option (Text × Text)
  | _, [] => none
  | k + 1, _ :: r => basicFrom k r
  | 0, c :: r =>
    if c == '"' then some ([], r)
    else if c == '\\' then do
      let (d, n) ← escape? r
      let (content, rest) ← basicFrom n r
      return (d :: content, rest)
    else if isControl c then none
    else do
      let (content, rest) ← basicFrom 0 r
      return (c :: content, rest)

/-- The content of a string of several lines; two more quotes may stand before the closing
three. -/
def multilineFrom (quote : Char) : Nat → Text → Option (Text × Text)
  | _, [] => none
  | k + 1, _ :: r => multilineFrom quote k r
  | 0, c :: r =>
    let quotes := ((c :: r).takeWhile (· == quote)).length
    if 3 ≤ quotes then
      let extra := min (quotes - 3) 2
      some (List.replicate extra quote, (c :: r).drop (extra + 3))
    else if c == '\\' && quote == '"' then
      match lineJoin? r with
      | some n => multilineFrom quote n r
      | none => do
        let (d, n) ← escape? r
        let (content, rest) ← multilineFrom quote n r
        return (d :: content, rest)
    else if isControl c && c != '\n' then none
    else do
      let (content, rest) ← multilineFrom quote 0 r
      return (c :: content, rest)

def content (result : Option (Text × Text)) : Reader Text :=
  match result with
  | some (t, rest) => do
    set rest
    return t
  | none => failure

/-- A string of several lines, behind its opening quotes; a line break right there is no part
of it. -/
def multiline (quote : Char) : Reader Text := do
  let t ← get
  content (multilineFrom quote 0 (if t.head? == some '\n' then t.drop 1 else t))

def basicString : Reader Text := do
  take '"'
  content (basicFrom 0 (← get))

def literalString : Reader Text := do
  take '\''
  let (t, rest) := (← get).span (· != '\'')
  if t.any isControl then failure
  set rest
  take '\''
  return t

def string : Reader Text := do
  let t ← get
  if startsWith t "\"\"\"" then
    takeText "\"\"\""
    multiline '"'
  else if startsWith t "'''" then
    takeText "'''"
    multiline '\''
  else if t.head? == some '"' then basicString
  else literalString

def isBareChar (c : Char) : Bool := isAsciiLetter c || isAsciiDigit c || c == '_' || c == '-'

def keyPart : Reader Text := do
  match ← peek with
  | some '"' => basicString
  | some '\'' => literalString
  | _ => do
    let (t, rest) := (← get).span isBareChar
    if t.isEmpty then failure
    set rest
    return t

def keyPartsUpTo : Nat → Reader (List Text)
  | 0 => failure
  | n + 1 => do
    skipSpace
    let first ← keyPart
    skipSpace
    if (← peek) == some '.' then
      take '.'
      return first :: (← keyPartsUpTo n)
    else return [first]

def key : Reader (List Text) := do keyPartsUpTo ((← get).length + 1)

def plainDigits? (t : Text) : Option Text :=
  let groups := splitOn '_' t
  if groups.any (·.isEmpty) then none else some groups.flatten

def decimal? (t : Text) : Option Nat := do
  let digits ← plainDigits? t
  if !digits.all isAsciiDigit || (1 < digits.length && digits.head? == some '0') then none
  else digitsValue? 10 digits

def fraction? (t : Text) : Option Data := do
  let (whole, rest) := t.span fun c ↦ isAsciiDigit c || c == '_'
  let _ ← decimal? whole
  let (places, exponent) :=
    match rest with
    | '.' :: r => r.span fun c ↦ isAsciiDigit c || c == '_'
    | r => ([], r)
  if rest.head? == some '.' then
    let digits ← plainDigits? places
    if !digits.all isAsciiDigit then none
  match exponent with
  | [] => if rest.isEmpty then none else some .fraction
  | e :: r =>
    if e != 'e' && e != 'E' then none
    else
      let unsigned := if r.head? == some '+' || r.head? == some '-' then r.drop 1 else r
      let digits ← plainDigits? unsigned
      if digits.all isAsciiDigit then some .fraction else none

def number? (word : Text) : Option Data :=
  let based (base : Nat) (t : Text) : Option Data := do
    let digits ← plainDigits? t
    let n ← digitsValue? base digits
    return .integer n
  let signed (sign : Int) (t : Text) : Option Data :=
    if t == "inf" || t == "nan" then some .fraction
    else ((decimal? t).map fun n ↦ .integer (sign * n)).or (fraction? t)
  match word with
  | '0' :: 'x' :: r => based 16 r
  | '0' :: 'o' :: r => based 8 r
  | '0' :: 'b' :: r => based 2 r
  | '+' :: r => signed 1 r
  | '-' :: r => signed (-1) r
  | t => signed 1 t

def isNumberChar (c : Char) : Bool :=
  isAsciiDigit c || isAsciiLetter c || c == '_' || c == '+' || c == '-' || c == '.'

def word : Reader Data := do
  let (w, rest) := (← get).span isNumberChar
  set rest
  if w == "true" then return .bool true
  else if w == "false" then return .bool false
  else
    match number? w with
    | some d => return d
    | none => failure

/-- What has been read so far: the values, and which tables may no longer be opened, which will
not be once the next table begins, and which may not be changed at all. -/
structure State where
  root : List (Text × Data) := []
  opened : List (List Text) := []
  pending : List (List Text) := []
  frozen : List (List Text) := []

/-- Changes the table at a path, making tables on the way; of a list of tables the last one is
meant. -/
def update (f : List (Text × Data) → Option (List (Text × Data))) :
    List Text → List (Text × Data) → Option (List (Text × Data))
  | [], entries => f entries
  | k :: rest, entries => do
    match Assoc.get? k entries with
    | none =>
      let inner ← update f rest []
      return Assoc.set k (.table inner) entries
    | some (.table inner) =>
      let inner ← update f rest inner
      return Assoc.set k (.table inner) entries
    | some (.list items) =>
      match items.getLast? with
      | some (.table inner) =>
        let inner ← update f rest inner
        return Assoc.set k (.list (items.dropLast ++ [.table inner])) entries
      | _ => none
    | some _ => none

def insertNew (k : Text) (d : Data) (entries : List (Text × Data)) :
    Option (List (Text × Data)) :=
  if (Assoc.get? k entries).isSome then none else some (Assoc.set k d entries)

def State.isFrozen (s : State) (path : List Text) : Bool := s.frozen.any (·.isPrefixOf path)

def heads (header key : List Text) : List (List Text) :=
  (List.range key.length).drop 1 |>.map fun n ↦ header ++ key.take n

def State.assign (s : State) (header key : List Text) (d : Data) : Option State := do
  let between := heads header key
  if between.any s.opened.contains then none
  let parent := header ++ key.dropLast
  if s.isFrozen parent then none
  let root ← update (insertNew (key.getLastD []) d) parent s.root
  let closed :=
    match d with
    | .table _ | .list _ => [header ++ key]
    | _ => []
  return { s with root, pending := between ++ s.pending, frozen := closed ++ s.frozen }

def State.settle (s : State) : State := { s with opened := s.pending ++ s.opened, pending := [] }

def State.openTable (s : State) (header : List Text) : Option State := do
  let s := s.settle
  if s.opened.contains header || s.isFrozen header then none
  let root ← update some header s.root
  return { s with root, opened := header :: s.opened }

def State.addTable (s : State) (header : List Text) : Option State := do
  let s := s.settle
  if s.isFrozen header then none
  let add (entries : List (Text × Data)) : Option (List (Text × Data)) :=
    let k := header.getLastD []
    match Assoc.get? k entries with
    | none => some (Assoc.set k (.list [.table []]) entries)
    | some (.list items) => some (Assoc.set k (.list (items ++ [.table []])) entries)
    | some _ => none
  let root ← update add header.dropLast s.root
  let inside := fun p : List Text ↦ header.isPrefixOf p
  return { s with
    root, opened := header :: s.opened.filter (!inside ·), frozen := s.frozen.filter (!inside ·) }

mutual

def value : Nat → Reader Data
  | 0 => failure
  | depth + 1 => do
    match ← peek with
    | some '"' => return .text (← string)
    | some '\'' => return .text (← string)
    | some '[' => do
      take '['
      return .list (← arrayItems depth)
    | some '{' => do
      take '{'
      skipSpace
      if (← peek) == some '}' then
        take '}'
        return .table []
      else return .table (← inlineEntries depth {}).root
    | _ => word

def arrayItems : Nat → Reader (List Data)
  | 0 => failure
  | depth + 1 => do
    skipLines
    if (← peek) == some ']' then
      take ']'
      return []
    else
      let d ← value depth
      skipLines
      if (← peek) == some ',' then
        take ','
        return d :: (← arrayItems depth)
      else
        take ']'
        return [d]

def inlineEntries : Nat → State → Reader State
  | 0, _ => failure
  | depth + 1, s => do
    let k ← key
    take '='
    skipSpace
    let d ← value depth
    let some s := s.assign [] k d | failure
    skipSpace
    if (← peek) == some ',' then
      take ','
      skipSpace
      inlineEntries depth s
    else
      take '}'
      return s

end

def lineEnd : Reader Unit := do
  skipSpace
  skipComment
  match ← get with
  | [] => pure ()
  | '\n' :: r => set r
  | _ => failure

def headerLine (s : State) : Reader (List Text × State) := do
  let listed := startsWith (← get) "[["
  takeText (if listed then "[[" else "[")
  let header ← key
  takeText (if listed then "]]" else "]")
  let some s := (if listed then s.addTable header else s.openTable header) | failure
  return (header, s)

def assignmentLine (header : List Text) (s : State) : Reader State := do
  let k ← key
  take '='
  skipSpace
  let d ← value ((← get).length + 1)
  let some s := s.assign header k d | failure
  return s

def linesUpTo (header : List Text) (s : State) : Nat → Reader State
  | 0 => failure
  | n + 1 => do
    skipSpace
    match ← peek with
    | none => return s
    | some '\n' => do
      take '\n'
      linesUpTo header s n
    | some '#' => do
      lineEnd
      linesUpTo header s n
    | some '[' => do
      let (header, s) ← headerLine s
      lineEnd
      linesUpTo header s n
    | some _ => do
      let s ← assignmentLine header s
      lineEnd
      linesUpTo header s n

def parse? (t : Text) : Option (List (Text × Data)) :=
  let t := replace "\r\n" "\n" t
  ((linesUpTo [] {} (t.length + 1)).run t).map (·.1.root)

end ViewForge.Toml
