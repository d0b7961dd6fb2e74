import ViewForge.Text.EntityNames

namespace ViewForge.Text

def highControls : List Nat :=
  [8364, 129, 8218, 402, 8222, 8230, 8224, 8225, 710, 8240, 352, 8249, 338, 141, 381, 143, 144,
   8216, 8217, 8220, 8221, 8226, 8211, 8212, 732, 8482, 353, 8250, 339, 157, 382, 376]

/-- Control characters and noncharacters, which a reference cannot bring in. -/
def isForbidden (n : Nat) : Bool :=
  (1 ≤ n && n ≤ 8) || n == 11 || (14 ≤ n && n ≤ 31) || n == 127 ||
    (0xFDD0 ≤ n && n ≤ 0xFDEF) || n % 0x10000 ≥ 0xFFFE

def ofCodePoint (n : Nat) : Text :=
  if n == 0 || (0xD800 ≤ n && n ≤ 0xDFFF) || 0x10FFFF < n then [Char.ofNat 0xFFFD]
  else if 128 ≤ n && n ≤ 159 then [Char.ofNat (highControls.getD (n - 128) n)]
  else if isForbidden n then []
  else [Char.ofNat n]

def hexValue (c : Char) : Nat :=
  if isAsciiDigit c then c.toNat - 48
  else if 'a' ≤ c && c ≤ 'f' then c.toNat - 87
  else c.toNat - 55

def isHexDigit (c : Char) : Bool :=
  isAsciiDigit c || ('a' ≤ c && c ≤ 'f') || ('A' ≤ c && c ≤ 'F')

def numeral (base : Nat) (digits : Text) : Nat :=
  digits.foldl (fun n c ↦ base * n + hexValue c) 0

/-- What a name of a table stands for. Names are made of ASCII letters and digits. -/
def entity? (names : List (String × List Nat)) (name : Text) : Option Text :=
  if name.all Char.isAlphanum then
    (names.find? fun e ↦ e.1.toList == name).map fun e ↦ e.2.map Char.ofNat
  else none

def isEntityPart (c : Char) : Bool :=
  !(c == '\t' || c == '\n' || c == '\x0c' || c == ' ' || c == '<' || c == '&' || c == '#' || c == ';')

/-- The longest name without a semicolon that `name` begins with, among its first `n`
characters. -/
def longestEntity (name : Text) : Nat → Option (Text × Nat)
  | 0 | 1 => none
  | n + 2 =>
    match entity? bareEntities (name.take (n + 2)) with
    | some s => some (s, n + 2)
    | none => longestEntity name (n + 1)

def numericReference (base skip : Nat) (t : Text) : Option (Text × Nat) :=
  let digits := t.takeWhile (if base == 16 then isHexDigit else isAsciiDigit)
  if digits.isEmpty then none
  else
    let semicolon := if t[digits.length]? == some ';' then 1 else 0
    some (ofCodePoint (numeral base digits), skip + digits.length + semicolon)

def namedReference (t : Text) : Option (Text × Nat) :=
  let name := (t.take 32).takeWhile isEntityPart
  if t[name.length]? == some ';' then
    match (entity? bareEntities name).or (entity? strictEntities name) with
    | some s => some (s, name.length + 1)
    | none => longestEntity name name.length
  else longestEntity name name.length

/-- What the reference after an ampersand stands for and how many characters it takes. -/
def reference : Text → Option (Text × Nat)
  | '#' :: 'x' :: r | '#' :: 'X' :: r => numericReference 16 2 r
  | '#' :: r => numericReference 10 1 r
  | t => namedReference t

/-- Reads the references of a text, passing over `skip` characters of one already read. -/
def unescapeFrom : Nat → Text → Text
  | _, [] => []
  | k + 1, _ :: r => unescapeFrom k r
  | 0, c :: r =>
    if c == '&' then
      match reference r with
      | some (s, n) => s ++ unescapeFrom n r
      | none => c :: unescapeFrom 0 r
    else c :: unescapeFrom 0 r

def unescape (t : Text) : Text := unescapeFrom 0 t

def escapeChar (c : Char) : Text :=
  if c == '&' then "&amp;" else if c == '<' then "&lt;" else if c == '>' then "&gt;" else [c]

def escape (t : Text) : Text := t.flatMap escapeChar

def escapeAttributeChar (c : Char) : Text :=
  if c == '"' then "&quot;" else escapeChar c

/-- The value of a double-quoted attribute; references already in it are read first, so that
writing twice changes nothing. -/
def attributeText (t : Text) : Text := (unescape t).flatMap escapeAttributeChar

end ViewForge.Text
