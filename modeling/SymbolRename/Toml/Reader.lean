import SymbolRename.Text.Hex
import SymbolRename.Toml.Scalar
import SymbolRename.Toml.Value

/-!
# Reading TOML

A reader takes one piece of a document off the front of a text and returns the rest.
-/

namespace SymbolRename
namespace TomlReader

/-! ## Blanks, comments and newlines -/

def isBlank (c : Char) : Bool := c == ' ' || c == '\t'

def skipBlanks (cs : List Char) : List Char := cs.dropWhile isBlank

/-- Whether a character may stand in comments and strings. -/
def isPrintable (c : Char) : Bool :=
  c == '\t' || (0x20 ≤ c.toNat && c.toNat != 0x7F)

/-- Takes a newline off the front. -/
def readNewline : List Char → Option (List Char)
  | '\n' :: rest => some rest
  | '\r' :: '\n' :: rest => some rest
  | _ => none

/-- Drops a comment up to the end of its line, if there is one. -/
def skipComment (cs : List Char) : List Char :=
  match cs with
  | '#' :: rest => rest.dropWhile isPrintable
  | _ => cs

/-- Takes the rest of a line off the front: blanks, a comment, and the newline or the end of the
text. -/
def readLineEnd (cs : List Char) : Option (List Char) :=
  match skipComment (skipBlanks cs) with
  | [] => some []
  | cs => readNewline cs

/-- Drops blanks, comments and newlines, in at most `fuel` lines. -/
def skipLines : (fuel : Nat) → List Char → List Char
  | 0, cs => cs
  | fuel + 1, cs =>
    let cs := skipBlanks cs
    match readNewline (skipComment cs) with
    | some rest => skipLines fuel rest
    | none => cs

/-! ## Strings -/

/-- The character of a code point that four or eight digits name. -/
def scalarChar? (n : Nat) : Option Char :=
  if n < 0xD800 ∨ (0xDFFF < n ∧ n < 0x110000) then some (Char.ofNat n) else none

/-- Takes a number of hexadecimal digits off the front. -/
def readHex : (count value : Nat) → List Char → Option (Nat × List Char)
  | 0, value, cs => some (value, cs)
  | count + 1, value, c :: rest => do readHex count (16 * value + (← hexValue? c)) rest
  | _ + 1, _, [] => none

/-- Takes an escape after its backslash off the front. -/
def readEscape : List Char → Option (Char × List Char)
  | [] => none
  | c :: rest =>
    if c = '"' ∨ c = '\\' then some (c, rest)
    else if c = 'b' then some ('\x08', rest)
    else if c = 't' then some ('\t', rest)
    else if c = 'n' then some ('\n', rest)
    else if c = 'f' then some ('\x0C', rest)
    else if c = 'r' then some ('\r', rest)
    else if c = 'e' then some ('\x1B', rest)
    else do
      let digits ← if c = 'x' then some 2 else if c = 'u' then some 4
        else if c = 'U' then some 8 else none
      let (n, rest) ← readHex digits 0 rest
      some (← scalarChar? n, rest)

/-- Takes the inside of a string in double quotes and the closing quote off the front. -/
def readBasic : (fuel : Nat) → List Char → Option (List Char × List Char)
  | 0, _ => none
  | _, [] => none
  | fuel + 1, c :: rest =>
    if c = '"' then some ([], rest)
    else if c = '\\' then do
      let (x, rest) ← readEscape rest
      let (text, rest) ← readBasic fuel rest
      some (x :: text, rest)
    else if isPrintable c then (readBasic fuel rest).map fun (text, rest) ↦ (c :: text, rest)
    else none

/-- Takes the inside of a string in single quotes and the closing quote off the front. -/
def readLiteral : List Char → Option (List Char × List Char)
  | [] => none
  | c :: rest =>
    if c = '\'' then some ([], rest)
    else if isPrintable c then (readLiteral rest).map fun (text, rest) ↦ (c :: text, rest)
    else none

/-- Takes the end of a string with three quotes off the front.  Up to two more quotes before it
belong to the string. -/
def readTripleEnd (quote : Char) (cs : List Char) : Option (List Char × List Char) :=
  let quotes := cs.takeWhile (· == quote)
  if quotes.length < 3 then none
  else
    let extra := min (quotes.length - 3) 2
    some (List.replicate extra quote, cs.drop (extra + 3))

/-- Drops a newline right after the opening quotes. -/
def skipFirstNewline (cs : List Char) : List Char :=
  (readNewline cs).getD cs

/-- Drops blanks and newlines. -/
def skipIndent : List Char → List Char
  | '\r' :: '\n' :: rest => skipIndent rest
  | c :: rest => if isBlank c || c == '\n' then skipIndent rest else c :: rest
  | [] => []

/-- Drops blanks and newlines after a backslash at the end of a line.  There must be a newline. -/
def readLineJoin (cs : List Char) : Option (List Char) :=
  (readNewline (skipBlanks cs)).map skipIndent

/-- Takes the inside of a string in three double quotes and its end off the front. -/
def readTripleBasic : (fuel : Nat) → List Char → Option (List Char × List Char)
  | 0, _ => none
  | _, [] => none
  | fuel + 1, c :: rest =>
    match readTripleEnd '"' (c :: rest) with
    | some ending => some ending
    | none =>
      if c = '\\' then
        match readLineJoin rest with
        | some rest => readTripleBasic fuel rest
        | none => do
          let (x, rest) ← readEscape rest
          let (text, rest) ← readTripleBasic fuel rest
          some (x :: text, rest)
      else if isPrintable c ∨ c = '\n' ∨ (c = '\r' ∧ rest.head? = some '\n') then
        (readTripleBasic fuel rest).map fun (text, rest) ↦ (c :: text, rest)
      else none

/-- Takes the inside of a string in three single quotes and its end off the front. -/
def readTripleLiteral : List Char → Option (List Char × List Char)
  | [] => none
  | c :: rest =>
    match readTripleEnd '\'' (c :: rest) with
    | some ending => some ending
    | none =>
      if isPrintable c ∨ c = '\n' ∨ (c = '\r' ∧ rest.head? = some '\n') then
        (readTripleLiteral rest).map fun (text, rest) ↦ (c :: text, rest)
      else none

/-- Takes a string on one line off the front. -/
def readSimpleString (cs : List Char) : Option (List Char × List Char) :=
  match cs with
  | '"' :: rest => readBasic (rest.length + 1) rest
  | '\'' :: rest => readLiteral rest
  | _ => none

/-- Takes a string off the front. -/
def readString (cs : List Char) : Option (List Char × List Char) :=
  match cs with
  | '"' :: '"' :: '"' :: rest =>
    readTripleBasic (rest.length + 1) (skipFirstNewline rest)
  | '\'' :: '\'' :: '\'' :: rest => readTripleLiteral (skipFirstNewline rest)
  | _ => readSimpleString cs

/-! ## Keys -/

def isKeyChar (c : Char) : Bool := c.isAlphanum || c == '_' || c == '-'

/-- Takes one part of a key off the front. -/
def readKeyPart (cs : List Char) : Option (String × List Char) :=
  match cs with
  | [] => none
  | c :: _ =>
    if c = '"' ∨ c = '\'' then
      (readSimpleString cs).map fun (text, rest) ↦ (String.ofList text, rest)
    else
      match cs.span isKeyChar with
      | ([], _) => none
      | (key, rest) => some (String.ofList key, rest)

/-- The greatest number of parts of a key. -/
def maxKeyParts : Nat := 80

/-- Takes a key and the blanks around it off the front, in at most `count` parts. -/
def readKeyParts : (count : Nat) → List Char → Option (List String × List Char)
  | 0, _ => none
  | count + 1, cs => do
    let (part, rest) ← readKeyPart (skipBlanks cs)
    match skipBlanks rest with
    | '.' :: rest => (readKeyParts count rest).map fun (parts, rest) ↦ (part :: parts, rest)
    | rest => some ([part], rest)

/-- Takes a key and the blanks around it off the front. -/
def readKey (cs : List Char) : Option (List String × List Char) :=
  readKeyParts maxKeyParts cs

/-- Takes an equals sign off the front. -/
def readEquals : List Char → Option (List Char)
  | '=' :: rest => some rest
  | _ => none

/-! ## Values -/

/-- Whether a character may stand in a word without quotes: it neither separates, brackets nor ends
anything. -/
def isPlainChar (c : Char) : Bool :=
  not (['.', '=', ',', '[', ']', '\x7b', '\x7d', ' ', '\t', '#', '\r', '\n'].contains c)

/-- Whether a word follows, after blanks or at once. -/
def wordFollows (cs : List Char) : Bool :=
  match skipBlanks cs with
  | c :: _ => isPlainChar c && c != '"' && c != '\''
  | [] => false

/-- Takes words and dots off the front, and the blanks before a further word. -/
def spanWords : List Char → List Char × List Char
  | [] => ([], [])
  | c :: rest =>
    if isPlainChar c || c == '.' || (isBlank c && wordFollows rest) then
      let (words, rest) := spanWords rest
      (c :: words, rest)
    else ([], c :: rest)

/-- Takes a literal without quotes off the front.  A blank may stand in it, between a date and a
time. -/
def readScalar (cs : List Char) : Option (TomlValue × List Char) :=
  let (literal, rest) := spanWords cs
  if TomlScalar.isScalar literal then some (.scalar literal, rest) else none

/-- The greatest number of arrays and tables in braces that stand inside one another. -/
def maxDepth : Nat := 80

mutual

/-- Takes a value off the front, in at most `fuel` steps and with at most `depth` brackets inside
one another. -/
def readValue : (fuel depth : Nat) → List Char → Option (TomlValue × List Char)
  | 0, _, _ => none
  | fuel + 1, depth, cs =>
    match cs with
    | [] => none
    | c :: rest =>
      if c = '"' ∨ c = '\'' then
        (readString cs).map fun (text, rest) ↦ (.string (String.ofList text), rest)
      else if c = '[' then
        match depth with
        | 0 => none
        | depth + 1 => (readItems fuel depth rest).map fun (items, rest) ↦ (.array items, rest)
      else if c = '\x7b' then
        match depth with
        | 0 => none
        | depth + 1 => do
          let (members, rest) ← readMembers fuel depth rest
          let table ← TomlTable.ofMembers? members
          some (.table .inline table, rest)
      else readScalar cs

/-- Takes the items of an array and its closing bracket off the front. -/
def readItems : (fuel depth : Nat) → List Char → Option (List TomlValue × List Char)
  | 0, _, _ => none
  | fuel + 1, depth, cs =>
    match skipLines cs.length cs with
    | ']' :: rest => some ([], rest)
    | cs => do
      let (item, rest) ← readValue fuel depth cs
      match skipLines rest.length rest with
      | ',' :: rest => (readItems fuel depth rest).map fun (items, rest) ↦ (item :: items, rest)
      | ']' :: rest => some ([item], rest)
      | _ => none

/-- Takes the members of a table in braces and its closing brace off the front.  A member may be
spread over lines, but not its key. -/
def readMembers : (fuel depth : Nat) → List Char →
    Option (List (List String × TomlValue) × List Char)
  | 0, _, _ => none
  | fuel + 1, depth, cs =>
    match skipLines cs.length cs with
    | '\x7d' :: rest => some ([], rest)
    | cs => do
      let (key, rest) ← readKey cs
      let rest ← readEquals (skipLines rest.length rest)
      let (value, rest) ← readValue fuel depth (skipLines rest.length rest)
      match skipLines rest.length rest with
      | ',' :: rest =>
        (readMembers fuel depth rest).map fun (members, rest) ↦ ((key, value) :: members, rest)
      | '\x7d' :: rest => some ([(key, value)], rest)
      | _ => none

end

/-! ## Statements -/

/-- Takes a statement off the front, up to the end of its line. -/
def readStatement (cs : List Char) : Option (TomlStatement × List Char) :=
  match cs with
  | '[' :: '[' :: rest => do
    let (path, rest) ← readKey rest
    match rest with
    | ']' :: ']' :: rest => some (.openItem path, ← readLineEnd rest)
    | _ => none
  | '[' :: rest => do
    let (path, rest) ← readKey rest
    match rest with
    | ']' :: rest => some (.openTable path, ← readLineEnd rest)
    | _ => none
  | _ => do
    let (path, rest) ← readKey cs
    let rest ← readEquals rest
    let (value, rest) ← readValue (2 * rest.length + 2) maxDepth (skipBlanks rest)
    some (.assign path value, ← readLineEnd rest)

/-- Reads a document, in at most `fuel` statements. -/
def readStatements : (fuel : Nat) → List Char → Option (List TomlStatement)
  | 0, _ => none
  | fuel + 1, cs =>
    match skipLines cs.length cs with
    | [] => some []
    | '#' :: rest => if rest.all isPrintable then some [] else none
    | cs => do
      let (statement, rest) ← readStatement cs
      (readStatements fuel rest).map (statement :: ·)

end TomlReader

/-- The table that a text describes.  A byte order mark at the front is passed over. -/
def TomlTable.ofText? (text : String) : Option TomlTable :=
  let cs :=
    match text.toList with
    | '\uFEFF' :: rest => rest
    | cs => cs
  (TomlReader.readStatements (cs.length + 1) cs).bind TomlTable.ofStatements?

end SymbolRename
