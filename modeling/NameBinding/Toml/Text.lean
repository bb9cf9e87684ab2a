import NameBinding.Json.Text
import NameBinding.Toml.Table

/-!
# TOML text

Reads the tables, dotted keys, one-line strings, integers, truth values, arrays and inline tables
of TOML. Other scalars, such as dates and fractions, are kept as they are written; strings over
several lines are not read. Neither dotted keys nor nested values go deeper than a limit.
-/

namespace NameBinding.Toml

/-- A dotted key has fewer segments than this, and arrays and inline tables are nested less deep. -/
def nestingLimit : Nat := 80

/-- Skips spaces and tabs. -/
def skipSpaces (text : List Char) : List Char := text.dropWhile fun c => c == ' ' || c == '\t'

/-- The text behind the rest of a line. -/
def skipLine (text : List Char) : List Char := text.dropWhile (· != '\n')

/-- Skips blanks, line ends and comments; the first argument bounds the number of comments. -/
def skipTrivia : Nat → List Char → List Char
  | 0, text => text
  | fuel + 1, text =>
    match Json.skipBlanks text with
    | '#' :: rest => skipTrivia fuel (skipLine rest)
    | rest => rest

/-- The text behind the end of a line that holds nothing more than a comment. -/
def endOfLine? (text : List Char) : Option (List Char) :=
  match skipSpaces text with
  | [] => some []
  | '\n' :: rest => some rest
  | '\r' :: '\n' :: rest => some rest
  | '#' :: rest => some (skipLine rest).tail
  | _ => none

/-- Reads hexadecimal digits up to the given number of them. -/
def readHexDigits? : Nat → Nat → List Char → Option (Nat × List Char)
  | 0, value, text => some (value, text)
  | count + 1, value, text =>
    match text with
    | [] => none
    | c :: rest =>
      match Json.hexDigit? c with
      | none => none
      | some digit => readHexDigits? count (value * 16 + digit) rest

/-- Reads an escape behind its backslash. -/
def readEscape? : List Char → Option (Char × List Char)
  | 'u' :: rest => do
    let (value, rest) ← readHexDigits? 4 0 rest
    if value.isValidChar then some (Char.ofNat value, rest) else none
  | 'U' :: rest => do
    let (value, rest) ← readHexDigits? 8 0 rest
    if value.isValidChar then some (Char.ofNat value, rest) else none
  | '/' :: _ => none
  | text => Json.readEscape? text

/-- Reads a basic string behind its opening quote; `read` holds the characters so far, last
first. -/
def readBasic? : Nat → List Char → List Char → Option (String × List Char)
  | 0, _, _ => none
  | fuel + 1, read, text =>
    match text with
    | [] | '\n' :: _ => none
    | '"' :: rest => some (String.ofList read.reverse, rest)
    | '\\' :: rest =>
      match readEscape? rest with
      | none => none
      | some (c, rest) => readBasic? fuel (c :: read) rest
    | c :: rest => readBasic? fuel (c :: read) rest

/-- Reads a literal string behind its opening quote. -/
def readLiteral? (text : List Char) : Option (String × List Char) :=
  let value := text.takeWhile fun c => c != '\'' && c != '\n'
  match text.drop value.length with
  | '\'' :: rest => some (String.ofList value, rest)
  | _ => none

/-- The characters of keys without quotes. -/
def isKeyChar (c : Char) : Bool := c.isAlphanum || c == '_' || c == '-'

/-- Reads one segment of a key. -/
def readSegment? (text : List Char) : Option (String × List Char) :=
  match text with
  | '"' :: rest => readBasic? (rest.length + 1) [] rest
  | '\'' :: rest => readLiteral? rest
  | _ =>
    let segment := text.takeWhile isKeyChar
    if segment.isEmpty then none else some (String.ofList segment, text.dropWhile isKeyChar)

/-- Reads a dotted key of at most the given number of segments. -/
def readSegments? : Nat → List Char → Option (List String × List Char)
  | 0, _ => none
  | count + 1, text => do
    let (segment, rest) ← readSegment? (skipSpaces text)
    match skipSpaces rest with
    | '.' :: rest => do
      let (path, rest) ← readSegments? count rest
      some (segment :: path, rest)
    | rest => some ([segment], rest)

/-- Reads a dotted key. -/
def readKey? (text : List Char) : Option (List String × List Char) :=
  readSegments? (nestingLimit - 1) text

/-- The value of a scalar without quotes. -/
def scalar? (word : List Char) : Option Json :=
  let digits := match word with
    | '-' :: rest | '+' :: rest => rest
    | _ => word
  let plain := digits.filter (· != '_')
  if word = ['t', 'r', 'u', 'e'] then some (.bool true)
  else if word = ['f', 'a', 'l', 's', 'e'] then some (.bool false)
  else if word.isEmpty then none
  else if !plain.isEmpty && plain.all Char.isDigit then
    let value : Int := Json.digitsValue plain
    some (.int (if word.head? == some '-' then -value else value))
  else if word.all fun c => c.isAlphanum || "+-:._".toList.contains c then
    some (.decimal (String.ofList word))
  else none

mutual

/-- Reads a value in which arrays and inline tables are nested at most `levels` deep. -/
def readValue? : Nat → Nat → List Char → Option (Json × List Char)
  | 0, _, _ => none
  | fuel + 1, levels, text =>
    match text with
    | '"' :: rest => (readBasic? (rest.length + 1) [] rest).map fun (s, rest) => (.str s, rest)
    | '\'' :: rest => (readLiteral? rest).map fun (s, rest) => (.str s, rest)
    | '[' :: rest =>
      if levels = 0 then none
      else (readItems? fuel (levels - 1) rest).map fun (items, rest) => (.arr items, rest)
    | '\x7b' :: rest =>
      if levels = 0 then none
      else
        match skipSpaces rest with
        | '\x7d' :: rest => some (.obj [], rest)
        | rest => (readInline? fuel (levels - 1) [] rest).map fun (table, rest) => (.obj table, rest)
    | _ =>
      let isWordChar c := !(Json.isBlank c || ",]#\x7d".toList.contains c)
      (scalar? (text.takeWhile isWordChar)).map fun value => (value, text.dropWhile isWordChar)

/-- Reads the items of an array up to its closing bracket; a comma may stand behind the last. -/
def readItems? : Nat → Nat → List Char → Option (List Json × List Char)
  | 0, _, _ => none
  | fuel + 1, levels, text =>
    match skipTrivia text.length text with
    | ']' :: rest => some ([], rest)
    | text =>
      match readValue? fuel levels text with
      | none => none
      | some (item, rest) =>
        match skipTrivia rest.length rest with
        | ']' :: rest => some ([item], rest)
        | ',' :: rest => (readItems? fuel levels rest).map fun (items, rest) => (item :: items, rest)
        | _ => none

/-- Reads the assignments of an inline table up to its closing brace. -/
def readInline? : Nat → Nat → Table → List Char → Option (Table × List Char)
  | 0, _, _, _ => none
  | fuel + 1, levels, table, text =>
    match readKey? text with
    | some (path, '=' :: rest) =>
      match readValue? fuel levels (skipSpaces rest) with
      | none => none
      | some (value, rest) =>
        match table.assign? path value with
        | none => none
        | some table =>
          match skipSpaces rest with
          | '\x7d' :: rest => some (table, rest)
          | ',' :: rest => readInline? fuel levels table rest
          | _ => none
    | _ => none

end

/-- Reads a header behind its brackets: the path, then the closing text and the line end. -/
def readHeader? (closing : List Char) (text : List Char) : Option (List String × List Char) := do
  let (path, rest) ← readKey? text
  let rest ← if closing.isPrefixOf rest then endOfLine? (rest.drop closing.length) else none
  some (path, rest)

/-- Reads the lines of a document; `path` leads to the table of the last header. -/
def readLines? : Nat → Table → List String → List Char → Option Table
  | 0, _, _, _ => none
  | fuel + 1, table, path, text =>
    match skipTrivia text.length text with
    | [] => some table
    | '[' :: '[' :: rest => do
      let (path, rest) ← readHeader? [']', ']'] rest
      readLines? fuel (← table.append? path) path rest
    | '[' :: rest => do
      let (path, rest) ← readHeader? [']'] rest
      readLines? fuel (← table.open? path) path rest
    | text =>
      match readKey? text with
      | some (key, '=' :: rest) => do
        let (value, rest) ← readValue? (2 * rest.length + 2) (nestingLimit - 1) (skipSpaces rest)
        let rest ← endOfLine? rest
        readLines? fuel (← table.assign? (path ++ key) value) path rest
      | _ => none

/-- The table that a text holds. -/
def parse? (text : String) : Option Json :=
  let chars := text.toList
  (readLines? (chars.length + 1) [] [] chars).map .obj

end NameBinding.Toml
