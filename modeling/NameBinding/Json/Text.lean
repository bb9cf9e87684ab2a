import NameBinding.Json.Basic

/-!
# JSON text

`parse?` reads a text that holds exactly one value, `render` writes a value without blanks.
Reading is strict: no control characters inside strings, no lone surrogate escapes, no
superfluous zeros, nothing behind the value. Numbers too large for a double are refused; the
leading digits that fit 64 bits and the power of ten behind them decide.
-/

namespace NameBinding.Json

/-- Blanks are the space, the tab, the line feed and the carriage return. -/
def isBlank (c : Char) : Bool := c == ' ' || c == '\t' || c == '\n' || c == '\r'

/-- The text from its first character that is no blank. -/
def skipBlanks (text : List Char) : List Char := text.dropWhile isBlank

/-- The value of a hexadecimal digit. -/
def hexDigit? (c : Char) : Option Nat :=
  if '0' ≤ c ∧ c ≤ '9' then some (c.toNat - '0'.toNat)
  else if 'a' ≤ c ∧ c ≤ 'f' then some (c.toNat - 'a'.toNat + 10)
  else if 'A' ≤ c ∧ c ≤ 'F' then some (c.toNat - 'A'.toNat + 10)
  else none

/-- Reads four hexadecimal digits. -/
def readHex? : List Char → Option (Nat × List Char)
  | a :: b :: c :: d :: rest => do
    let a ← hexDigit? a
    let b ← hexDigit? b
    let c ← hexDigit? c
    let d ← hexDigit? d
    some (((a * 16 + b) * 16 + c) * 16 + d, rest)
  | _ => none

/-- Reads a numeric escape behind its marker: one unit, or a pair of surrogate units. -/
def readUnicode? (text : List Char) : Option (Char × List Char) := do
  let (unit, rest) ← readHex? text
  if unit < 0xD800 ∨ 0xDFFF < unit then some (Char.ofNat unit, rest)
  else if 0xDC00 ≤ unit then none
  else
    match rest with
    | '\\' :: 'u' :: rest =>
      let (low, rest) ← readHex? rest
      if 0xDC00 ≤ low ∧ low ≤ 0xDFFF then
        some (Char.ofNat (0x10000 + (unit - 0xD800) * 0x400 + (low - 0xDC00)), rest)
      else none
    | _ => none

/-- Reads an escape behind its backslash. -/
def readEscape? : List Char → Option (Char × List Char)
  | '"' :: rest => some ('"', rest)
  | '\\' :: rest => some ('\\', rest)
  | '/' :: rest => some ('/', rest)
  | 'b' :: rest => some ('\x08', rest)
  | 'f' :: rest => some ('\x0c', rest)
  | 'n' :: rest => some ('\n', rest)
  | 'r' :: rest => some ('\r', rest)
  | 't' :: rest => some ('\t', rest)
  | 'u' :: rest => readUnicode? rest
  | _ => none

/-- Reads a string behind its opening quote; `read` holds the characters so far, last first. -/
def readChars? : Nat → List Char → List Char → Option (String × List Char)
  | 0, _, _ => none
  | fuel + 1, read, text =>
    match text with
    | [] => none
    | '"' :: rest => some (String.ofList read.reverse, rest)
    | '\\' :: rest =>
      match readEscape? rest with
      | none => none
      | some (c, rest) => readChars? fuel (c :: read) rest
    | c :: rest => if c.toNat < 0x20 then none else readChars? fuel (c :: read) rest

/-- Reads a string behind its opening quote. -/
def readString? (text : List Char) : Option (String × List Char) :=
  readChars? (text.length + 1) [] text

/-- The number that a list of decimal digits denotes. -/
def digitsValue (digits : List Char) : Nat :=
  digits.foldl (fun n c => n * 10 + (c.toNat - '0'.toNat)) 0

/-- The greatest mantissa: it has to fit 64 bits. -/
def mantissaBound : Nat := UInt64.size - 1

/-- Appends digits to a mantissa as long as it stays within its bound, and tells how many digits
are left. -/
def extendMantissa (mantissa : Nat) : List Char → Nat × Nat
  | [] => (mantissa, 0)
  | c :: rest =>
    let next := mantissa * 10 + (c.toNat - '0'.toNat)
    if mantissaBound < next then (mantissa, rest.length + 1) else extendMantissa next rest

/-- The double nearest to a natural number, of two the one with the even last digit: a number of
53 binary digits and zeros behind them. -/
def nearestDouble (n : Nat) : Nat :=
  let step := 1 <<< (n.log2 + 1 - 53)
  let quotient := n / step
  let rest := n % step
  if step < 2 * rest ∨ (step = 2 * rest ∧ quotient % 2 = 1) then (quotient + 1) * step
  else quotient * step

/-- The least magnitude that no double is nearest to. -/
def overflowBound : Nat := 1 <<< 1024 - 1 <<< 970

/-- Whether a mantissa scaled by a power of ten is too large for a double. Mantissa and power are
doubles before they are multiplied, and a power has to be a double itself. -/
def overflows (mantissa : Nat) (exponent : Int) : Bool :=
  if mantissa = 0 ∨ exponent < 0 then false
  else if 308 < exponent then true
  else overflowBound ≤ nearestDouble mantissa * nearestDouble (Nat.pow 10 exponent.toNat)

/-- Whether a number written in decimal digits is too large for a double. -/
def decimalOverflows (whole fraction : List Char) (power : Int) : Bool :=
  let (mantissa, dropped) := extendMantissa 0 whole
  let (mantissa, unused) := extendMantissa mantissa fraction
  overflows mantissa ((dropped : Int) - (fraction.length - unused : Nat) + power)

/-- Reads the digits behind a decimal point, if there is one; a point needs a digit. -/
def readFraction? : List Char → Option (List Char × List Char)
  | '.' :: rest =>
    let digits := rest.takeWhile Char.isDigit
    if digits.isEmpty then none else some (digits, rest.dropWhile Char.isDigit)
  | rest => some ([], rest)

/-- Reads an exponent, if there is one: its characters and its value. -/
def readExponent? (text : List Char) : Option (List Char × Int × List Char) :=
  let digitsOf (lead : List Char) (negative : Bool) (rest : List Char) :=
    let digits := rest.takeWhile Char.isDigit
    let value : Int := digitsValue digits
    if digits.isEmpty then none
    else some (lead ++ digits, if negative then -value else value, rest.dropWhile Char.isDigit)
  match text with
  | e :: sign :: rest =>
    if e == 'e' || e == 'E' then
      if sign == '-' then digitsOf [e, '-'] true rest
      else if sign == '+' then digitsOf [e, '+'] false rest
      else digitsOf [e] false (sign :: rest)
    else some ([], 0, text)
  | [e] => if e == 'e' || e == 'E' then none else some ([], 0, text)
  | [] => some ([], 0, [])

/-- Reads a number. A leading zero stands alone before the point. -/
def readNumber? (text : List Char) : Option (Json × List Char) := do
  let negative := text.head? == some '-'
  let unsigned := if negative then text.tail else text
  let run := unsigned.takeWhile Char.isDigit
  if run.isEmpty then none
  else
    let whole := if run.head? == some '0' then ['0'] else run
    let (fraction, rest) ← readFraction? (unsigned.drop whole.length)
    let (exponent, power, rest) ← readExponent? rest
    let value := digitsValue whole
    if decimalOverflows whole fraction power then none
    else if fraction.isEmpty && exponent.isEmpty && !(negative && value == 0) then
      some (.int (if negative then -(value : Int) else value), rest)
    else
      let sign := if negative then ['-'] else []
      let point := if fraction.isEmpty then [] else '.' :: fraction
      some (.decimal (String.ofList (sign ++ whole ++ point ++ exponent)), rest)

mutual

/-- Reads one value. Every nested value is shorter than the text around it, which the first
argument counts. -/
def readValue? : Nat → List Char → Option (Json × List Char)
  | 0, _ => none
  | fuel + 1, text =>
    match skipBlanks text with
    | 'n' :: 'u' :: 'l' :: 'l' :: rest => some (.null, rest)
    | 't' :: 'r' :: 'u' :: 'e' :: rest => some (.bool true, rest)
    | 'f' :: 'a' :: 'l' :: 's' :: 'e' :: rest => some (.bool false, rest)
    | '"' :: rest => (readString? rest).map fun (value, rest) => (.str value, rest)
    | '[' :: rest =>
      match skipBlanks rest with
      | ']' :: rest => some (.arr [], rest)
      | rest => (readItems? fuel rest).map fun (items, rest) => (.arr items, rest)
    | '\x7b' :: rest =>
      match skipBlanks rest with
      | '\x7d' :: rest => some (.obj [], rest)
      | rest => (readEntries? fuel rest).map fun (entries, rest) => (.obj entries, rest)
    | rest => readNumber? rest

/-- Reads one or more items up to the closing bracket of their array. -/
def readItems? : Nat → List Char → Option (List Json × List Char)
  | 0, _ => none
  | fuel + 1, text =>
    match readValue? fuel text with
    | none => none
    | some (item, rest) =>
      match skipBlanks rest with
      | ']' :: rest => some ([item], rest)
      | ',' :: rest => (readItems? fuel rest).map fun (items, rest) => (item :: items, rest)
      | _ => none

/-- Reads one or more entries up to the closing brace of their object. -/
def readEntries? : Nat → List Char → Option (List (String × Json) × List Char)
  | 0, _ => none
  | fuel + 1, text =>
    match skipBlanks text with
    | '"' :: rest =>
      match readString? rest with
      | none => none
      | some (key, rest) =>
        match skipBlanks rest with
        | ':' :: rest =>
          match readValue? fuel rest with
          | none => none
          | some (value, rest) =>
            match skipBlanks rest with
            | '\x7d' :: rest => some ([(key, value)], rest)
            | ',' :: rest =>
              (readEntries? fuel rest).map fun (entries, rest) => ((key, value) :: entries, rest)
            | _ => none
        | _ => none
    | _ => none

end

/-- The value that a text holds. -/
def parse? (text : String) : Option Json :=
  let chars := text.toList
  match readValue? (2 * chars.length + 2) chars with
  | some (value, rest) => if (skipBlanks rest).isEmpty then some value else none
  | none => none

/-- The lower-case hexadecimal digit of a number below 16. -/
def hexChar (n : Nat) : Char :=
  if n < 10 then Char.ofNat ('0'.toNat + n) else Char.ofNat ('a'.toNat + (n - 10))

/-- A character as it stands inside a string: quotes, backslashes and control characters are
escaped, everything else stands for itself. -/
def escape (c : Char) : List Char :=
  if c = '"' then ['\\', '"']
  else if c = '\\' then ['\\', '\\']
  else if c = '\n' then ['\\', 'n']
  else if c = '\r' then ['\\', 'r']
  else if c = '\t' then ['\\', 't']
  else if c = '\x08' then ['\\', 'b']
  else if c = '\x0c' then ['\\', 'f']
  else if c.toNat < 0x20 then ['\\', 'u', '0', '0', hexChar (c.toNat / 16), hexChar (c.toNat % 16)]
  else [c]

/-- A string in quotes. -/
def quote (value : String) : String :=
  "\"" ++ String.ofList (value.toList.flatMap escape) ++ "\""

mutual

/-- The pieces of text that a value is written as. -/
def pieces : Json → List String
  | null => ["null"]
  | bool true => ["true"]
  | bool false => ["false"]
  | int value => [toString value]
  | decimal digits => [digits]
  | str value => [quote value]
  | arr items => "[" :: piecesAll items
  | obj entries => "\x7b" :: piecesEntries entries

/-- The pieces of the items of an array, with the commas between them and the bracket behind. -/
def piecesAll : List Json → List String
  | [] => ["]"]
  | item :: [] => item.pieces ++ ["]"]
  | item :: rest => item.pieces ++ "," :: piecesAll rest

/-- The pieces of the entries of an object, with the commas between them and the brace behind. -/
def piecesEntries : List (String × Json) → List String
  | [] => ["\x7d"]
  | (key, value) :: [] => quote key :: ":" :: value.pieces ++ ["\x7d"]
  | (key, value) :: rest => quote key :: ":" :: value.pieces ++ "," :: piecesEntries rest

end

/-- The text of a value, without blanks. -/
def render (value : Json) : String := String.join value.pieces

end NameBinding.Json
