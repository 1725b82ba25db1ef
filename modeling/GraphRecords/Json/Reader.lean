import GraphRecords.Json.Basic

/-!
# Reading JSON

`Json.parse?` reads one value. Of repeated keys the last counts; a number with a fraction or an
exponent, or an integer beyond 64 bits, is read as the nearest double.
-/

namespace GraphRecords.Json

def skipSpace (cs : List Char) : List Char :=
  cs.dropWhile (fun c => c == ' ' || c == '\n' || c == '\r' || c == '\t')

def hexValue? (c : Char) : Option Nat :=
  if c.isDigit then some (c.toNat - '0'.toNat)
  else if 'a' ≤ c && c ≤ 'f' then some (c.toNat - 'a'.toNat + 10)
  else if 'A' ≤ c && c ≤ 'F' then some (c.toNat - 'A'.toNat + 10)
  else none

def codeUnit? (a b c d : Char) : Option Nat := do
  let digits ← [a, b, c, d].mapM hexValue?
  return digits.foldl (fun acc digit => acc * 16 + digit) 0

def simpleEscape? : Char → Option Char
  | '"' => some '"'
  | '\\' => some '\\'
  | '/' => some '/'
  | 'b' => some '\u0008'
  | 'f' => some '\u000c'
  | 'n' => some '\n'
  | 'r' => some '\r'
  | 't' => some '\t'
  | _ => none

def isHighSurrogate (n : Nat) : Bool := 0xd800 ≤ n && n < 0xdc00

def isLowSurrogate (n : Nat) : Bool := 0xdc00 ≤ n && n < 0xe000

/-- Reads up to the closing quote; `acc` holds the characters read so far, last first. -/
def readString (acc : List Char) : List Char → Option (String × List Char)
  | '"' :: rest => some (String.ofList acc.reverse, rest)
  | '\\' :: 'u' :: a :: b :: c :: d :: '\\' :: 'u' :: e :: f :: g :: h :: rest => do
      let unit ← codeUnit? a b c d
      if isHighSurrogate unit then
        let next ← codeUnit? e f g h
        if isLowSurrogate next then
          readString (Char.ofNat (0x10000 + (unit - 0xd800) * 0x400 + (next - 0xdc00)) :: acc) rest
        else none
      else if isLowSurrogate unit then none
      else readString (Char.ofNat unit :: acc) ('\\' :: 'u' :: e :: f :: g :: h :: rest)
  | '\\' :: 'u' :: a :: b :: c :: d :: rest => do
      let unit ← codeUnit? a b c d
      if isHighSurrogate unit || isLowSurrogate unit then none
      else readString (Char.ofNat unit :: acc) rest
  | '\\' :: c :: rest => do readString ((← simpleEscape? c) :: acc) rest
  | c :: rest => if c.toNat < 0x20 || c == '\\' then none else readString (c :: acc) rest
  | [] => none

/-- The digits at the start of a text, with their value. -/
def readDigits (cs : List Char) : Option (List Char × List Char) :=
  let digits := cs.takeWhile Char.isDigit
  if digits.isEmpty then none else some (digits, cs.dropWhile Char.isDigit)

def digitsValue (digits : List Char) : Nat :=
  digits.foldl (fun acc c => acc * 10 + (c.toNat - '0'.toNat)) 0

def readFraction (cs : List Char) : Option (List Char × List Char) :=
  match cs with
  | '.' :: rest => readDigits rest
  | _ => some ([], cs)

def readExponent (cs : List Char) : Option (Int × List Char) :=
  let signed (rest : List Char) : Option (Int × List Char) :=
    match rest with
    | '-' :: rest => (readDigits rest).map fun (ds, rest) => (-(digitsValue ds : Int), rest)
    | '+' :: rest => (readDigits rest).map fun (ds, rest) => ((digitsValue ds : Int), rest)
    | _ => (readDigits rest).map fun (ds, rest) => ((digitsValue ds : Int), rest)
  match cs with
  | 'e' :: rest => signed rest
  | 'E' :: rest => signed rest
  | _ => some (0, cs)

/-- The number that a literal stands for. The integer minus zero is the double minus zero. -/
def numberOf (negative : Bool) (whole fraction : List Char) (exponent : Int)
    (isInteger : Bool) : Option Number :=
  let value := digitsValue whole
  if isInteger && !negative && value < UInt64.size then some (.int value)
  else if isInteger && negative && 0 < value && value ≤ 0x8000000000000000 then
    some (.int (-(value : Int)))
  else (Binary64.ofDecimal? negative (digitsValue (whole ++ fraction))
    (exponent - fraction.length)).map .float

def readNumber (cs : List Char) : Option (Json × List Char) := do
  let negative := cs.head? == some '-'
  let cs := if negative then cs.drop 1 else cs
  let (whole, afterWhole) ← readDigits cs
  if whole.length > 1 && whole.head? == some '0' then none
  let (fraction, afterFraction) ← readFraction afterWhole
  let (exponent, rest) ← readExponent afterFraction
  let number ← numberOf negative whole fraction exponent (rest.length == afterWhole.length)
  return (.num number, rest)

mutual

/-- Reads one value; `fuel` bounds the nesting and the number of items together. -/
def readValue : Nat → List Char → Option (Json × List Char)
  | 0, _ => none
  | fuel + 1, cs =>
      match skipSpace cs with
      | 'n' :: 'u' :: 'l' :: 'l' :: rest => some (.null, rest)
      | 't' :: 'r' :: 'u' :: 'e' :: rest => some (.bool true, rest)
      | 'f' :: 'a' :: 'l' :: 's' :: 'e' :: rest => some (.bool false, rest)
      | '"' :: rest => (readString [] rest).map fun (text, rest) => (.str text, rest)
      | '[' :: rest =>
          match skipSpace rest with
          | ']' :: rest => some (.arr [], rest)
          | rest => readItems fuel [] rest
      | '\x7b' :: rest =>
          match skipSpace rest with
          | '\x7d' :: rest => some (.obj .empty, rest)
          | rest => readFields fuel .empty rest
      | rest => readNumber rest

def readItems : Nat → List Json → List Char → Option (Json × List Char)
  | 0, _, _ => none
  | fuel + 1, acc, cs => do
      let (item, rest) ← readValue fuel cs
      match skipSpace rest with
      | ',' :: rest => readItems fuel (item :: acc) rest
      | ']' :: rest => some (.arr (item :: acc).reverse, rest)
      | _ => none

def readFields : Nat → Record → List Char → Option (Json × List Char)
  | 0, _, _ => none
  | fuel + 1, acc, cs =>
      match skipSpace cs with
      | '"' :: rest => do
          let (key, rest) ← readString [] rest
          match skipSpace rest with
          | ':' :: rest => do
              let (value, rest) ← readValue fuel rest
              match skipSpace rest with
              | ',' :: rest => readFields fuel (acc.insert key value) rest
              | '\x7d' :: rest => some (.obj (acc.insert key value), rest)
              | _ => none
          | _ => none
      | _ => none

end

/-- The value that a text stands for, blanks around it allowed. -/
def parse? (text : String) : Option Json := do
  let cs := text.toList
  let (value, rest) ← readValue (cs.length + 1) cs
  if (skipSpace rest).isEmpty then some value else none

end GraphRecords.Json
