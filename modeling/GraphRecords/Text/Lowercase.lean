import GraphRecords.Text.CaseTable

/-!
# Lower case

The full lower case of a text. A capital sigma ends a word when a cased character stands before
it and none after it, case-ignorable characters not counting.
-/

namespace GraphRecords

namespace Lowercase

def single (c : Char) : Char :=
  match CaseTable.shifts.find? (fun shift => shift.covers c.toNat) with
  | some shift => Char.ofNat (c.toNat + shift.offset).toNat
  | none => c

/-- One character may have a lower case of two. -/
def expand (c : Char) : List Char :=
  if c.toNat < 128 then [c.toLower]
  else if c = '\u0130' then ['i', '\u0307']
  else [single c]

def reachesCased (cs : List Char) : Bool :=
  match cs.dropWhile (fun c => CaseTable.within CaseTable.ignorable c.toNat) with
  | c :: _ => CaseTable.within CaseTable.cased c.toNat
  | [] => false

/-- Lowers a text whose earlier characters, nearest first, are `before`. -/
def lowerAfter (before : List Char) : List Char → List Char
  | [] => []
  | c :: rest =>
      (if c = 'Σ' then [if reachesCased before && !reachesCased rest then 'ς' else 'σ']
        else expand c) ++ lowerAfter (c :: before) rest

end Lowercase

def lowercase (text : String) : String := String.ofList (Lowercase.lowerAfter [] text.toList)

end GraphRecords
