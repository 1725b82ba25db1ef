/-!
# Blank space

The characters of the Unicode property White_Space, trimming and splitting at them.
-/

namespace GraphRecords

def isBlank (c : Char) : Bool :=
  let n := c.toNat
  (0x9 ≤ n && n ≤ 0xd) || n == 0x20 || n == 0x85 || n == 0xa0 || n == 0x1680 ||
    (0x2000 ≤ n && n ≤ 0x200a) || n == 0x2028 || n == 0x2029 || n == 0x202f || n == 0x205f ||
    n == 0x3000

theorem isBlank_of_isWhitespace {c : Char} (h : c.isWhitespace) : isBlank c := by
  simp only [Char.isWhitespace, Bool.or_eq_true, decide_eq_true_eq] at h
  rcases h with ((rfl | rfl) | rfl) | rfl <;> rfl

def trimBlank (text : String) : String :=
  String.ofList ((text.toList.dropWhile isBlank).reverse.dropWhile isBlank).reverse

def allBlank (text : String) : Bool := text.toList.all isBlank

/-- The words still to come, `word` being the letters read of the current one, last first. -/
def gatherWords (word : List Char) : List Char → List (List Char)
  | [] => if word.isEmpty then [] else [word.reverse]
  | c :: rest =>
      if isBlank c then (if word.isEmpty then [] else [word.reverse]) ++ gatherWords [] rest
      else gatherWords (c :: word) rest

/-- The maximal runs of characters that are not blank, in order. -/
def words (text : String) : List String := (gatherWords [] text.toList).map String.ofList

end GraphRecords
