import GraphRecords.Json.Reader
import GraphRecords.Proofs.Json.Equality
import GraphRecords.Proofs.Number.Text

/-!
# The text of a string or a number determines it

A string is read back from its text. The text of a number starts differently, so among strings and
numbers a text belongs to one value.
-/

namespace GraphRecords.Json

private theorem codeUnit?_control {n : Nat} (h : n < 0x20) :
    codeUnit? '0' '0' (hexDigit (n / 16)) (hexDigit (n % 16)) = some n := by
  have hall : ∀ n < 0x20, codeUnit? '0' '0' (hexDigit (n / 16)) (hexDigit (n % 16)) = some n := by
    decide
  exact hall n h

/-- The code of a control character is no surrogate, so it stands for itself alone. -/
private theorem readString_code {a b c d : Char} {n : Nat} (h : codeUnit? a b c d = some n)
    (hn : n < 0x20) (acc tail : List Char) :
    readString acc ('\\' :: 'u' :: a :: b :: c :: d :: tail) =
      readString (Char.ofNat n :: acc) tail := by
  have hhigh : isHighSurrogate n = false := by
    simp only [isHighSurrogate, Bool.and_eq_false_imp, decide_eq_true_eq]
    omega
  have hlow : isLowSurrogate n = false := by
    simp only [isLowSurrogate, Bool.and_eq_false_imp, decide_eq_true_eq]
    omega
  rw [readString.eq_def]
  split
  · rename_i heq
    simp at heq
  · rename_i heq
    simp only [List.cons.injEq, true_and] at heq
    obtain ⟨rfl, rfl, rfl, rfl, rfl⟩ := heq
    simp [h, hhigh, hlow]
  · rename_i heq
    simp only [List.cons.injEq, true_and] at heq
    obtain ⟨rfl, rfl, rfl, rfl, rfl⟩ := heq
    simp [h, hhigh, hlow]
  · rename_i hcode heq
    simp only [List.cons.injEq, true_and] at heq
    exact (hcode _ _ _ _ _ heq.1.symm heq.2.symm).elim
  · rename_i hcode _ heq
    simp only [List.cons.injEq] at heq
    exact (hcode _ _ _ _ _ heq.1.symm heq.2.symm).elim
  · rename_i heq
    cases heq

private theorem readString_escape (acc : List Char) (c : Char) (tail : List Char) :
    readString acc (escape c ++ tail) = readString (c :: acc) tail := by
  unfold escape
  split
  case h_8 hquote hslash _ _ _ _ _ =>
    split
    · rename_i hcontrol
      have hcode := readString_code (codeUnit?_control hcontrol) hcontrol acc tail
      rwa [Char.ofNat_toNat] at hcode
    · rename_i hplain
      rw [List.singleton_append, readString.eq_def]
      split
      · rename_i heq
        exact (hquote (List.cons.inj heq).1).elim
      · rename_i heq
        exact (hslash (List.cons.inj heq).1).elim
      · rename_i heq
        exact (hslash (List.cons.inj heq).1).elim
      · rename_i heq
        exact (hslash (List.cons.inj heq).1).elim
      · rename_i heq
        obtain ⟨rfl, rfl⟩ := List.cons.inj heq
        have hkept : (decide (c.toNat < 32) || c == '\\') = false := by
          simp only [Bool.or_eq_false_iff, decide_eq_false_iff_not, beq_eq_false_iff_ne]
          exact ⟨hplain, hslash⟩
        rw [hkept]
        rfl
      · rename_i heq
        cases heq
  all_goals simp [readString, simpleEscape?]

/-- What is written between quotes is read back. -/
theorem readString_flatMap_escape (acc text tail : List Char) :
    readString acc (text.flatMap escape ++ '"' :: tail) =
      some (String.ofList (acc.reverse ++ text), tail) := by
  induction text generalizing acc with
  | nil => simp [readString]
  | cons c rest ih =>
    rw [List.flatMap_cons, List.append_assoc, readString_escape, ih]
    simp

private theorem toList_quote (text : String) :
    (quote text).toList = '"' :: (text.toList.flatMap escape ++ ['"']) := by
  simp [quote, String.toList_append]

private theorem quote_injective {s t : String} (h : quote s = quote t) : s = t := by
  have htext := congrArg String.toList h
  rw [toList_quote, toList_quote] at htext
  have hs := readString_flatMap_escape [] s.toList []
  rw [(List.cons.inj htext).2, readString_flatMap_escape [] t.toList []] at hs
  have hread := (Prod.mk.inj (Option.some.inj hs)).1
  simpa using hread.symm

/-- A string or a number. -/
def isTextOrNumber (value : Json) : Bool := value.isString || value.isNumber

theorem render_injective {a b : Json} (ha : a.isTextOrNumber = true) (hb : b.isTextOrNumber = true)
    (h : a.render = b.render) : a = b := by
  have hmixed (text : String) (n : Number) : quote text ≠ n.render := fun he =>
    n.render_ne_quote _ (he ▸ toList_quote text)
  cases a with
  | str s =>
    cases b with
    | str t => exact congrArg Json.str (quote_injective h)
    | num n => exact absurd h (hmixed s n)
    | null | bool | arr | obj => cases hb
  | num m =>
    cases b with
    | str t => exact absurd h.symm (hmixed t m)
    | num n => exact congrArg Json.num (Number.render_injective h)
    | null | bool | arr | obj => cases hb
  | null | bool | arr | obj => cases ha

theorem isTextOrNumber_of_same {value other : Json} (hv : value.isTextOrNumber = true)
    (h : (other == value) = true) : other.isTextOrNumber = true := by
  change other.same value = true at h
  cases value with
  | str s => cases other <;> first | rfl | cases h
  | num n => cases other <;> first | rfl | cases h
  | null | bool | arr | obj => cases hv

end GraphRecords.Json
