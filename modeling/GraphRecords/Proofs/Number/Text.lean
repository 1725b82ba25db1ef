import GraphRecords.Json.Writer
import GraphRecords.Proofs.Number.Shortest
import Mathlib.Data.List.Basic

/-!
# The text of a number determines it

The text of a double reads back as its shortest decimal, in either notation, and so two doubles of
one text are the same. A double has a point or an exponent in its text, an integer has neither.
-/

namespace GraphRecords

def AllDigits (text : List Char) : Prop := ∀ c ∈ text, c.isDigit = true

theorem AllDigits.toDigits (n : Nat) : AllDigits (Nat.toDigits 10 n) := fun _ h =>
  Nat.isDigit_of_mem_toDigits (by decide) (by decide) h

theorem AllDigits.zeros (n : Nat) : AllDigits (List.replicate n '0') := by
  intro c h
  rw [List.eq_of_mem_replicate h]
  rfl

private theorem AllDigits.append {left right : List Char} (hl : AllDigits left)
    (hr : AllDigits right) :
    AllDigits (left ++ right) := by
  intro c h
  exact (List.mem_append.mp h).elim (hl c) (hr c)

theorem AllDigits.sublist {left right : List Char} (h : AllDigits right) (hs : left ⊆ right) :
    AllDigits left := fun c hc => h c (hs hc)

private theorem AllDigits.notMem {text : List Char} (h : AllDigits text) {c : Char}
    (hc : c.isDigit = false) : c ∉ text := fun hm => by simp [h c hm] at hc

namespace Binary64

/-- The digits as a natural number. -/
def value (digits : List Char) : ℚ := Nat.ofDigitChars 10 digits 0

/-- Digits with a point among them, which have that value. -/
def ReadsPositional (text : List Char) (q : ℚ) : Prop :=
  ∃ whole fraction, AllDigits whole ∧ AllDigits fraction ∧ text = whole ++ '.' :: fraction ∧
    q = value (whole ++ fraction) * 10 ^ (-(fraction.length : Int))

/-- A first digit, the others after a point, if there are any. -/
def significand (digits : List Char) : List Char :=
  digits.take 1 ++ (if (digits.drop 1).isEmpty then [] else '.' :: digits.drop 1)

def exponentText (exponent : Int) : List Char :=
  (if exponent < 0 then '-' else '+') :: Nat.toDigits 10 exponent.natAbs

/-- Digits with an exponent, which have that value. -/
def ReadsScientific (text : List Char) (q : ℚ) : Prop :=
  ∃ digits exponent, AllDigits digits ∧ digits ≠ [] ∧
    text = significand digits ++ 'e' :: exponentText exponent ∧
    q = value digits * 10 ^ (exponent + 1 - digits.length)

theorem ReadsPositional.unique {text : List Char} {q r : ℚ} (hq : ReadsPositional text q)
    (hr : ReadsPositional text r) : q = r := by
  obtain ⟨whole, fraction, hwhole, hfraction, htext, rfl⟩ := hq
  obtain ⟨whole', fraction', _, _, htext', rfl⟩ := hr
  have hsame := (List.append_cons_inj_of_notMem (hwhole.notMem rfl) (hfraction.notMem rfl)).mp
    (htext.symm.trans htext')
  rw [hsame.1, hsame.2.2]

private theorem filter_significand {digits : List Char} (h : AllDigits digits) :
    (significand digits).filter (· ≠ '.') = digits := by
  have hfilter : digits.filter (· ≠ '.') = digits := by
    refine List.filter_eq_self.mpr fun c hc => ?_
    simpa using fun he : c = '.' => h.notMem rfl (he ▸ hc)
  cases digits with
  | nil => rfl
  | cons first rest =>
    cases rest with
    | nil => exact hfilter
    | cons second rest =>
      have hpoint : (significand (first :: second :: rest)).filter (· ≠ '.') =
          (first :: second :: rest).filter (· ≠ '.') := by
        simp [significand, List.filter_cons]
      rw [hpoint, hfilter]

private theorem exponentText_injective {a b : Int} (h : exponentText a = exponentText b) :
    a = b := by
  obtain ⟨hsign, hdigits⟩ := List.cons.inj h
  have habs := congrArg (Nat.ofDigitChars 10 · 0) hdigits
  simp only [Nat.ofDigitChars_ten_toDigits] at habs
  split at hsign <;> split at hsign
  · omega
  · exact absurd hsign (by decide)
  · exact absurd hsign (by decide)
  · omega

private theorem notMem_significand {digits : List Char} (h : AllDigits digits) :
    'e' ∉ significand digits := by
  intro hm
  have hdigit : 'e' ∈ (significand digits).filter (· ≠ '.') := List.mem_filter.mpr ⟨hm, by decide⟩
  rw [filter_significand h] at hdigit
  exact h.notMem rfl hdigit

private theorem notMem_exponentText (exponent : Int) : 'e' ∉ exponentText exponent := by
  rw [exponentText, List.mem_cons, not_or]
  refine ⟨?_, (AllDigits.toDigits _).notMem rfl⟩
  split <;> decide

theorem ReadsScientific.unique {text : List Char} {q r : ℚ} (hq : ReadsScientific text q)
    (hr : ReadsScientific text r) : q = r := by
  obtain ⟨digits, exponent, hdigits, _, htext, rfl⟩ := hq
  obtain ⟨digits', exponent', hdigits', _, htext', rfl⟩ := hr
  obtain ⟨hleft, _, hright⟩ := (List.append_cons_inj_of_notMem (notMem_significand hdigits)
    (notMem_exponentText exponent)).mp (htext.symm.trans htext')
  have hsame := congrArg (List.filter (· ≠ '.')) hleft
  rw [filter_significand hdigits, filter_significand hdigits'] at hsame
  rw [hsame, exponentText_injective hright]

private theorem ReadsPositional.notMem {text : List Char} {q : ℚ} (h : ReadsPositional text q)
    {c : Char} (hdigit : c.isDigit = false) (hpoint : c ≠ '.') : c ∉ text := by
  obtain ⟨whole, fraction, hwhole, hfraction, rfl, _⟩ := h
  simp only [List.mem_append, List.mem_cons, not_or]
  exact ⟨hwhole.notMem hdigit, hpoint, hfraction.notMem hdigit⟩

/-- The text is one of the two notations for the number. -/
def Reads (text : List Char) (q : ℚ) : Prop := ReadsPositional text q ∨ ReadsScientific text q

theorem Reads.unique {text : List Char} {q r : ℚ} (hq : Reads text q) (hr : Reads text r) :
    q = r := by
  have hmixed {q r : ℚ} (hp : ReadsPositional text q) (hs : ReadsScientific text r) : False := by
    have hnone := hp.notMem (c := 'e') rfl (by decide)
    obtain ⟨digits, exponent, _, _, rfl, _⟩ := hs
    simp at hnone
  rcases hq with hq | hq <;> rcases hr with hr | hr
  · exact hq.unique hr
  · exact (hmixed hq hr).elim
  · exact (hmixed hr hq).elim
  · exact hq.unique hr

private theorem reads_positional {digits : List Char} (h : AllDigits digits) (place : Int) :
    ReadsPositional (positional digits place).toList (value digits * 10 ^ place) := by
  unfold positional
  dsimp only
  split
  · rename_i hplace
    obtain ⟨n, rfl⟩ := Int.eq_ofNat_of_zero_le hplace
    refine ⟨digits ++ List.replicate n '0', ['0'], h.append (.zeros n), .zeros 1, ?_, ?_⟩
    · simp [zeros, String.toList_append]
    · have hvalue : value (digits ++ List.replicate n '0' ++ ['0']) =
          value digits * 10 ^ (n + 1) := by
        unfold value
        rw [Nat.ofDigitChars_append, Nat.ofDigitChars_append, Nat.ofDigitChars_replicate_zero,
          show ['0'] = List.replicate 1 '0' from rfl, Nat.ofDigitChars_replicate_zero]
        push_cast
        ring
      rw [hvalue, mul_assoc, ← zpow_natCast, ← zpow_add₀ (by norm_num)]
      simp
  · rename_i hplace
    split
    · rename_i hpoint
      have hcut := List.take_append_drop ((digits.length : Int) + place).toNat digits
      refine ⟨digits.take ((digits.length : Int) + place).toNat,
        digits.drop ((digits.length : Int) + place).toNat, h.sublist (List.take_subset _ _),
        h.sublist (List.drop_subset _ _), by simp [String.toList_append], ?_⟩
      rw [hcut, List.length_drop]
      congr 2
      omega
    · rename_i hpoint
      refine ⟨['0'], List.replicate (-((digits.length : Int) + place)).toNat '0' ++ digits,
        .zeros 1, AllDigits.append (.zeros _) h, by simp [zeros, String.toList_append], ?_⟩
      have hvalue : value (['0'] ++ (List.replicate (-((digits.length : Int) + place)).toNat '0' ++
          digits)) = value digits := by
        unfold value
        rw [Nat.ofDigitChars_append, Nat.ofDigitChars_append,
          show ['0'] = List.replicate 1 '0' from rfl, Nat.ofDigitChars_replicate_zero,
          Nat.ofDigitChars_replicate_zero, Nat.mul_zero]
      rw [hvalue, List.length_append, List.length_replicate]
      congr 2
      push_cast
      omega

private theorem reads_scientific {digits : List Char} (h : AllDigits digits) (hne : digits ≠ [])
    (exponent : Int) : ReadsScientific (scientific digits exponent).toList
      (value digits * 10 ^ (exponent + 1 - digits.length)) := by
  refine ⟨digits, exponent, h, hne, ?_, rfl⟩
  unfold scientific significand exponentText
  dsimp only
  split <;> split <;> simp [String.toList_append]

/-- The text of a double without its sign. -/
def body (x : Binary64) : String :=
  let chars := Nat.toDigits 10 x.shortest.1
  let exponent := (chars.length : Int) + x.shortest.2 - 1
  if layout.least ≤ exponent && exponent < layout.limit then positional chars x.shortest.2
  else scientific chars exponent

private theorem render_eq (x : Binary64) :
    x.render = (if x.isNegative then "-" else "") ++ x.body := rfl

/-- The text of a double reads back as its shortest decimal. -/
theorem reads_body (x : Binary64) :
    Reads x.body.toList ((x.shortest.1 : ℚ) * 10 ^ x.shortest.2) := by
  have hdigits := AllDigits.toDigits x.shortest.1
  have hvalue : (x.shortest.1 : ℚ) = value (Nat.toDigits 10 x.shortest.1) := by
    rw [value, Nat.ofDigitChars_ten_toDigits]
  rw [hvalue]
  unfold body
  dsimp only
  split
  · exact .inl (reads_positional hdigits x.shortest.2)
  · have hscientific := reads_scientific hdigits Nat.toDigits_ne_nil
      (((Nat.toDigits 10 x.shortest.1).length : Int) + x.shortest.2 - 1)
    rw [show ((Nat.toDigits 10 x.shortest.1).length : Int) + x.shortest.2 - 1 + 1 -
      ((Nat.toDigits 10 x.shortest.1).length : Int) = x.shortest.2 by ring] at hscientific
    exact .inr hscientific

private theorem Reads.head_ne {text : List Char} {q : ℚ} (h : Reads text q) {c : Char}
    (hdigit : c.isDigit = false) (hpoint : c ≠ '.') (rest : List Char) : text ≠ c :: rest := by
  rintro rfl
  rcases h with hp | ⟨digits, exponent, hdigits, hne, htext, _⟩
  · exact hp.notMem hdigit hpoint List.mem_cons_self
  · obtain ⟨first, others, rfl⟩ := List.exists_cons_of_ne_nil hne
    have hfirst : c = first := (List.cons.inj htext).1
    exact hdigits.notMem hdigit (hfirst ▸ List.mem_cons_self)

private theorem eq_of_magnitude {x y : Binary64} (hsign : x.isNegative = y.isNegative)
    (hmagnitude : x.magnitude = y.magnitude) : x = y := by
  have hx := x.bits.toNat_lt
  have hy := y.bits.toNat_lt
  have hbits : x.bits.toNat = y.bits.toNat := by
    have hsides := decide_eq_decide.mp hsign
    unfold magnitude signBit at *
    omega
  exact congrArg Binary64.mk (UInt64.toNat_inj.mp hbits)

theorem render_injective {x y : Binary64} (h : x.render = y.render) : x = y := by
  have hsame (hbody : x.body.toList = y.body.toList) : x.magnitude = y.magnitude := by
    have hvalue := (reads_body x).unique (hbody ▸ reads_body y)
    exact (roundsTo_shortest x).unique (hvalue ▸ roundsTo_shortest y)
  rw [render_eq, render_eq] at h
  have htext := congrArg String.toList h
  rw [String.toList_append, String.toList_append] at htext
  cases hx : x.isNegative <;> cases hy : y.isNegative <;> rw [hx, hy] at htext
  · exact eq_of_magnitude (hx.trans hy.symm) (hsame htext)
  · exact absurd htext ((reads_body x).head_ne rfl (by decide) _)
  · exact absurd htext.symm ((reads_body y).head_ne rfl (by decide) _)
  · exact eq_of_magnitude (hx.trans hy.symm) (hsame (List.cons.inj htext).2)

private theorem point_or_exponent_mem_render (x : Binary64) :
    '.' ∈ x.render.toList ∨ 'e' ∈ x.render.toList := by
  rw [render_eq, String.toList_append]
  rcases reads_body x with ⟨whole, fraction, _, _, htext, _⟩ | ⟨digits, exponent, _, _, htext, _⟩
  · exact .inl (List.mem_append_right _ (htext ▸ by simp))
  · exact .inr (List.mem_append_right _ (htext ▸ by simp))

end Binary64

namespace Number

private theorem toList_toString_int (i : Int) : (toString i).toList =
    (if 0 ≤ i then [] else ['-']) ++ Nat.toDigits 10 i.natAbs := by
  rw [Int.toString_eq_repr, Int.repr_eq_if]
  split
  · rw [Nat.repr_eq_ofList_toDigits, String.toList_ofList, List.nil_append,
      show i.toNat = i.natAbs by omega]
  · rw [String.toList_append, Nat.repr_eq_ofList_toDigits, show (-i).toNat = i.natAbs by omega]
    simp

private theorem mem_toString_int {i : Int} {c : Char} (h : c ∈ (toString i).toList) :
    c.isDigit = true ∨ c = '-' := by
  rw [toList_toString_int] at h
  rcases List.mem_append.mp h with hm | hm
  · split at hm
    · cases hm
    · exact .inr (List.mem_singleton.mp hm)
  · exact .inl (AllDigits.toDigits _ c hm)

private theorem toString_int_injective {i j : Int} (h : toString i = toString j) : i = j := by
  have hdigits {m n : Nat} (hd : Nat.toDigits 10 m = Nat.toDigits 10 n) : m = n := by
    have hvalue := congrArg (Nat.ofDigitChars 10 · 0) hd
    simpa only [Nat.ofDigitChars_ten_toDigits] using hvalue
  have hsign (n : Nat) (rest : List Char) : Nat.toDigits 10 n ≠ '-' :: rest := fun hd =>
    (AllDigits.toDigits n).notMem rfl (hd ▸ List.mem_cons_self)
  have htext := congrArg String.toList h
  rw [toList_toString_int, toList_toString_int] at htext
  split at htext <;> split at htext
  · have habs := hdigits htext
    omega
  · exact absurd htext (hsign _ _)
  · exact absurd htext.symm (hsign _ _)
  · have habs := hdigits (List.cons.inj htext).2
    omega

private theorem render_int_ne_float (i : Int) (x : Binary64) : toString i ≠ x.render := by
  intro h
  rcases x.point_or_exponent_mem_render with hm | hm <;> rw [← h] at hm <;>
    exact absurd (mem_toString_int hm) (by decide)

theorem render_injective {m n : Number} (h : m.render = n.render) : m = n := by
  cases m with
  | int i =>
    cases n with
    | int j => exact congrArg Number.int (toString_int_injective h)
    | float y => exact absurd h (render_int_ne_float i y)
  | float x =>
    cases n with
    | int j => exact absurd h.symm (render_int_ne_float j x)
    | float y => exact congrArg Number.float (Binary64.render_injective h)

theorem render_ne_quote (n : Number) (rest : List Char) : n.render.toList ≠ '"' :: rest := by
  intro h
  cases n with
  | int i =>
    have hm : '"' ∈ (toString i).toList := by
      rw [show (toString i).toList = _ from h]
      exact List.mem_cons_self
    exact absurd (mem_toString_int hm) (by decide)
  | float x =>
    rw [render, Binary64.render_eq, String.toList_append] at h
    cases hx : x.isNegative <;> rw [hx] at h
    · exact absurd h ((Binary64.reads_body x).head_ne rfl (by decide) _)
    · exact absurd (List.cons.inj h).1 (by decide)

end Number

end GraphRecords
