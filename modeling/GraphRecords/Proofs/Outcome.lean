import Mathlib.Data.List.Forall2

/-!
# Steps that may fail

When a chain of steps that may fail succeeds: each of its steps does. Two chains end alike when
their steps do.
-/

namespace GraphRecords.Outcome

variable {ε α β : Type}

theorem bind_eq_ok_iff {x : Except ε α} {f : α → Except ε β} {b : β} :
    (x >>= f) = .ok b ↔ ∃ a, x = .ok a ∧ f a = .ok b := by
  cases x with
  | error e =>
    constructor
    · intro h
      cases h
    · rintro ⟨a, ha, _⟩
      cases ha
  | ok a => exact ⟨fun h => ⟨a, rfl, h⟩, fun ⟨_, ha, h⟩ => Except.ok.inj ha ▸ h⟩

theorem mapError_eq_ok_iff {ε' : Type} {x : Except ε α} {f : ε → ε'} {a : α} :
    x.mapError f = .ok a ↔ x = .ok a := by
  cases x with
  | error e =>
    constructor
    · intro h
      cases h
    · intro h
      cases h
  | ok b => exact ⟨fun h => congrArg Except.ok (Except.ok.inj h), fun h => h ▸ rfl⟩

theorem mapError_eq_error {ε' : Type} {x : Except ε α} {f : ε → ε'} {error : ε'}
    (h : x.mapError f = .error error) : ∃ source, x = .error source := by
  cases x with
  | error source => exact ⟨source, rfl⟩
  | ok a => cases h

/-- All errors that the step can end in fulfil the predicate. -/
def FailsOnly (p : ε → Prop) (x : Except ε α) : Prop := ∀ error, x = .error error → p error

theorem failsOnly_ok {p : ε → Prop} (a : α) : FailsOnly p (Except.ok a) := nofun

theorem failsOnly_error {p : ε → Prop} {error : ε} (h : p error) :
    FailsOnly p (Except.error error : Except ε α) := fun _ he => Except.error.inj he ▸ h

theorem FailsOnly.bind_of_eq {p : ε → Prop} {x : Except ε α} {f : α → Except ε β}
    (hx : FailsOnly p x) (hf : ∀ a, x = .ok a → FailsOnly p (f a)) : FailsOnly p (x >>= f) := by
  cases x with
  | error error => exact failsOnly_error (hx error rfl)
  | ok a => exact hf a rfl

theorem FailsOnly.bind {p : ε → Prop} {x : Except ε α} {f : α → Except ε β} (hx : FailsOnly p x)
    (hf : ∀ a, FailsOnly p (f a)) : FailsOnly p (x >>= f) :=
  hx.bind_of_eq fun a _ => hf a

theorem failsOnly_mapError {ε' : Type} {p : ε' → Prop} {f : ε → ε'} (hf : ∀ error, p (f error))
    (x : Except ε α) : FailsOnly p (x.mapError f) := by
  cases x with
  | error error => exact failsOnly_error (hf error)
  | ok a => exact failsOnly_ok a

theorem failsOnly_mapM {p : ε → Prop} {f : α → Except ε β} {xs : List α}
    (hf : ∀ x ∈ xs, FailsOnly p (f x)) : FailsOnly p (xs.mapM f) := by
  induction xs with
  | nil => exact failsOnly_ok []
  | cons x xs ih =>
    obtain ⟨hx, hxs⟩ := List.forall_mem_cons.mp hf
    rw [List.mapM_cons]
    exact hx.bind fun _ => (ih hxs).bind fun _ => failsOnly_ok _

theorem failsOnly_forM {p : ε → Prop} {f : α → Except ε Unit} {xs : List α}
    (hf : ∀ x ∈ xs, FailsOnly p (f x)) : FailsOnly p (xs.forM f) := by
  induction xs with
  | nil => exact failsOnly_ok ()
  | cons x xs ih =>
    obtain ⟨hx, hxs⟩ := List.forall_mem_cons.mp hf
    exact hx.bind fun _ => ih hxs

/-- Two steps end alike: in the same error, or both in results, which are related. -/
inductive Alike {α' : Type} (R : α → α' → Prop) : Except ε α → Except ε α' → Prop
  | ok {a : α} {b : α'} (h : R a b) : Alike R (.ok a) (.ok b)
  | error (error : ε) : Alike R (.error error) (.error error)

section Alike

variable {α' β' : Type} {R : α → α' → Prop} {S : β → β' → Prop}
variable {x : Except ε α} {y : Except ε α'}

theorem Alike.of_forall (x : Except ε α) {R : α → α → Prop} (h : ∀ a, R a a) : Alike R x x := by
  cases x with
  | error error => exact .error error
  | ok a => exact .ok (h a)

theorem Alike.bind (hxy : Alike R x y) {f : α → Except ε β} {g : α' → Except ε β'}
    (hfg : ∀ a b, R a b → Alike S (f a) (g b)) : Alike S (x >>= f) (y >>= g) := by
  cases hxy with
  | ok h => exact hfg _ _ h
  | error error => exact .error error

theorem Alike.bind_of_eq (x : Except ε α) {f : α → Except ε β} {g : α → Except ε β'}
    (hfg : ∀ a, x = .ok a → Alike S (f a) (g a)) : Alike S (x >>= f) (x >>= g) := by
  cases x with
  | error error => exact .error error
  | ok a => exact hfg a rfl

theorem Alike.map (hxy : Alike R x y) {f : α → β} {g : α' → β'}
    (hfg : ∀ a b, R a b → S (f a) (g b)) : Alike S (x.map f) (y.map g) := by
  cases hxy with
  | ok h => exact .ok (hfg _ _ h)
  | error error => exact .error error

theorem Alike.mapError {ε' : Type} (h : Alike R x y) (f : ε → ε') :
    Alike R (x.mapError f) (y.mapError f) := by
  cases h with
  | ok h => exact .ok h
  | error error => exact .error _

theorem Alike.eq_error_iff (h : Alike R x y) (error : ε) : x = .error error ↔ y = .error error := by
  cases h with
  | ok => exact ⟨nofun, nofun⟩
  | error => exact ⟨fun he => congrArg Except.error (Except.error.inj he),
      fun he => congrArg Except.error (Except.error.inj he)⟩

theorem Alike.of_eq_ok (h : Alike R x y) {a : α} {b : α'} (hx : x = .ok a) (hy : y = .ok b) :
    R a b := by
  cases h with
  | ok h =>
    cases hx
    cases hy
    exact h
  | error => cases hx

end Alike

theorem mapM_eq_ok_iff {f : α → Except ε β} {xs : List α} {ys : List β} :
    xs.mapM f = .ok ys ↔ List.Forall₂ (fun x y => f x = .ok y) xs ys := by
  induction xs generalizing ys with
  | nil =>
    rw [List.mapM_nil, List.forall₂_nil_left_iff]
    exact ⟨fun h => (Except.ok.inj h).symm, fun h => congrArg Except.ok h.symm⟩
  | cons x xs ih =>
    rw [List.mapM_cons, bind_eq_ok_iff, List.forall₂_cons_left_iff]
    constructor
    · rintro ⟨y, hy, h⟩
      obtain ⟨rest, hrest, he⟩ := bind_eq_ok_iff.mp h
      exact ⟨y, rest, hy, ih.mp hrest, (Except.ok.inj he).symm⟩
    · rintro ⟨y, rest, hy, hrest, rfl⟩
      exact ⟨y, hy, bind_eq_ok_iff.mpr ⟨rest, ih.mpr hrest, rfl⟩⟩

theorem mapM_eq_ok_iff_map {f : α → Except ε β} {g : β → α} (h : ∀ x y, f x = .ok y ↔ x = g y)
    {xs : List α} {ys : List β} : xs.mapM f = .ok ys ↔ xs = ys.map g := by
  have hitems : List.Forall₂ (fun x y => f x = .ok y) xs ys ↔ List.Forall₂ Eq xs (ys.map g) := by
    simp only [List.forall₂_map_right_iff, h]
  rw [mapM_eq_ok_iff, hitems, List.forall₂_eq_eq_eq]

theorem exists_forall₂_iff {R : α → β → Prop} {xs : List α} :
    (∃ ys, List.Forall₂ R xs ys) ↔ ∀ x ∈ xs, ∃ y, R x y := by
  induction xs with
  | nil => simp
  | cons x xs ih =>
    rw [List.forall_mem_cons, ← ih]
    simp only [List.forall₂_cons_left_iff]
    constructor
    · rintro ⟨_, y, ys, hy, hys, rfl⟩
      exact ⟨⟨y, hy⟩, ys, hys⟩
    · rintro ⟨⟨y, hy⟩, ys, hys⟩
      exact ⟨_, y, ys, hy, hys, rfl⟩

theorem exists_mapM_eq_ok_iff {f : α → Except ε β} {xs : List α} :
    (∃ ys, xs.mapM f = .ok ys) ↔ ∀ x ∈ xs, ∃ y, f x = .ok y := by
  simp only [mapM_eq_ok_iff]
  exact exists_forall₂_iff

theorem forM_eq_ok_iff {f : α → Except ε Unit} {xs : List α} :
    xs.forM f = .ok () ↔ ∀ x ∈ xs, f x = .ok () := by
  induction xs with
  | nil => exact ⟨fun _ => nofun, fun _ => rfl⟩
  | cons x xs ih =>
    change (f x >>= fun _ => xs.forM f) = .ok () ↔ _
    rw [bind_eq_ok_iff, List.forall_mem_cons]
    exact ⟨fun ⟨_, hx, h⟩ => ⟨hx, ih.mp h⟩, fun ⟨hx, h⟩ => ⟨(), hx, ih.mpr h⟩⟩

theorem exists_mem_of_forall₂ {R : α → β → Prop} {xs : List α} {ys : List β}
    (h : List.Forall₂ R xs ys) {y : β} (hy : y ∈ ys) : ∃ x ∈ xs, R x y := by
  induction h with
  | nil => cases hy
  | cons hx _ ih =>
    rcases List.mem_cons.mp hy with rfl | hy
    · exact ⟨_, List.mem_cons_self, hx⟩
    · obtain ⟨x, hm, hR⟩ := ih hy
      exact ⟨x, List.mem_cons_of_mem _ hm, hR⟩

theorem forall₂_comp {γ : Type} {R : α → β → Prop} {S : β → γ → Prop} {xs : List α} {ys : List β}
    {zs : List γ} (hR : List.Forall₂ R xs ys) (hS : List.Forall₂ S ys zs) :
    List.Forall₂ (fun x z => ∃ y, R x y ∧ S y z) xs zs := by
  induction hR generalizing zs with
  | nil =>
    cases hS
    exact .nil
  | cons hxy _ ih =>
    cases hS with
    | cons hyz hrest => exact .cons ⟨_, hxy, hyz⟩ (ih hrest)

theorem forall₂_zip_of_forall₂ {γ : Type} {R : α → β → Prop} {xs : List α} {ys : List β}
    (h : List.Forall₂ R xs ys) {zs : List γ} (hlength : zs.length = ys.length) :
    List.Forall₂ (fun x z => ∃ y, R x y ∧ (z, y) ∈ zs.zip ys) xs zs := by
  have hbeside : List.Forall₂ (fun z y => (z, y) ∈ zs.zip ys) zs ys :=
    List.forall₂_iff_zip.mpr ⟨hlength, fun hm => hm⟩
  exact forall₂_comp h hbeside.flip

theorem forall_mem_iff_of_forall₂ {R : α → β → Prop} {p : α → Prop} {q : β → Prop}
    (hR : ∀ x y, R x y → (p x ↔ q y)) {xs : List α} {ys : List β} (h : List.Forall₂ R xs ys) :
    (∀ x ∈ xs, p x) ↔ ∀ y ∈ ys, q y := by
  induction h with
  | nil => exact ⟨fun _ => nofun, fun _ => nofun⟩
  | cons hxy _ ih => rw [List.forall_mem_cons, List.forall_mem_cons, hR _ _ hxy, ih]

theorem exists_mem_of_mapM_eq_ok {f : α → Except ε β} {xs : List α} {ys : List β}
    (h : xs.mapM f = .ok ys) {y : β} (hy : y ∈ ys) : ∃ x ∈ xs, f x = .ok y :=
  exists_mem_of_forall₂ (mapM_eq_ok_iff.mp h) hy

theorem exists_eq_map_iff {f : α → β} {given : Option β} :
    (∃ a : Option α, given = a.map f) ↔ ∀ b ∈ given, ∃ a, b = f a := by
  constructor
  · rintro ⟨a, rfl⟩ b hb
    obtain ⟨a, _, rfl⟩ := Option.map_eq_some_iff.mp hb
    exact ⟨a, rfl⟩
  · intro h
    cases given with
    | none => exact ⟨none, rfl⟩
    | some b =>
      obtain ⟨a, rfl⟩ := h b rfl
      exact ⟨some a, rfl⟩

end GraphRecords.Outcome
