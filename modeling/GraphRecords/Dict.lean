/-!
# Dictionaries

A dictionary is a list of entries in increasing order of key, by code point.
`Dict.insert` keeps that order, so walking the entries is walking the keys in order.
-/

namespace GraphRecords

structure Dict (α : Type u) where
  entries : List (String × α)
  deriving Repr, DecidableEq

namespace Dict

variable {α : Type u} {β : Type v}

/-- The entries stand in strictly increasing order of key. -/
def Ordered (d : Dict α) : Prop :=
  d.entries.Pairwise (fun a b => a.1 < b.1)

instance (d : Dict α) : Decidable d.Ordered :=
  inferInstanceAs (Decidable (List.Pairwise _ _))

def empty : Dict α := ⟨[]⟩

instance : EmptyCollection (Dict α) := ⟨empty⟩

instance : Inhabited (Dict α) := ⟨empty⟩

def lookup (key : String) : List (String × α) → Option α
  | [] => none
  | (k, v) :: rest => if k = key then some v else lookup key rest

def get? (d : Dict α) (key : String) : Option α := lookup key d.entries

def contains (d : Dict α) (key : String) : Bool := (d.get? key).isSome

def put (key : String) (value : α) : List (String × α) → List (String × α)
  | [] => [(key, value)]
  | (k, v) :: rest =>
      if key < k then (key, value) :: (k, v) :: rest
      else if k = key then (key, value) :: rest
      else (k, v) :: put key value rest

/-- Sets one key, replacing the value that stood there. -/
def insert (d : Dict α) (key : String) (value : α) : Dict α := ⟨put key value d.entries⟩

/-- Sets one key only when there is a value for it. -/
def insert? (d : Dict α) (key : String) : Option α → Dict α
  | some value => d.insert key value
  | none => d

def erase (d : Dict α) (key : String) : Dict α :=
  ⟨d.entries.filter (fun entry => entry.1 ≠ key)⟩

/-- Sets every entry of the second dictionary in the first. -/
def override (d e : Dict α) : Dict α :=
  e.entries.foldl (fun acc entry => acc.insert entry.1 entry.2) d

/-- Of several entries with one key the last is kept. -/
def ofList (entries : List (String × α)) : Dict α := override empty ⟨entries⟩

def keys (d : Dict α) : List String := d.entries.map Prod.fst

def values (d : Dict α) : List α := d.entries.map Prod.snd

def isEmpty (d : Dict α) : Bool := d.entries.isEmpty

def size (d : Dict α) : Nat := d.entries.length

def map (f : α → β) (d : Dict α) : Dict β :=
  ⟨d.entries.map (fun entry => (entry.1, f entry.2))⟩

def filter (p : String → α → Bool) (d : Dict α) : Dict α :=
  ⟨d.entries.filter (fun entry => p entry.1 entry.2)⟩

/-- Renames the keys; where two entries meet under one name the later one is kept. -/
def mapKeys (f : String → String) (d : Dict α) : Dict α :=
  ofList (d.entries.map (fun entry => (f entry.1, entry.2)))

@[simp] theorem get?_empty (key : String) : (empty : Dict α).get? key = none := rfl

theorem lookup_put (key other : String) (value : α) (entries : List (String × α)) :
    lookup other (put key value entries) =
      if key = other then some value else lookup other entries := by
  induction entries with
  | nil => simp [put, lookup]
  | cons entry rest ih =>
      obtain ⟨k, v⟩ := entry
      simp only [put]
      split
      · simp [lookup]
      · split
        · rename_i hk
          subst hk
          by_cases h : k = other <;> simp [lookup, h]
        · rename_i hk
          by_cases h : k = other
          · subst h
            simp [lookup, Ne.symm hk]
          · simp [lookup, h, ih]

@[simp] theorem get?_insert_self (d : Dict α) (key : String) (value : α) :
    (d.insert key value).get? key = some value := by
  simp [get?, insert, lookup_put]

theorem get?_insert (d : Dict α) (key other : String) (value : α) :
    (d.insert key value).get? other = if key = other then some value else d.get? other :=
  lookup_put key other value d.entries

theorem mem_put {key : String} {value : α} {entries : List (String × α)} {entry : String × α}
    (h : entry ∈ put key value entries) : entry = (key, value) ∨ entry ∈ entries := by
  induction entries with
  | nil => simpa [put] using h
  | cons head rest ih =>
      obtain ⟨k, v⟩ := head
      simp only [put] at h
      split at h
      · simpa using h
      · split at h
        · rcases List.mem_cons.1 h with h | h
          · exact .inl h
          · exact .inr (List.mem_cons_of_mem _ h)
        · rcases List.mem_cons.1 h with h | h
          · exact .inr (h ▸ List.mem_cons_self)
          · exact (ih h).imp_right (List.mem_cons_of_mem _)

theorem Ordered.insert {d : Dict α} (h : d.Ordered) (key : String) (value : α) :
    (d.insert key value).Ordered := by
  obtain ⟨entries⟩ := d
  simp only [Ordered, Dict.insert] at h ⊢
  induction entries with
  | nil => simp [put]
  | cons head rest ih =>
      obtain ⟨k, v⟩ := head
      obtain ⟨hk, hrest⟩ := List.pairwise_cons.1 h
      simp only [put]
      split
      · rename_i hlt
        refine List.pairwise_cons.2 ⟨fun entry hmem => ?_, h⟩
        rcases List.mem_cons.1 hmem with rfl | hmem
        · exact hlt
        · exact String.lt_trans hlt (hk entry hmem)
      · split
        · rename_i hkey
          subst hkey
          exact List.pairwise_cons.2 ⟨hk, hrest⟩
        · rename_i hnot hne
          refine List.pairwise_cons.2 ⟨fun entry hmem => ?_, ih hrest⟩
          rcases mem_put hmem with rfl | hmem
          · rcases Decidable.em (k < key) with hlt | hge
            · exact hlt
            · exact absurd (String.le_antisymm hnot hge) hne
          · exact hk entry hmem

theorem Ordered.erase {d : Dict α} (h : d.Ordered) (key : String) : (d.erase key).Ordered :=
  h.sublist List.filter_sublist

theorem Ordered.override {d : Dict α} (h : d.Ordered) (e : Dict α) : (d.override e).Ordered := by
  obtain ⟨entries⟩ := e
  simp only [Dict.override]
  induction entries generalizing d with
  | nil => exact h
  | cons entry rest ih => exact ih (h.insert entry.1 entry.2)

theorem ordered_ofList (entries : List (String × α)) : (ofList entries).Ordered :=
  Ordered.override List.Pairwise.nil ⟨entries⟩

end Dict

end GraphRecords
