import GraphRecords.Dict
import Mathlib.Data.List.Nodup

/-!
# Entries of a dictionary

What a dictionary looks up is what stands in its entries, and entries in order are settled by
what is looked up. Filling a dictionary from entries with different keys only reorders them.
-/

namespace GraphRecords.Dict

variable {α : Type u} {β : Type v}

theorem Ordered.nodup_keys {d : Dict α} (h : d.Ordered) : d.keys.Nodup := by
  apply List.pairwise_map.mpr
  apply List.Pairwise.imp ?_ h
  intro a b hab he
  rw [he] at hab
  exact String.lt_irrefl _ hab

theorem Ordered.tail {entry : String × α} {rest : List (String × α)}
    (h : (⟨entry :: rest⟩ : Dict α).Ordered) : (⟨rest⟩ : Dict α).Ordered :=
  List.Pairwise.of_cons h

theorem mem_of_lookup {key : String} {value : α} {entries : List (String × α)}
    (h : lookup key entries = some value) : (key, value) ∈ entries := by
  induction entries with
  | nil => cases h
  | cons entry rest ih =>
    obtain ⟨k, v⟩ := entry
    simp only [lookup] at h
    split at h
    · rename_i hk
      cases h
      exact hk ▸ List.mem_cons_self
    · exact List.mem_cons_of_mem _ (ih h)

theorem lookup_eq_some_iff {key : String} {value : α} {entries : List (String × α)}
    (hn : (entries.map Prod.fst).Nodup) :
    lookup key entries = some value ↔ (key, value) ∈ entries := by
  refine ⟨mem_of_lookup, ?_⟩
  intro h
  induction entries with
  | nil => cases h
  | cons entry rest ih =>
    obtain ⟨k, v⟩ := entry
    obtain ⟨hk, hrest⟩ := List.nodup_cons.mp hn
    rcases List.mem_cons.mp h with he | hm
    · cases he
      simp [lookup]
    · have hkey : key ∈ rest.map Prod.fst := List.mem_map_of_mem hm
      have hne : k ≠ key := fun he => hk (he ▸ hkey)
      simp [lookup, hne, ih hrest hm]

theorem get?_eq_some_iff {d : Dict α} (h : d.Ordered) {key : String} {value : α} :
    d.get? key = some value ↔ (key, value) ∈ d.entries :=
  lookup_eq_some_iff h.nodup_keys

theorem lookup_eq_none_iff {key : String} {entries : List (String × α)} :
    lookup key entries = none ↔ key ∉ entries.map Prod.fst := by
  induction entries with
  | nil => simp [lookup]
  | cons entry rest ih =>
    obtain ⟨k, v⟩ := entry
    by_cases hk : k = key
    · simp [lookup, hk]
    · simp [lookup, hk, ih, Ne.symm hk]

theorem get?_eq_none_iff {d : Dict α} {key : String} : d.get? key = none ↔ key ∉ d.keys :=
  lookup_eq_none_iff

theorem contains_iff {d : Dict α} {key : String} : d.contains key = true ↔ key ∈ d.keys := by
  rw [contains, Option.isSome_iff_ne_none, Ne, get?_eq_none_iff, Decidable.not_not]

@[simp] theorem mem_keys_insert_iff {d : Dict α} {key other : String} {value : α} :
    other ∈ (d.insert key value).keys ↔ other = key ∨ other ∈ d.keys := by
  rw [← contains_iff, ← contains_iff, contains, contains, get?_insert]
  split
  · rename_i hkey
    exact ⟨fun _ => .inl hkey.symm, fun _ => rfl⟩
  · rename_i hkey
    exact ⟨.inr, fun h => h.resolve_left (Ne.symm hkey)⟩

theorem mem_keys_insert_self (d : Dict α) (key : String) (value : α) :
    key ∈ (d.insert key value).keys := mem_keys_insert_iff.mpr (.inl rfl)

/-- Where every step sets what is looked up or leaves it, it is in the end what was set last. -/
theorem foldl_eq_last {γ : Type w} {step : γ → α → γ} (view : γ → Option β) {set? : α → Option β}
    (h : ∀ state x, view (step state x) = (set? x).or (view state)) (xs : List α) (state : γ) :
    view (xs.foldl step state) = (xs.filterMap set?).getLast?.or (view state) := by
  induction xs generalizing state with
  | nil => rfl
  | cons x xs ih =>
    rw [List.foldl_cons, ih, h]
    cases hx : set? x with
    | none => rw [List.filterMap_cons_none hx, Option.none_or]
    | some value =>
      rw [List.filterMap_cons_some hx, List.getLast?_cons]
      cases (xs.filterMap set?).getLast? <;> rfl

/-- The last of the values that entries have for a key. -/
def lastValue (entries : List (String × α)) (key : String) : Option α :=
  (entries.filterMap fun entry => if entry.1 = key then some entry.2 else none).getLast?

theorem get?_override_entries (d : Dict α) (entries : List (String × α)) (key : String) :
    (d.override ⟨entries⟩).get? key = (lastValue entries key).or (d.get? key) := by
  apply foldl_eq_last (fun d : Dict α => d.get? key)
  intro d entry
  rw [get?_insert]
  split <;> rfl

theorem eq_of_perm {d e : Dict α} (hd : d.Ordered) (he : e.Ordered)
    (h : d.entries.Perm e.entries) : d = e := by
  have heq : d.entries = e.entries := by
    apply List.Perm.eq_of_pairwise ?_ hd he h
    intro a b _ _ hab hba
    exact absurd (String.lt_trans hab hba) (String.lt_irrefl _)
  cases d
  cases e
  exact congrArg Dict.mk heq

theorem put_perm {key : String} {value : α} {entries : List (String × α)}
    (h : key ∉ entries.map Prod.fst) :
    (put key value entries).Perm ((key, value) :: entries) := by
  induction entries with
  | nil => exact List.Perm.refl _
  | cons entry rest ih =>
    obtain ⟨k, v⟩ := entry
    simp only [List.map_cons, List.mem_cons, not_or] at h
    simp only [put, if_neg (Ne.symm h.1)]
    split
    · exact List.Perm.refl _
    · exact ((ih h.2).cons _).trans (List.Perm.swap _ _ _)

theorem override_perm {d e : Dict α} (he : e.keys.Nodup)
    (h : ∀ key ∈ e.keys, key ∉ d.keys) :
    (d.override e).entries.Perm (d.entries ++ e.entries) := by
  obtain ⟨entries⟩ := e
  induction entries generalizing d with
  | nil => simp [override]
  | cons entry rest ih =>
    obtain ⟨hk, hrest⟩ := List.nodup_cons.mp he
    have hput : (d.insert entry.1 entry.2).entries.Perm (entry :: d.entries) :=
      put_perm (h entry.1 List.mem_cons_self)
    have hkeys : ∀ key ∈ (⟨rest⟩ : Dict α).keys, key ∉ (d.insert entry.1 entry.2).keys := by
      intro key hkey hm
      rcases List.mem_cons.mp ((hput.map Prod.fst).mem_iff.mp hm) with he | hd
      · exact hk (he ▸ hkey)
      · exact h key (List.mem_cons_of_mem _ hkey) hd
    have hrec : ((d.insert entry.1 entry.2).override ⟨rest⟩).entries.Perm
        ((d.insert entry.1 entry.2).entries ++ rest) := ih hrest hkeys
    exact hrec.trans ((hput.append_right rest).trans List.perm_middle.symm)

theorem ofList_perm {entries : List (String × α)} (h : (entries.map Prod.fst).Nodup) :
    (ofList entries).entries.Perm entries :=
  override_perm h (fun _ _ hm => nomatch hm)

theorem Ordered.ofList_entries {d : Dict α} (h : d.Ordered) : ofList d.entries = d :=
  eq_of_perm (ordered_ofList _) h (ofList_perm h.nodup_keys)

theorem get?_override_of_notMem {d e : Dict α} {key : String} (h : key ∉ e.keys) :
    (d.override e).get? key = d.get? key := by
  obtain ⟨entries⟩ := e
  induction entries generalizing d with
  | nil => rfl
  | cons entry rest ih =>
    simp only [keys, List.map_cons, List.mem_cons, not_or] at h
    have hrec : ((d.insert entry.1 entry.2).override ⟨rest⟩).get? key =
        (d.insert entry.1 entry.2).get? key := ih h.2
    exact hrec.trans (by rw [get?_insert, if_neg (Ne.symm h.1)])

theorem exists_get?_override {d e : Dict α} {key : String} (h : key ∈ e.keys) :
    ∃ value, (key, value) ∈ e.entries ∧ (d.override e).get? key = some value := by
  obtain ⟨entries⟩ := e
  induction entries generalizing d with
  | nil => cases h
  | cons entry rest ih =>
    by_cases hrest : key ∈ (⟨rest⟩ : Dict α).keys
    · obtain ⟨value, hm, hget⟩ := ih (d := d.insert entry.1 entry.2) hrest
      exact ⟨value, List.mem_cons_of_mem _ hm, hget⟩
    · have hkey : key = entry.1 := (List.mem_cons.mp h).resolve_right hrest
      subst hkey
      refine ⟨entry.2, List.mem_cons_self, ?_⟩
      have hskip : ((d.insert entry.1 entry.2).override ⟨rest⟩).get? entry.1 =
          (d.insert entry.1 entry.2).get? entry.1 := get?_override_of_notMem hrest
      exact hskip.trans (get?_insert_self d entry.1 entry.2)

theorem get?_override {e : Dict α} (he : e.Ordered) (d : Dict α) (key : String) :
    (d.override e).get? key = (e.get? key).or (d.get? key) := by
  cases hget : e.get? key with
  | none => exact get?_override_of_notMem (get?_eq_none_iff.mp hget)
  | some value =>
    have hm := (get?_eq_some_iff he).mp hget
    obtain ⟨other, hother, hover⟩ := exists_get?_override (d := d) (List.mem_map_of_mem hm)
    cases ((get?_eq_some_iff he).mpr hother).symm.trans hget
    exact hover

theorem get?_ofList_eq_none_iff {entries : List (String × α)} {key : String} :
    (ofList entries).get? key = none ↔ key ∉ entries.map Prod.fst := by
  constructor
  · intro h hm
    obtain ⟨value, _, hget⟩ := exists_get?_override (d := empty) (e := ⟨entries⟩) hm
    cases h.symm.trans hget
  · exact get?_override_of_notMem (e := ⟨entries⟩)

theorem mem_of_get?_ofList {entries : List (String × α)} {key : String} {value : α}
    (h : (ofList entries).get? key = some value) : (key, value) ∈ entries := by
  by_cases hkey : key ∈ entries.map Prod.fst
  · obtain ⟨v, hm, hget⟩ := exists_get?_override (d := empty) (e := ⟨entries⟩) hkey
    cases h.symm.trans hget
    exact hm
  · cases h.symm.trans (get?_ofList_eq_none_iff.mpr hkey)

theorem get?_ofList_eq_some_iff {entries : List (String × α)} (h : (entries.map Prod.fst).Nodup)
    {key : String} {value : α} :
    (ofList entries).get? key = some value ↔ (key, value) ∈ entries := by
  rw [get?_eq_some_iff (ordered_ofList _), (ofList_perm h).mem_iff]

theorem lookup_filter (p : String → Bool) (key : String) (entries : List (String × α)) :
    lookup key (entries.filter (fun entry => p entry.1)) =
      if p key then lookup key entries else none := by
  induction entries with
  | nil => simp [lookup]
  | cons entry rest ih =>
    obtain ⟨k, v⟩ := entry
    by_cases hk : k = key
    · subst hk
      by_cases hp : p k
      · rw [List.filter_cons_of_pos (by exact hp), lookup, lookup, if_pos rfl, if_pos rfl,
          if_pos hp]
      · rw [List.filter_cons_of_neg (by exact hp), ih, if_neg hp, if_neg hp]
    · rw [lookup, if_neg hk, ← ih, List.filter_cons]
      split
      · rw [lookup, if_neg hk]
      · rfl

theorem get?_filter (d : Dict α) (p : String → Bool) (key : String) :
    (d.filter (fun key _ => p key)).get? key = if p key then d.get? key else none :=
  lookup_filter p key d.entries

theorem Ordered.filter {d : Dict α} (h : d.Ordered) (p : String → α → Bool) :
    (d.filter p).Ordered :=
  h.sublist List.filter_sublist

theorem get?_erase (d : Dict α) (key other : String) :
    (d.erase key).get? other = if other = key then none else d.get? other := by
  rw [erase, get?, lookup_filter (fun other => other ≠ key)]
  by_cases hkey : other = key
  · simp [hkey]
  · simp [hkey, get?]

private theorem filter_put (key : String) (value : α) (entries : List (String × α)) :
    (put key value entries).filter (fun entry => entry.1 ≠ key) =
      entries.filter (fun entry => entry.1 ≠ key) := by
  induction entries with
  | nil => simp [put]
  | cons entry rest ih =>
    obtain ⟨k, v⟩ := entry
    simp only [put]
    split
    · exact List.filter_cons_of_neg (by simp)
    · split
      · rename_i hk
        subst hk
        rw [List.filter_cons_of_neg (by simp), List.filter_cons_of_neg (by simp)]
      · rw [List.filter_cons, List.filter_cons, ih]

theorem erase_insert_self (d : Dict α) (key : String) (value : α) :
    (d.insert key value).erase key = d.erase key :=
  congrArg Dict.mk (filter_put key value d.entries)

theorem get?_insert? (d : Dict α) (key other : String) (value : Option α) :
    (d.insert? key value).get? other = if key = other then value.or (d.get? other)
      else d.get? other := by
  cases value with
  | none => simp [insert?]
  | some value => rw [insert?, get?_insert, Option.some_or]

theorem get?_mapValues (f : String → α → β) (d : Dict α) (key : String) :
    (⟨d.entries.map (fun entry => (entry.1, f entry.1 entry.2))⟩ : Dict β).get? key =
      (d.get? key).map (f key) := by
  obtain ⟨entries⟩ := d
  induction entries with
  | nil => rfl
  | cons entry rest ih =>
    simp only [get?, List.map_cons, lookup] at ih ⊢
    split
    · rename_i hkey
      rw [hkey, Option.map_some]
    · exact ih

theorem get?_map (f : α → β) (d : Dict α) (key : String) :
    (d.map f).get? key = (d.get? key).map f :=
  get?_mapValues (fun _ => f) d key

theorem Ordered.map {d : Dict α} (h : d.Ordered) (f : α → β) : (d.map f).Ordered :=
  List.pairwise_map.mpr h

theorem get?_mapKeys {d : Dict α} (hd : d.Ordered) {f : String → String} {key : String}
    (hf : ∀ j ∈ d.keys, f j = f key → j = key) : (d.mapKeys f).get? (f key) = d.get? key := by
  cases hget : d.get? key with
  | none =>
    rw [mapKeys, get?_ofList_eq_none_iff, List.map_map]
    intro hm
    obtain ⟨entry, he, hk⟩ := List.mem_map.mp hm
    have hkey := hf entry.1 (List.mem_map_of_mem he) hk
    exact get?_eq_none_iff.mp hget (hkey ▸ List.mem_map_of_mem he)
  | some value =>
    have hmem : f key ∈ (d.entries.map (fun entry => (f entry.1, entry.2))).map Prod.fst :=
      List.mem_map_of_mem (List.mem_map_of_mem (mem_of_lookup hget))
    cases hnew : (d.mapKeys f).get? (f key) with
    | none => exact absurd hmem (get?_ofList_eq_none_iff.mp hnew)
    | some v =>
      obtain ⟨⟨k, w⟩, he, heq⟩ := List.mem_map.mp (mem_of_get?_ofList hnew)
      obtain ⟨hk, rfl⟩ := Prod.mk.inj heq
      have hkey : k = key := hf k (List.mem_map_of_mem he) hk
      subst hkey
      exact ((get?_eq_some_iff hd).mpr he).symm.trans hget

theorem mapKeys_perm {d : Dict α} (hd : d.Ordered) (f : String → String)
    (hf : ∀ j ∈ d.keys, ∀ k ∈ d.keys, f j = f k → j = k) :
    (d.mapKeys f).entries.Perm (d.entries.map (fun entry => (f entry.1, entry.2))) := by
  have hnames : (d.keys.map f).Nodup := List.Nodup.map_on hf hd.nodup_keys
  rw [keys, List.map_map] at hnames
  apply ofList_perm
  rwa [List.map_map]

theorem mapKeys_mapKeys_cancel {d : Dict α} (hd : d.Ordered) {f g : String → String}
    (h : ∀ key ∈ d.keys, g (f key) = key) : (d.mapKeys f).mapKeys g = d := by
  have hf : ∀ j ∈ d.keys, ∀ k ∈ d.keys, f j = f k → j = k := by
    intro j hj k hk he
    rw [← h j hj, he, h k hk]
  have hperm := mapKeys_perm hd f hf
  have hkey : ∀ key ∈ (d.mapKeys f).keys, ∃ k ∈ d.keys, f k = key := by
    intro key hm
    obtain ⟨entry, he, rfl⟩ := List.mem_map.mp hm
    obtain ⟨old, hold, rfl⟩ := List.mem_map.mp (hperm.mem_iff.mp he)
    exact ⟨old.1, List.mem_map_of_mem hold, rfl⟩
  have hg : ∀ j ∈ (d.mapKeys f).keys, ∀ k ∈ (d.mapKeys f).keys, g j = g k → j = k := by
    intro j hj k hk he
    obtain ⟨a, ha, rfl⟩ := hkey j hj
    obtain ⟨b, hb, rfl⟩ := hkey k hk
    rw [h a ha, h b hb] at he
    rw [he]
  have hback : (d.entries.map (fun entry => (f entry.1, entry.2))).map
      (fun entry => (g entry.1, entry.2)) = d.entries := by
    have hentry : ∀ entry ∈ d.entries,
        ((fun entry : String × α => (g entry.1, entry.2)) ∘
          fun entry => (f entry.1, entry.2)) entry = id entry := by
      intro entry he
      change (g (f entry.1), entry.2) = entry
      rw [h entry.1 (List.mem_map_of_mem he)]
    rw [List.map_map, List.map_congr_left hentry, List.map_id]
  apply eq_of_perm (ordered_ofList _) hd
  exact (mapKeys_perm (ordered_ofList _) g hg).trans ((hperm.map _).trans (.of_eq hback))

end GraphRecords.Dict
