import GraphRecords.Proofs.Columns.Renaming
import GraphRecords.Proofs.Filter.Matching
import GraphRecords.Proofs.Json.WellFormed

/-!
# Filters by column

A filter in attribute names and the filter made of it in columns select the same records, each
record read in the names of its filter. What can go wrong is only in the columns: one that is
read as `and` or `or`, and one that two names share.
-/

namespace GraphRecords

namespace Model

variable {model : Model}

/-- A filter can constrain the name. -/
structure Filterable (model : Model) (name : String) : Prop where
  recognized : model.recognizes name
  toOne : model.isCollection name = false
  ne_and : name ≠ "and"
  ne_or : name ≠ "or"

/-- The column of a name that filters can constrain is read as a column, and as that of no other
name. -/
structure ColumnClear (model : Model) (name : String) : Prop where
  ne_and : model.columns.column name ≠ "and"
  ne_or : model.columns.column name ≠ "or"
  unshared (other : String) (hr : model.recognizes other) (hne : other ≠ name) :
    model.columns.column name ≠ model.columns.column other

/-- Filters can tell the columns of the model apart. -/
def FiltersClear (model : Model) : Prop :=
  ∀ name, model.Filterable name → model.ColumnClear name

private theorem getD_lowerRecord {record : Record} (hr : record.Ordered)
    (hk : ∀ key ∈ record.keys, model.recognizes key) {name : String}
    (hclear : model.ColumnClear name) :
    (model.columns.lowerRecord record).getD (model.columns.column name) = record.getD name := by
  unfold Columns.lowerRecord
  split
  · rename_i hi
    rw [Columns.column_of_isIdentity hi]
  · have hget : (record.mapKeys model.columns.column).get? (model.columns.column name) =
        record.get? name := by
      apply Dict.get?_mapKeys hr
      intro j hj he
      by_contra hne
      exact hclear.unshared j (hk j hj) hne he.symm
    rw [Dict.getD, hget, Dict.getD]

end Model

namespace Filter

open Outcome

variable {model : Model}

private theorem checkColumn_eq_ok {name : String} {constraint : Json}
    (h : checkColumn model name constraint = .ok ()) :
    model.recognizes name ∧ model.isCollection name = false := by
  unfold checkColumn at h
  split at h
  · cases h
  · rename_i hr
    split at h
    · cases h
    · rename_i hc
      exact ⟨by simpa using hr, by simpa using hc⟩

/-- What a checked key is: `and` or `or` with checked branches, or a name to constrain. -/
theorem checkKey_cases {key : String} {constraint : Json}
    (h : checkKey model key constraint = .ok ()) :
    (∃ branches, constraint = .arr branches ∧ (key = "and" ∨ key = "or") ∧
      checkBranches model key branches = .ok ()) ∨ model.Filterable key := by
  have hname (hkey : ¬(key = "and" ∨ key = "or"))
      (hc : checkColumn model key constraint = .ok ()) : model.Filterable key := by
    obtain ⟨hr, hone⟩ := checkColumn_eq_ok hc
    exact ⟨hr, hone, fun he => hkey (.inl he), fun he => hkey (.inr he)⟩
  cases constraint with
  | arr branches =>
    rw [checkKey] at h
    split at h
    · rename_i hkey
      exact .inl ⟨branches, rfl, hkey, h⟩
    · rename_i hkey
      exact .inr (hname hkey h)
  | null | bool | num | str | obj =>
    rw [checkKey] at h
    · split at h
      · cases h
      · rename_i hkey
        exact .inr (hname hkey h)
    · nofun

theorem checkAll_cons_eq_ok {key : String} {constraint : Json} {rest : List (String × Json)}
    (h : checkAll model ((key, constraint) :: rest) = .ok ()) :
    checkKey model key constraint = .ok () ∧ checkAll model rest = .ok () := by
  rw [checkAll, bind_eq_ok_iff] at h
  obtain ⟨_, hkey, hrest⟩ := h
  exact ⟨hkey, hrest⟩

theorem checkBranches_cons_eq_ok {key : String} {branch : Json} {rest : List Json}
    (h : checkBranches model key (branch :: rest) = .ok ()) :
    ∃ fields, branch = .obj ⟨fields⟩ ∧ checkAll model fields = .ok () ∧
      checkBranches model key rest = .ok () := by
  cases branch with
  | obj fields =>
    rw [checkBranches, bind_eq_ok_iff] at h
    obtain ⟨_, hfields, hrest⟩ := h
    exact ⟨fields.entries, rfl, hfields, hrest⟩
  | null | bool | num | str | arr => cases h

/-- The key under which a key of a checked filter stands in the lowered filter. -/
def loweredKey (columns : Columns) (key : String) : String :=
  if key = "and" ∨ key = "or" then key else columns.column key

private theorem lowerEntry_fst {key : String} {constraint : Json}
    (h : checkKey model key constraint = .ok ()) :
    (model.columns.lowerEntry key constraint).1 = loweredKey model.columns key := by
  rcases checkKey_cases h with ⟨branches, rfl, hkey, _⟩ | hname
  · rw [Columns.lowerEntry, if_pos hkey, loweredKey, if_pos hkey]
  · have hkey : ¬(key = "and" ∨ key = "or") := by
      simp [hname.ne_and, hname.ne_or]
    rw [loweredKey, if_neg hkey]
    cases constraint with
    | arr branches => rw [Columns.lowerEntry, if_neg hkey]
    | null | bool | num | str | obj => rfl

theorem lowerEntries_keys {entries : List (String × Json)}
    (h : checkAll model entries = .ok ()) :
    (model.columns.lowerEntries entries).map Prod.fst =
      (entries.map Prod.fst).map (loweredKey model.columns) := by
  induction entries with
  | nil => rfl
  | cons entry rest ih =>
    obtain ⟨key, constraint⟩ := entry
    obtain ⟨hkey, hrest⟩ := checkAll_cons_eq_ok h
    simp only [Columns.lowerEntries, List.map_cons, lowerEntry_fst hkey, ih hrest]

theorem checkAll_keys {entries : List (String × Json)} (h : checkAll model entries = .ok ())
    {key : String} (hkey : key ∈ entries.map Prod.fst) :
    (key = "and" ∨ key = "or") ∨ model.Filterable key := by
  induction entries with
  | nil => cases hkey
  | cons entry rest ih =>
    obtain ⟨name, constraint⟩ := entry
    obtain ⟨hname, hrest⟩ := checkAll_cons_eq_ok h
    rcases List.mem_cons.mp hkey with rfl | hmem
    · exact (checkKey_cases hname).imp_left (fun ⟨_, _, hconnective, _⟩ => hconnective)
    · exact ih hrest hmem

private theorem lowerEntries_nodup (hclear : model.FiltersClear)
    {entries : List (String × Json)} (hn : (entries.map Prod.fst).Nodup)
    (h : checkAll model entries = .ok ()) :
    ((model.columns.lowerEntries entries).map Prod.fst).Nodup := by
  rw [lowerEntries_keys h]
  refine List.Nodup.map_on ?_ hn
  intro a ha b hb he
  have hrename {name : String} (hname : model.Filterable name) :
      loweredKey model.columns name = model.columns.column name :=
    if_neg (not_or_intro hname.ne_and hname.ne_or)
  have hkeep {key : String} (hkey : key = "and" ∨ key = "or") :
      loweredKey model.columns key = key := if_pos hkey
  rcases checkAll_keys h ha with hac | haf <;> rcases checkAll_keys h hb with hbc | hbf
  · rwa [hkeep hac, hkeep hbc] at he
  · rw [hkeep hac, hrename hbf] at he
    rcases hac with rfl | rfl
    · exact absurd he.symm (hclear b hbf).ne_and
    · exact absurd he.symm (hclear b hbf).ne_or
  · rw [hkeep hbc, hrename haf] at he
    rcases hbc with rfl | rfl
    · exact absurd he (hclear a haf).ne_and
    · exact absurd he (hclear a haf).ne_or
  · rw [hrename haf, hrename hbf] at he
    by_contra hne
    exact (hclear b hbf).unshared a haf.recognized hne he.symm

theorem lowerEntry_of_filterable {name : String} (h : model.Filterable name) (constraint : Json) :
    model.columns.lowerEntry name constraint = (model.columns.column name, constraint) := by
  cases constraint <;> simp [Columns.lowerEntry, h.ne_and, h.ne_or]

private theorem matchesKey_lowerEntry_of_filterable {row record : Record} {name : String}
    (h : model.Filterable name) (hclear : model.ColumnClear name)
    (hrow : row.getD (model.columns.column name) = record.getD name) (constraint : Json) :
    matchesKey row (model.columns.lowerEntry name constraint).1
        (model.columns.lowerEntry name constraint).2 =
      matchesKey record name constraint := by
  rw [lowerEntry_of_filterable h, matchesKey_eq_satisfies row hclear.ne_and hclear.ne_or, hrow,
    matchesKey_eq_satisfies record h.ne_and h.ne_or]

section Meaning

variable {row record : Record}

mutual

private theorem matchesAll_lowerEntries (hclear : model.FiltersClear)
    (hrow : ∀ name, model.Filterable name →
      row.getD (model.columns.column name) = record.getD name) :
    ∀ entries : List (String × Json), Json.WellFormedFields entries →
      checkAll model entries = .ok () →
      matchesAll row (model.columns.lowerEntries entries) = matchesAll record entries
  | [], _, _ => rfl
  | (key, constraint) :: rest, hw, hc => by
    obtain ⟨hkey, hrest⟩ := checkAll_cons_eq_ok hc
    rw [Columns.lowerEntries, matchesAll, matchesAll,
      matchesKey_lowerEntry hclear hrow key constraint hw.1 hkey,
      matchesAll_lowerEntries hclear hrow rest hw.2 hrest]

private theorem matchesKey_lowerEntry (hclear : model.FiltersClear)
    (hrow : ∀ name, model.Filterable name →
      row.getD (model.columns.column name) = record.getD name) (key : String) :
    ∀ constraint : Json, constraint.WellFormed → checkKey model key constraint = .ok () →
      matchesKey row (model.columns.lowerEntry key constraint).1
          (model.columns.lowerEntry key constraint).2 =
        matchesKey record key constraint
  | .arr branches, hw, hc => by
    rcases checkKey_cases hc with ⟨_, he, hkey, hbranches⟩ | hname
    · cases he
      rw [Columns.lowerEntry, if_pos hkey, matchesKey, matchesKey,
        everyBranch_lowerBranches hclear hrow key branches hw hbranches,
        someBranch_lowerBranches hclear hrow key branches hw hbranches]
      rcases hkey with rfl | rfl <;> rfl
    · exact matchesKey_lowerEntry_of_filterable hname (hclear key hname) (hrow key hname) _
  | .null, _, hc | .bool _, _, hc | .num _, _, hc | .str _, _, hc | .obj _, _, hc => by
    rcases checkKey_cases hc with ⟨_, he, _⟩ | hname
    · cases he
    · exact matchesKey_lowerEntry_of_filterable hname (hclear key hname) (hrow key hname) _

private theorem everyBranch_lowerBranches (hclear : model.FiltersClear)
    (hrow : ∀ name, model.Filterable name →
      row.getD (model.columns.column name) = record.getD name) (key : String) :
    ∀ branches : List Json, Json.WellFormedItems branches →
      checkBranches model key branches = .ok () →
      everyBranch row (model.columns.lowerBranches branches) = everyBranch record branches
  | [], _, _ => rfl
  | .obj ⟨fields⟩ :: rest, hw, hc => by
    obtain ⟨_, he, hfields, hrest⟩ := checkBranches_cons_eq_ok hc
    cases he
    rw [Columns.lowerBranches, everyBranch, everyBranch,
      matchesAll_ofList row (lowerEntries_nodup hclear hw.1.1.nodup_keys hfields),
      matchesAll_lowerEntries hclear hrow fields hw.1.2 hfields,
      everyBranch_lowerBranches hclear hrow key rest hw.2 hrest]
  | .null :: _, _, hc | .bool _ :: _, _, hc | .num _ :: _, _, hc | .str _ :: _, _, hc
  | .arr _ :: _, _, hc => by cases hc

private theorem someBranch_lowerBranches (hclear : model.FiltersClear)
    (hrow : ∀ name, model.Filterable name →
      row.getD (model.columns.column name) = record.getD name) (key : String) :
    ∀ branches : List Json, Json.WellFormedItems branches →
      checkBranches model key branches = .ok () →
      someBranch row (model.columns.lowerBranches branches) = someBranch record branches
  | [], _, _ => rfl
  | .obj ⟨fields⟩ :: rest, hw, hc => by
    obtain ⟨_, he, hfields, hrest⟩ := checkBranches_cons_eq_ok hc
    cases he
    rw [Columns.lowerBranches, someBranch, someBranch,
      matchesAll_ofList row (lowerEntries_nodup hclear hw.1.1.nodup_keys hfields),
      matchesAll_lowerEntries hclear hrow fields hw.1.2 hfields,
      someBranch_lowerBranches hclear hrow key rest hw.2 hrest]
  | .null :: _, _, hc | .bool _ :: _, _, hc | .num _ :: _, _, hc | .str _ :: _, _, hc
  | .arr _ :: _, _, hc => by cases hc

end

end Meaning

private theorem holdsFor_lower (hclear : model.FiltersClear) {record filter : Record}
    (hr : record.Ordered) (hk : ∀ key ∈ record.keys, model.recognizes key)
    (hw : (Json.obj filter).WellFormed) (hc : check model filter = .ok ()) :
    holdsFor (model.columns.lowerFilter filter) (model.columns.lowerRecord record) =
      holdsFor filter record := by
  have hrow (name : String) (hname : model.Filterable name) :=
    Model.getD_lowerRecord hr hk (hclear name hname)
  have hnodup := lowerEntries_nodup hclear hw.1.nodup_keys hc
  rw [holdsFor, Columns.lowerFilter, matchesAll_ofList _ hnodup,
    matchesAll_lowerEntries hclear hrow filter.entries hw.2 hc, holdsFor]

private theorem matchesKey_of_holdsFor {name : String} (hname : model.Filterable name)
    {record : Record} {constraint : Json} (hplain : constraint.toObject? = none)
    (h : check model ⟨[(name, constraint)]⟩ = .ok () →
      holdsFor (model.columns.lowerFilter ⟨[(name, constraint)]⟩)
          (model.columns.lowerRecord record) =
        holdsFor ⟨[(name, constraint)]⟩ record) :
    matchesKey (model.columns.lowerRecord record) (model.columns.column name) constraint =
      satisfies (record.getD name) constraint := by
  have hcheck : checkKey model name constraint = .ok () := by
    cases constraint <;>
      simp_all [checkKey, checkColumn, hname.ne_and, hname.ne_or, hname.recognized, hname.toOne,
        Json.toObject?]
  have hsame := h (by rw [check, checkAll, hcheck]; rfl)
  rw [holdsFor, holdsFor, Columns.lowerFilter, Columns.lowerEntries,
    lowerEntry_of_filterable hname] at hsame
  have hsingle : (matchesKey (model.columns.lowerRecord record) (model.columns.column name)
      constraint && true) = (matchesKey record name constraint && true) := hsame
  rwa [Bool.and_true, Bool.and_true,
    matchesKey_eq_satisfies record hname.ne_and hname.ne_or] at hsingle

/-- A column that is read as another key, or shared, is told by a record of at most one entry. -/
private theorem columnClear_of_matchesKey {name : String}
    (h : ∀ (record : Record) (constraint : Json), record.Ordered →
      (∀ key ∈ record.keys, model.recognizes key) → constraint.toObject? = none →
      constraint.WellFormed →
      matchesKey (model.columns.lowerRecord record) (model.columns.column name) constraint =
        satisfies (record.getD name) constraint) : model.ColumnClear name := by
  have hand : model.columns.column name ≠ "and" := by
    intro he
    have hsame := h .empty (.bool true) List.Pairwise.nil nofun rfl trivial
    rw [he] at hsame
    cases hsame
  have hor : model.columns.column name ≠ "or" := by
    intro he
    have hsame := h .empty .null List.Pairwise.nil nofun rfl trivial
    rw [he] at hsame
    cases hsame
  refine ⟨hand, hor, ?_⟩
  intro other hr hne he
  have hkeys : ∀ key ∈ (⟨[(other, .bool true)]⟩ : Record).keys, model.recognizes key := by
    intro key hkey
    rwa [List.mem_singleton.mp hkey]
  have hsame := h ⟨[(other, .bool true)]⟩ .null (List.pairwise_singleton _ _) hkeys rfl trivial
  have hlow : (⟨[(model.columns.column other, .bool true)]⟩ : Record).getD
      (model.columns.column name) = .bool true := by
    rw [he, Dict.getD, Dict.get?, Dict.lookup, if_pos rfl, Option.getD_some]
  have hhigh : (⟨[(other, .bool true)]⟩ : Record).getD name = .null := by
    rw [Dict.getD, Dict.get?, Dict.lookup, if_neg hne]
    rfl
  rw [Columns.lowerRecord_single, matchesKey_eq_satisfies _ hand hor, hlow, hhigh] at hsame
  cases hsame

/-- A filter that a model accepts selects a record by column exactly as it does by name, for all
records of recognized names and all accepted filters, if and only if no name that filters can
constrain has a column called `and` or `or` or the column of another recognized name. -/
theorem holdsFor_lower_iff (model : Model) :
    (∀ record filter : Record, record.Ordered → (∀ key ∈ record.keys, model.recognizes key) →
      (Json.obj filter).WellFormed → check model filter = .ok () →
      holdsFor (model.columns.lowerFilter filter) (model.columns.lowerRecord record) =
        holdsFor filter record) ↔ model.FiltersClear := by
  constructor
  · intro h name hname
    apply columnClear_of_matchesKey
    intro record constraint hr hk hplain hw
    exact matchesKey_of_holdsFor hname hplain
      (h record ⟨[(name, constraint)]⟩ hr hk ⟨List.pairwise_singleton _ _, hw, trivial⟩)
  · intro hclear record filter hr hk hw hc
    exact holdsFor_lower hclear hr hk hw hc

end Filter

end GraphRecords
