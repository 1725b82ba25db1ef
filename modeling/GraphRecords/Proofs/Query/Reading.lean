import GraphRecords.Proofs.Dict.Entries
import GraphRecords.Proofs.Outcome
import GraphRecords.Query.Physical
import GraphRecords.Store.Selection

/-!
# Queries that read

The three methods that only read are put into the same form. They differ in the clauses that their
criteria may have, and criteria that are accepted with restrictions are accepted without them.
-/

namespace GraphRecords

open Outcome

theorem Json.toNat?_nat (n : Nat) : (Json.nat n).toNat? = some n := by
  simp [nat, toNat?]

/-- The method looks at records and changes none. -/
def Method.Reads (method : Method) : Prop := method ∈ [find, findOne, count]

instance (method : Method) : Decidable method.Reads :=
  inferInstanceAs (Decidable (method ∈ [.find, .findOne, .count]))

namespace Criteria

variable {method : Method} {model : Model} {raw : Option Json} {fields : Record}
variable {criteria : Criteria} {columns : Columns}

theorem checkClauses_eq_ok_iff : checkClauses method fields = .ok () ↔
    (∀ key ∈ fields.keys, isClause key = true) ∧
      ∀ clause ∈ forbiddenClauses method, fields.get? clause = none := by
  unfold checkClauses
  split
  · rename_i clause hfound
    have hclause := List.find?_some hfound
    have hmem := List.mem_of_find?_eq_some hfound
    constructor
    · nofun
    · intro h
      simp [h.1 clause hmem] at hclause
  · rename_i hknown
    have hkeys : ∀ key ∈ fields.keys, isClause key = true := by
      simpa using List.find?_eq_none.mp hknown
    split
    · rename_i clause hfound
      have hclause := List.find?_some hfound
      have hmem := List.mem_of_find?_eq_some hfound
      constructor
      · nofun
      · intro h
        simp [Dict.contains, h.2 clause hmem] at hclause
    · rename_i hallowed
      have hnone : ∀ clause ∈ forbiddenClauses method, fields.get? clause = none := by
        simpa [Dict.contains] using List.find?_eq_none.mp hallowed
      exact ⟨fun _ => ⟨hkeys, hnone⟩, fun _ => rfl⟩

/-- Each part of the criteria is what its own clause is read as. -/
structure ReadFrom (method : Method) (model : Model) (fields : Record) (criteria : Criteria) :
    Prop where
  clauses : checkClauses method fields = .ok ()
  bindings : readClause fields "let" none readBindings = .ok criteria.bindings
  limit : readClause fields "limit" none (readSome (readNatural "limit")) = .ok criteria.limit
  omitted : readClause fields "omit" [] (readNames "omit" model) = .ok criteria.omitted
  selected : readClause fields "select" none (readSome (readNames "select" model)) =
    .ok criteria.selected
  skip : readClause fields "skip" 0 (readNatural "skip") = .ok criteria.skip
  sort : readClause fields "sort" [] (readSort model) = .ok criteria.sort
  filter : readClause fields "where" .empty (readFilter model) = .ok criteria.filter

/-- The criteria name what to show and what to leave out as well. -/
def SelectsAndOmits (criteria : Criteria) : Prop :=
  criteria.selected.isSome = true ∧ criteria.omitted ≠ []

theorem ofClauses_eq_ok_iff : ofClauses method model fields = .ok criteria ↔
    ReadFrom method model fields criteria ∧ ¬ criteria.SelectsAndOmits := by
  simp only [ofClauses, bind_eq_ok_iff]
  constructor
  · rintro ⟨_, hclauses, bindings, hbindings, limit, hlimit, omitted, homitted, selected, hselected,
      skip, hskip, sort, hsort, filter, hfilter, h⟩
    split at h
    · cases h
    · rename_i hboth
      cases h
      refine ⟨⟨hclauses, hbindings, hlimit, homitted, hselected, hskip, hsort, hfilter⟩, ?_⟩
      simpa [SelectsAndOmits] using hboth
  · rintro ⟨hread, hboth⟩
    refine ⟨(), hread.clauses, _, hread.bindings, _, hread.limit, _, hread.omitted, _,
      hread.selected, _, hread.skip, _, hread.sort, _, hread.filter, ?_⟩
    exact if_neg (by simpa [SelectsAndOmits] using hboth)

private theorem ofClauses_eq_ok_of_allowed (h : ofClauses method model fields = .ok criteria)
    (other : Method) (hother : forbiddenClauses other = []) :
    ofClauses other model fields = .ok criteria := by
  obtain ⟨_, hcheck, hread⟩ := bind_eq_ok_iff.mp h
  have hallowed : checkClauses other fields = .ok () := by
    apply checkClauses_eq_ok_iff.mpr
    rw [hother]
    exact ⟨(checkClauses_eq_ok_iff.mp hcheck).1, nofun⟩
  exact bind_eq_ok_iff.mpr ⟨(), hallowed, hread⟩

theorem normalize_eq_ok_of_allowed (h : normalize method model raw = .ok criteria)
    (other : Method) (hother : forbiddenClauses other = []) :
    normalize other model raw = .ok criteria := by
  unfold normalize at h ⊢
  split at h
  · exact h
  · split at h
    · rename_i hclauses
      rw [if_pos hclauses]
      exact ofClauses_eq_ok_of_allowed h other hother
    · rename_i hclauses
      rw [if_neg hclauses]
      exact h
  · exact h

theorem readClause_of_get?_eq_none {α : Type} {clause : String} {default value : α}
    {read : Json → Except CriteriaFault α} (hnone : fields.get? clause = none)
    (h : readClause fields clause default read = .ok value) : value = default := by
  rw [readClause, hnone] at h
  exact (Except.ok.inj h).symm

/-- Criteria for one record show all rows that they ask for, in stored order. -/
structure Unpaged (criteria : Criteria) : Prop where
  limit : criteria.limit = none
  skip : criteria.skip = 0
  sort : criteria.sort = []

private theorem unpaged_of_ofClauses (h : ofClauses .findOne model fields = .ok criteria) :
    criteria.Unpaged := by
  obtain ⟨hread, _⟩ := ofClauses_eq_ok_iff.mp h
  have hnone := (checkClauses_eq_ok_iff.mp hread.clauses).2
  exact {
    limit := readClause_of_get?_eq_none (hnone "limit" (by decide)) hread.limit
    skip := readClause_of_get?_eq_none (hnone "skip" (by decide)) hread.skip
    sort := readClause_of_get?_eq_none (hnone "sort" (by decide)) hread.sort }

theorem unpaged_of_normalize (h : normalize .findOne model raw = .ok criteria) :
    criteria.Unpaged := by
  unfold normalize at h
  split at h
  · cases h
    exact ⟨rfl, rfl, rfl⟩
  · split at h
    · exact unpaged_of_ofClauses h
    · obtain ⟨filter, _, h⟩ := bind_eq_ok_iff.mp h
      cases h
      exact ⟨rfl, rfl, rfl⟩
  · obtain ⟨filter, _, h⟩ := bind_eq_ok_iff.mp h
    cases h
    exact ⟨rfl, rfl, rfl⟩

theorem Unpaged.mergeBindings (h : criteria.Unpaged) (bindings : Option Record) :
    (criteria.mergeBindings bindings).Unpaged := by
  cases bindings with
  | none => exact h
  | some bindings => exact ⟨h.limit, h.skip, h.sort⟩

theorem field?_lower_limit (columns : Columns) (criteria : Criteria) :
    (criteria.lower columns).field? "limit" = criteria.limit.map Json.nat := by
  simp [lower, Json.field?, Json.toObject?, Dict.get?_insert?, Dict.get?_insert]

theorem field?_lower_skip (columns : Columns) (criteria : Criteria) :
    (criteria.lower columns).field? "skip" =
      if criteria.skip = 0 then none else some (Json.nat criteria.skip) := by
  simp [lower, Json.field?, Json.toObject?, Dict.get?_insert?, Dict.get?_insert]

theorem field?_lower_sort (columns : Columns) (criteria : Criteria) :
    (criteria.lower columns).field? "sort" =
      if criteria.sort.isEmpty then none
      else some (.arr (criteria.sort.map (SortKey.lower columns))) := by
  simp [lower, Json.field?, Json.toObject?, Dict.get?_insert?, Dict.get?_insert]

theorem field?_lower_where (columns : Columns) (criteria : Criteria) :
    (criteria.lower columns).field? "where" =
      some (.obj (columns.lowerFilter criteria.filter)) := by
  simp [lower, Json.field?, Json.toObject?, Dict.get?_insert?]

theorem field?_lower_select (columns : Columns) (criteria : Criteria) :
    (criteria.lower columns).field? "select" =
      criteria.selected.map (fun names => Json.strings (columns.lowerNames names)) := by
  simp [lower, Json.field?, Json.toObject?, Dict.get?_insert?, Dict.get?_insert,
    Function.comp_def]

theorem field?_lower_omit (columns : Columns) (criteria : Criteria) :
    (criteria.lower columns).field? "omit" =
      if criteria.omitted.isEmpty then none
      else some (Json.strings (columns.lowerNames criteria.omitted)) := by
  simp [lower, Json.field?, Json.toObject?, Dict.get?_insert?, Dict.get?_insert,
    Columns.lowerNames]

theorem field?_lower_let (columns : Columns) (criteria : Criteria) :
    (criteria.lower columns).field? "let" = criteria.bindings.map .obj := by
  simp [lower, Json.field?, Json.toObject?, Dict.get?_insert?, Dict.get?_insert]

theorem field?_lower_of_not_isClause {key : String} (h : isClause key = false) (columns : Columns)
    (criteria : Criteria) : (criteria.lower columns).field? key = none := by
  have hne : ∀ clause ∈ clauses, clause ≠ key := by
    rintro clause hclause rfl
    rw [isClause, List.contains_iff_mem.mpr hclause] at h
    cases h
  simp only [clauses, List.forall_mem_cons] at hne
  simp [lower, Json.field?, Json.toObject?, Dict.get?_insert?, Dict.get?_insert, hne]

end Criteria

namespace PhysicalQuery

variable {query : PhysicalQuery} {columns : Columns} {criteria : Criteria} {rows : List Record}

theorem natural?_limit (h : query.criteria = some (criteria.lower columns)) :
    query.natural? "limit" = criteria.limit := by
  rw [natural?, clause?, h, Option.bind_some, Criteria.field?_lower_limit]
  cases criteria.limit with
  | none => rfl
  | some limit => exact Json.toNat?_nat limit

theorem natural?_skip (h : query.criteria = some (criteria.lower columns)) :
    (query.natural? "skip").getD 0 = criteria.skip := by
  rw [natural?, clause?, h, Option.bind_some, Criteria.field?_lower_skip]
  by_cases hskip : criteria.skip = 0
  · rw [if_pos hskip, hskip]
    rfl
  · rw [if_neg hskip, Option.bind_some, Json.toNat?_nat, Option.getD_some]

theorem orders_of_unsorted (h : query.criteria = some (criteria.lower columns))
    (hsort : criteria.sort = []) : query.orders = [] := by
  rw [orders, clause?, h, Option.bind_some, Criteria.field?_lower_sort, hsort]
  rfl

theorem sortRows_of_orders_eq_nil (h : query.orders = []) (sort : RowSort) (rows : List Record) :
    query.sortRows sort rows = rows := by
  have halike (a b : Record) : query.rowOrder a b = .eq := by
    rw [rowOrder, h]
    rfl
  have horiented : Std.OrientedCmp query.rowOrder := ⟨by
    intro a b
    rw [halike, halike]
    rfl⟩
  have hpreorders : query.rowOrder.Preorders rows := by
    refine ⟨fun a _ b _ => horiented.eq_swap, ?_⟩
    intro a _ b _ c _ _ _
    rw [halike]
    rfl
  have hsorts := sort.sorts query.rowOrder rows hpreorders
  exact hsorts.unique (RowOrder.sorts_self_of_alike halike rows)

theorem length_sortRows (sort : RowSort) (query : PhysicalQuery) (rows : List Record) :
    (query.sortRows sort rows).length = rows.length := (sort.perm query.rowOrder rows).length_eq

theorem sortRows_nil (sort : RowSort) (query : PhysicalQuery) : query.sortRows sort [] = [] :=
  (sort.perm query.rowOrder []).eq_nil

theorem page_nil (query : PhysicalQuery) : query.page [] = [] := by
  unfold page
  rw [List.drop_nil]
  split
  · exact List.take_nil
  · rfl

theorem page_eq_self (h : query.criteria = some (criteria.lower columns))
    (hlimit : criteria.limit = none) (hskip : criteria.skip = 0) (rows : List Record) :
    query.page rows = rows := by
  rw [page, natural?_limit h, natural?_skip h, hlimit, hskip]
  rfl

theorem page_of_unpaged (h : query.criteria = some (criteria.lower columns))
    (hunpaged : criteria.Unpaged) (rows : List Record) : query.page rows = rows :=
  page_eq_self h hunpaged.limit hunpaged.skip rows

end PhysicalQuery

/-- How many of a number of rows one page shows. -/
def Criteria.pageLength (criteria : Criteria) (count : Nat) : Nat :=
  match criteria.limit with
  | none => count - criteria.skip
  | some limit => min limit (count - criteria.skip)

theorem Criteria.pageLength_mergeBindings (criteria : Criteria) (bindings : Option Record) :
    (criteria.mergeBindings bindings).pageLength = criteria.pageLength := by
  cases bindings <;> rfl

theorem PhysicalQuery.length_page {query : PhysicalQuery} {columns : Columns} {criteria : Criteria}
    (h : query.criteria = some (criteria.lower columns)) (rows : List Record) :
    (query.page rows).length = criteria.pageLength rows.length := by
  rw [page, natural?_limit h, natural?_skip h, Criteria.pageLength]
  cases criteria.limit <;> simp

/-- A page shows all rows exactly where there are none, or none are skipped and all are within the
limit. -/
theorem Criteria.eq_pageLength_iff (criteria : Criteria) (count : Nat) :
    count = criteria.pageLength count ↔
      count = 0 ∨ criteria.skip = 0 ∧ ∀ limit ∈ criteria.limit, count ≤ limit := by
  unfold pageLength
  cases criteria.limit with
  | none =>
    simp only [Option.mem_def, reduceCtorEq, false_implies, implies_true, and_true]
    omega
  | some limit =>
    simp only [Option.mem_def, Option.some.injEq, forall_eq']
    omega

namespace LogicalQuery

variable {rules : RecordRules} {method : Method} {request : Request}

private theorem normalize_reads (hm : method.Reads) : normalize rules method request = (do
    let callMeta ← (Meta.ofJson request.callMeta).mapError (fun fault =>
      OrmError.ofUsage (.callMeta fault))
    normalizeSelection rules { method, identity := rules.model.identity, callMeta } request) := by
  cases method with
  | find | findOne | count => rfl
  | create | createEach | normalizeEach | update | destroy | replaceCollection =>
    simp [Method.Reads] at hm

theorem normalize_reads_eq_ok_iff (hm : method.Reads) {normalized : Normalized} :
    normalize rules method request = .ok normalized ↔
      ∃ callMeta criteria, Meta.ofJson request.callMeta = .ok callMeta ∧
        Criteria.normalize method rules.model request.criteria = .ok criteria ∧
        selecting rules.model { method, identity := rules.model.identity, callMeta } criteria =
          normalized := by
  rw [normalize_reads hm]
  unfold normalizeSelection readCriteria
  constructor
  · intro h
    obtain ⟨callMeta, hmeta, h⟩ := bind_eq_ok_iff.mp h
    obtain ⟨criteria, hcriteria, h⟩ := bind_eq_ok_iff.mp h
    exact ⟨callMeta, criteria, mapError_eq_ok_iff.mp hmeta, mapError_eq_ok_iff.mp hcriteria,
      Except.ok.inj h⟩
  · rintro ⟨callMeta, criteria, hmeta, hcriteria, rfl⟩
    apply bind_eq_ok_iff.mpr ⟨callMeta, mapError_eq_ok_iff.mpr hmeta, _⟩
    exact bind_eq_ok_iff.mpr ⟨criteria, mapError_eq_ok_iff.mpr hcriteria, rfl⟩

end LogicalQuery

end GraphRecords
