import GraphRecords.Proofs.Query.RoundTrip
import GraphRecords.Proofs.Store.Selection
import Mathlib.Data.Fintype.EquivFin

/-!
# Known columns

In whatever form criteria are given, the names in them are checked before they are written in
columns, so that adapters see the columns of recognized names. What a column is compared with is not
checked: where a column is called `and` or `or`, a list to compare it with is taken for branches,
and any key can stand in these.
-/

namespace GraphRecords

open Outcome

namespace Model

variable {model : Model}

/-- The column of a name that rows can be selected and sorted by. -/
def IsRowColumn (model : Model) (column : String) : Prop :=
  ∃ name, model.recognizes name ∧ model.isCollection name = false ∧
    column = model.columns.column name

/-- The column of a name that can be shown or left out, or of the star that stands for all. -/
def IsShownColumn (model : Model) (column : String) : Prop :=
  ∃ name, (name = "*" ∨ model.recognizes name) ∧ column = model.columns.column name

/-- A key that adapters may find in a filter. -/
def KnowsKey (model : Model) (key : String) : Prop :=
  (key = "and" ∨ key = "or") ∨ model.IsRowColumn key

/-- No column that filters can constrain is called like a connective. -/
def ConnectivesFree (model : Model) : Prop :=
  ∀ name, model.Filterable name →
    model.columns.column name ≠ "and" ∧ model.columns.column name ≠ "or"

private theorem connectivesFree_of_names
    (h : ∀ name ∈ model.names,
      model.columns.column name ≠ "and" ∧ model.columns.column name ≠ "or") :
    model.ConnectivesFree :=
  fun name hname => h name (recognizes_iff.mp hname.recognized)

private theorem Filterable.isRowColumn {name : String} (h : model.Filterable name) :
    model.IsRowColumn (model.columns.column name) :=
  ⟨name, h.recognized, h.toOne, rfl⟩

private theorem isRowColumn_primaryKey (htoOne : model.isCollection model.primaryKey = false) :
    model.IsRowColumn (model.columns.column model.primaryKey) :=
  ⟨model.primaryKey, by simp [recognizes], htoOne, rfl⟩

private theorem not_knowsKey {key : String} (hand : key ≠ "and") (hor : key ≠ "or")
    (hcolumn : ∀ name ∈ model.names, key ≠ model.columns.column name) : ¬ model.KnowsKey key := by
  rintro ((rfl | rfl) | ⟨name, hname, _, rfl⟩)
  · exact hand rfl
  · exact hor rfl
  · exact hcolumn name (recognizes_iff.mp hname) rfl

private theorem exists_not_knowsKey (model : Model) : ∃ key, ¬ model.KnowsKey key := by
  obtain ⟨key, hkey⟩ : ∃ key : String,
      key ∉ ("and" :: "or" :: model.names.map model.columns.column).toFinset :=
    Infinite.exists_notMem_finset _
  simp only [List.mem_toFinset, List.mem_cons, List.mem_map, not_or, not_exists, not_and] at hkey
  obtain ⟨hand, hor, hcolumn⟩ := hkey
  exact ⟨key, not_knowsKey hand hor fun name hname he => hcolumn name hname he.symm⟩

end Model

namespace Filter

variable {model : Model} {key : String}

/-- A key of a filter as adapters read it, or of one of the branches in it, at any depth. -/
inductive HasKey (key : String) : Record → Prop
  | here {filter : Record} (hkey : key ∈ filter.keys) : HasKey key filter
  | inside {filter branch : Record} {connective : String} {branches : List Json}
      (hconnective : connective = "and" ∨ connective = "or")
      (hentry : filter.get? connective = some (.arr branches))
      (hbranch : .obj branch ∈ branches) (hkey : HasKey key branch) : HasKey key filter

private theorem exists_of_mem_lowerEntries {entries : List (String × Json)} {value : Json}
    (h : checkAll model entries = .ok ())
    (hmem : (key, value) ∈ model.columns.lowerEntries entries) :
    ∃ name constraint, checkKey model name constraint = .ok () ∧
      model.columns.lowerEntry name constraint = (key, value) := by
  induction entries with
  | nil => cases hmem
  | cons entry rest ih =>
    obtain ⟨name, constraint⟩ := entry
    obtain ⟨hname, hrest⟩ := checkAll_cons_eq_ok h
    rw [Columns.lowerEntries] at hmem
    rcases List.mem_cons.mp hmem with hhead | hmem
    · exact ⟨name, constraint, hname, hhead.symm⟩
    · exact ih hrest hmem

private theorem exists_of_mem_lowerBranches {connective : String} {branches : List Json}
    {branch : Record} (h : checkBranches model connective branches = .ok ())
    (hmem : .obj branch ∈ model.columns.lowerBranches branches) :
    ∃ filter, check model filter = .ok () ∧ branch = model.columns.lowerFilter filter := by
  induction branches with
  | nil => cases hmem
  | cons head rest ih =>
    obtain ⟨fields, rfl, hfields, hrest⟩ := checkBranches_cons_eq_ok h
    rw [Columns.lowerBranches] at hmem
    rcases List.mem_cons.mp hmem with hhead | hmem
    · cases hhead
      exact ⟨⟨fields⟩, hfields, rfl⟩
    · exact ih hrest hmem

private theorem knowsKey_of_mem_keys {filter : Record} (h : check model filter = .ok ())
    (hkey : key ∈ (model.columns.lowerFilter filter).keys) : model.KnowsKey key := by
  have hmem : key ∈ (model.columns.lowerEntries filter.entries).map Prod.fst := by
    by_contra habsent
    exact Dict.get?_eq_none_iff.mp (Dict.get?_ofList_eq_none_iff.mpr habsent) hkey
  rw [lowerEntries_keys h] at hmem
  obtain ⟨name, hname, rfl⟩ := List.mem_map.mp hmem
  rcases checkAll_keys h hname with hconnective | hfilterable
  · rw [loweredKey, if_pos hconnective]
    exact .inl hconnective
  · rw [loweredKey, if_neg (not_or_intro hfilterable.ne_and hfilterable.ne_or)]
    exact .inr hfilterable.isRowColumn

private theorem knowsKey_of_hasKey (hfree : model.ConnectivesFree) {lowered : Record}
    (hkey : HasKey key lowered) {filter : Record} (h : check model filter = .ok ())
    (hlowered : lowered = model.columns.lowerFilter filter) : model.KnowsKey key := by
  -- The induction follows what adapters read; the filter it was lowered from changes on the way.
  induction hkey generalizing filter with
  | here hkey =>
    subst hlowered
    exact knowsKey_of_mem_keys h hkey
  | inside hconnective hentry hbranch hkey ih =>
    subst hlowered
    obtain ⟨name, constraint, hname, hentry⟩ :=
      exists_of_mem_lowerEntries h (Dict.mem_of_get?_ofList hentry)
    rcases checkKey_cases hname with ⟨branches, rfl, hconnective, hbranches⟩ | hfilterable
    · rw [Columns.lowerEntry, if_pos hconnective] at hentry
      cases hentry
      obtain ⟨inner, hinner, hbranch⟩ := exists_of_mem_lowerBranches hbranches hbranch
      exact ih hinner hbranch
    · rw [lowerEntry_of_filterable hfilterable] at hentry
      obtain ⟨hand, hor⟩ := hfree name hfilterable
      cases hentry
      exact absurd hconnective (not_or_intro hand hor)

/-- A filter that criteria can come to: one that was checked, or the one that key values stand
for, in which the key may be called like a connective. -/
def Admitted (model : Model) (filter : Record) : Prop :=
  check model filter = .ok () ∨
    ∃ constraint : Json, constraint.toArray? = none ∧ filter = ⟨[(model.primaryKey, constraint)]⟩

private theorem lowerFilter_keyed {columns : Columns} {name : String} {constraint : Json}
    (h : constraint.toArray? = none) :
    columns.lowerFilter ⟨[(name, constraint)]⟩ = ⟨[(columns.column name, constraint)]⟩ := by
  cases constraint with
  | arr => cases h
  | null | bool | num | str | obj => rfl

private theorem Admitted.knowsKey_of_mem_keys {filter : Record} (h : Admitted model filter)
    (htoOne : model.isCollection model.primaryKey = false)
    (hkey : key ∈ (model.columns.lowerFilter filter).keys) : model.KnowsKey key := by
  rcases h with hcheck | ⟨constraint, hplain, rfl⟩
  · exact Filter.knowsKey_of_mem_keys hcheck hkey
  · rw [lowerFilter_keyed hplain] at hkey
    rw [List.mem_singleton.mp hkey]
    exact .inr (Model.isRowColumn_primaryKey htoOne)

private theorem Admitted.knowsKey_of_hasKey {filter : Record} (h : Admitted model filter)
    (htoOne : model.isCollection model.primaryKey = false) (hfree : model.ConnectivesFree)
    (hkey : HasKey key (model.columns.lowerFilter filter)) : model.KnowsKey key := by
  rcases h with hcheck | ⟨constraint, hplain, rfl⟩
  · exact Filter.knowsKey_of_hasKey hfree hkey hcheck rfl
  · rw [lowerFilter_keyed hplain] at hkey
    cases hkey with
    | here hkey =>
      rw [List.mem_singleton.mp hkey]
      exact .inr (Model.isRowColumn_primaryKey htoOne)
    | inside _ hentry =>
      obtain rfl := (Prod.mk.inj (List.mem_singleton.mp (Dict.mem_of_lookup hentry))).2
      cases hplain

/-- A filter that compares a name with a list, in which a dictionary has the key. -/
def listing (name key : String) : Record := ⟨[(name, .arr [.obj ⟨[(key, .null)]⟩])]⟩

private theorem wellFormed_listing (name key : String) :
    (Json.obj (listing name key)).WellFormed := by
  simp [listing, Json.WellFormed, Json.WellFormedFields, Json.WellFormedItems, Dict.Ordered]

private theorem check_listing {name : String} (h : model.Filterable name) (key : String) :
    check model (listing name key) = .ok () := by
  have hname : checkKey model name (.arr [.obj ⟨[(key, .null)]⟩]) = .ok () := by
    simp [checkKey, checkColumn, h.ne_and, h.ne_or, h.recognized, h.toOne]
  rw [check, listing, checkAll, hname]
  rfl

private theorem isNever_listing {name : String} (h : model.Filterable name) (key : String) :
    isNever (listing name key) = false := by
  rw [isNever, listing, neverAny, neverKey, if_neg h.ne_and, if_neg h.ne_or]
  rfl

private theorem lowerFilter_listing {name : String} (h : model.Filterable name) (key : String) :
    model.columns.lowerFilter (listing name key) = listing (model.columns.column name) key := by
  rw [Columns.lowerFilter, listing, Columns.lowerEntries, lowerEntry_of_filterable h]
  rfl

private theorem hasKey_listing {name : String} (h : name = "and" ∨ name = "or") (key : String) :
    HasKey key (listing name key) :=
  .inside h (if_pos rfl) (List.mem_singleton_self _) (.here (List.mem_singleton_self key))

end Filter

namespace Criteria

variable {method : Method} {model : Model} {criteria : Criteria} {fields : Record}

private theorem admitted_of_keyFilter {value : Json} {filter : Record}
    (h : keyFilter model value = .ok filter) : Filter.Admitted model filter := by
  cases value with
  | arr | null | bool | num | str | obj =>
    simp only [keyFilter] at h
    split at h
    · cases h
      exact .inr ⟨_, rfl, rfl⟩
    · cases h

private theorem admitted_of_readFilter {value : Json} {filter : Record}
    (h : readFilter model value = .ok filter) : Filter.Admitted model filter := by
  cases value with
  | null =>
    cases h
    exact .inl rfl
  | obj fields =>
    obtain ⟨_, hcheck, h⟩ := bind_eq_ok_iff.mp h
    cases h
    exact .inl hcheck
  | bool | num | str | arr =>
    simp only [readFilter] at h
    exact admitted_of_keyFilter h

private theorem ReadFrom.admitted (h : ReadFrom method model fields criteria) :
    Filter.Admitted model criteria.filter := by
  rcases readClause_cases h.filter with hempty | ⟨value, _, hread⟩
  · rw [hempty]
    exact .inl rfl
  · exact admitted_of_readFilter hread

private theorem checkSortable_eq_ok {name : String} (h : checkSortable model name = .ok ()) :
    model.recognizes name ∧ model.isCollection name = false := by
  unfold checkSortable at h
  split at h
  · cases h
  · rename_i hsortable
    simpa using hsortable

private theorem ReadFrom.sortable (h : ReadFrom method model fields criteria) :
    ∀ key ∈ criteria.sort, model.IsRowColumn (model.columns.column key.attributeName) := by
  intro key hkey
  rcases readClause_cases h.sort with hempty | ⟨value, _, hread⟩
  · rw [hempty] at hkey
    cases hkey
  · obtain ⟨hrecognized, htoOne⟩ := checkSortable_eq_ok (checkSortable_of_readSort hread key hkey)
    exact ⟨key.attributeName, hrecognized, htoOne, rfl⟩

private theorem shown_of_readNames {clause : String} {value : Json} {names : List String}
    (h : readNames clause model value = .ok names) :
    ∀ name ∈ names, name = "*" ∨ model.recognizes name := by
  intro name hname
  cases value with
  | arr entries =>
    obtain ⟨entry, _, hentry⟩ := exists_mem_of_mapM_eq_ok h hname
    unfold readName at hentry
    split at hentry
    · split at hentry
      · cases hentry
      · rename_i hknown
        cases hentry
        by_cases hstar : name = "*"
        · exact .inl hstar
        · exact .inr (by simpa [hstar] using hknown)
    · cases hentry
  | null | bool | num | str | obj => cases h

private theorem bindings_eq_of_readClause
    (h : readClause fields "let" none readBindings = .ok criteria.bindings) :
    criteria.bindings = (fields.get? "let").bind Json.toObject? := by
  rw [readClause] at h
  cases hget : fields.get? "let" with
  | none =>
    rw [hget] at h
    exact (Except.ok.inj h).symm
  | some value =>
    rw [hget] at h
    cases value with
    | obj | null => exact (Except.ok.inj h).symm
    | bool | num | str | arr => cases h

/-- The parts of criteria as adapters see them. Each is in columns that the model knows, and the
bindings are those of the model, of which the ones given by the caller override some. -/
structure KnownTo (model : Model) (given : Option Record) (written : Json) : Prop where
  filter : ∃ filter, written.field? "where" = some (.obj filter) ∧
    ∀ key ∈ filter.keys, model.KnowsKey key
  sort (value : Json) (h : written.field? "sort" = some value) :
    ∃ keys : List (String × Direction),
      value = .arr (keys.map fun key => Json.object [(key.1, .str key.2.text)]) ∧
      ∀ key ∈ keys, model.IsRowColumn key.1
  selected (value : Json) (h : written.field? "select" = some value) :
    ∃ columns, value = Json.strings columns ∧ ∀ column ∈ columns, model.IsShownColumn column
  omitted (value : Json) (h : written.field? "omit" = some value) :
    ∃ columns, value = Json.strings columns ∧ ∀ column ∈ columns, model.IsShownColumn column
  bindings : ∃ bindings : Option Record, written.field? "let" = bindings.map .obj ∧
    (bindings = none ↔ given = none ∧ model.bindings = none) ∧
    ∀ key, bindings.bind (·.get? key) =
      (given.bind (·.get? key)).or (model.bindings.bind (·.get? key))

@[simp] theorem mergeBindings_filter (criteria : Criteria) (modelBindings : Option Record) :
    (criteria.mergeBindings modelBindings).filter = criteria.filter := by
  cases modelBindings <;> rfl

private theorem get?_mergeBindings (criteria : Criteria)
    (hordered : ∀ given ∈ criteria.bindings, given.Ordered) (modelBindings : Option Record)
    (key : String) :
    (criteria.mergeBindings modelBindings).bindings.bind (·.get? key) =
      (criteria.bindings.bind (·.get? key)).or (modelBindings.bind (·.get? key)) := by
  cases modelBindings with
  | none => exact Option.or_none.symm
  | some bindings =>
    change (bindings.override (criteria.bindings.getD .empty)).get? key = _
    cases hgiven : criteria.bindings with
    | none => rfl
    | some given =>
      exact Dict.get?_override (hordered given hgiven) bindings key

private theorem mergeBindings_eq_none_iff {modelBindings : Option Record} :
    (criteria.mergeBindings modelBindings).bindings = none ↔
      criteria.bindings = none ∧ modelBindings = none := by
  cases modelBindings with
  | none => exact (and_iff_left rfl).symm
  | some bindings => simp [mergeBindings]

private theorem isShownColumn_of_mem_lowerNames {names : List String}
    (h : ∀ name ∈ names, name = "*" ∨ model.recognizes name) :
    ∀ column ∈ model.columns.lowerNames names, model.IsShownColumn column := by
  intro column hcolumn
  obtain ⟨name, hname, rfl⟩ := List.mem_map.mp hcolumn
  exact ⟨name, h name hname, rfl⟩

/-- Criteria that were read for a model are written in what the model knows. -/
theorem ReadFrom.knownTo (h : ReadFrom method model fields criteria)
    (htoOne : model.isCollection model.primaryKey = false)
    (hordered : ∀ given ∈ criteria.bindings, given.Ordered) :
    KnownTo model criteria.bindings
      ((criteria.mergeBindings model.bindings).lower model.columns) := by
  have hmerged : (criteria.mergeBindings model.bindings).filter = criteria.filter ∧
      (criteria.mergeBindings model.bindings).sort = criteria.sort ∧
      (criteria.mergeBindings model.bindings).selected = criteria.selected ∧
      (criteria.mergeBindings model.bindings).omitted = criteria.omitted := by
    cases model.bindings <;> exact ⟨rfl, rfl, rfl, rfl⟩
  obtain ⟨hfilter, hsort, hselected, homitted⟩ := hmerged
  refine ⟨?filter, ?sort, ?selected, ?omitted, ?bindings⟩
  case filter =>
    rw [field?_lower_where, hfilter]
    exact ⟨_, rfl, fun key hkey => h.admitted.knowsKey_of_mem_keys htoOne hkey⟩
  case sort =>
    intro value hvalue
    rw [field?_lower_sort, hsort] at hvalue
    split at hvalue
    · cases hvalue
    · cases hvalue
      refine ⟨criteria.sort.map fun key => (model.columns.column key.attributeName, key.direction),
        by rw [List.map_map]; rfl, ?_⟩
      intro key hkey
      obtain ⟨sortKey, hsortKey, rfl⟩ := List.mem_map.mp hkey
      exact h.sortable sortKey hsortKey
  case selected =>
    intro value hvalue
    rw [field?_lower_select, hselected] at hvalue
    obtain ⟨names, hnames, rfl⟩ := Option.map_eq_some_iff.mp hvalue
    refine ⟨_, rfl, isShownColumn_of_mem_lowerNames ?_⟩
    rcases readClause_cases h.selected with hnone | ⟨given, _, hread⟩
    · cases hnames.symm.trans hnone
    · obtain ⟨read, hsome, hread⟩ := exists_of_readSome hread
      cases hnames.symm.trans hsome
      exact shown_of_readNames hread
  case omitted =>
    intro value hvalue
    rw [field?_lower_omit, homitted] at hvalue
    split at hvalue
    · cases hvalue
    · rename_i hsome
      cases hvalue
      refine ⟨_, rfl, isShownColumn_of_mem_lowerNames ?_⟩
      rcases readClause_cases h.omitted with hempty | ⟨given, _, hread⟩
      · rw [hempty] at hsome
        exact absurd rfl hsome
      · exact shown_of_readNames hread
  case bindings =>
    exact ⟨_, field?_lower_let _ _, mergeBindings_eq_none_iff,
      get?_mergeBindings criteria hordered model.bindings⟩

end Criteria

private theorem LogicalQuery.normalize_criteria {rules : RecordRules} {method : Method}
    {request : Request} {query : LogicalQuery} (hm : method.takesCriteria = true)
    (h : normalize rules method request = .ok (.ready query)) :
    ∃ criteria, Criteria.normalize method rules.model request.criteria = .ok criteria ∧
      query.newRecords = [] ∧
      query.criteria = some (criteria.mergeBindings rules.model.bindings) := by
  have hselecting {unselected : LogicalQuery} {criteria : Criteria}
      (hnone : unselected.newRecords = [])
      (h : selecting rules.model unselected criteria = .ready query) : query.newRecords = [] ∧
        query.criteria = some (criteria.mergeBindings rules.model.bindings) := by
    unfold selecting at h
    split at h
    · cases h
    · cases h
      exact ⟨hnone, rfl⟩
  obtain ⟨callMeta, _, h⟩ := bind_eq_ok_iff.mp h
  cases method with
  | create | createEach | normalizeEach => cases hm
  | replaceCollection => cases h
  | find | findOne | count | destroy =>
    obtain ⟨criteria, hcriteria, h⟩ := bind_eq_ok_iff.mp h
    exact ⟨criteria, mapError_eq_ok_iff.mp hcriteria, hselecting rfl (Except.ok.inj h)⟩
  | update =>
    obtain ⟨criteria, hcriteria, h⟩ := bind_eq_ok_iff.mp h
    obtain ⟨_, _, h⟩ := bind_eq_ok_iff.mp h
    exact ⟨criteria, mapError_eq_ok_iff.mp hcriteria, hselecting rfl (Except.ok.inj h)⟩

/-- The query that a filter alone comes to. -/
def LogicalQuery.ofFilter (model : Model) (filter : Record) : LogicalQuery where
  method := .find
  identity := model.identity
  criteria := some (({ filter } : Criteria).mergeBindings model.bindings)

namespace PhysicalQuery

variable {rules : RecordRules} {method : Method} {request : Request} {query : LogicalQuery}

private theorem compile_of_noRecords {schema : Schema} {identity : String} {model : Model}
    (hfound : schema.get? identity = some model) (hnone : query.newRecords = []) :
    ∃ physical, compile schema identity query = .ok physical ∧
      physical.criteria = query.criteria.map (Criteria.lower model.columns) := by
  rw [compile, hfound]
  simp only [ofLogical, hnone]
  exact ⟨_, rfl, rfl⟩

private theorem filter_of_lower {physical : PhysicalQuery} {columns : Columns} {criteria : Criteria}
    (h : physical.criteria = some (criteria.lower columns)) :
    physical.filter = columns.lowerFilter criteria.filter := by
  apply filter_of_clause?
  rw [clause?, h, Option.bind_some, Criteria.field?_lower_where]

private theorem compile_of_ready
    (hfound : rules.schema.get? rules.model.identity = some rules.model)
    (hm : method.takesCriteria = true)
    (h : LogicalQuery.normalize rules method request = .ok (.ready query)) :
    ∃ criteria physical,
      Criteria.ReadFrom method rules.model (Request.clausesOf request.criteria) criteria ∧
      compile rules.schema rules.model.identity query = .ok physical ∧
      physical.criteria =
        some ((criteria.mergeBindings rules.model.bindings).lower rules.model.columns) := by
  obtain ⟨criteria, hcriteria, hnone, hquery⟩ := LogicalQuery.normalize_criteria hm h
  obtain ⟨physical, hphysical, hlowered⟩ := compile_of_noRecords hfound hnone
  rw [Criteria.normalize_eq_ofClauses] at hcriteria
  obtain ⟨hread, _⟩ := Criteria.ofClauses_eq_ok_iff.mp hcriteria
  exact ⟨criteria, physical, hread, hphysical, by rw [hlowered, hquery, Option.map_some]⟩

private theorem exists_compiled_of_check {filter : Record}
    (hfound : rules.schema.get? rules.model.identity = some rules.model)
    (hcheck : Filter.check rules.model filter = .ok ()) (hnever : Filter.isNever filter = false) :
    ∃ physical,
      LogicalQuery.normalize rules .find { criteria := some (.obj ⟨[("where", .obj filter)]⟩) } =
        .ok (.ready (.ofFilter rules.model filter)) ∧
      compile rules.schema rules.model.identity (.ofFilter rules.model filter) = .ok physical ∧
      physical.filter = rules.model.columns.lowerFilter filter := by
  have hcriteria : Criteria.normalize .find rules.model
      (some (.obj ⟨[("where", .obj filter)]⟩)) = .ok { filter } := by
    rw [Criteria.normalize_eq_ofClauses]
    refine (Criteria.ofClauses_where .find rules.model (.obj filter)).trans ?_
    rw [Criteria.readFilter_obj_eq_ok hcheck]
    rfl
  have hselecting : LogicalQuery.selecting rules.model
      { method := .find, identity := rules.model.identity } { filter } =
        .ready (.ofFilter rules.model filter) := by
    rw [LogicalQuery.selecting, Criteria.isNever, hnever]
    rfl
  have hnone : (LogicalQuery.ofFilter rules.model filter).newRecords = [] := rfl
  obtain ⟨physical, hphysical, hlowered⟩ := compile_of_noRecords hfound hnone
  refine ⟨physical, (LogicalQuery.normalize_reads_eq_ok_iff (by decide)).mpr
    ⟨{}, _, rfl, hcriteria, hselecting⟩, hphysical, ?_⟩
  rw [filter_of_lower hlowered, Criteria.mergeBindings_filter]

/-- Where a column is called like a connective, any key comes to be one of a branch. -/
private theorem exists_hasKey_of_column {name : String}
    (hfound : rules.schema.get? rules.model.identity = some rules.model)
    (hname : rules.model.Filterable name)
    (hconnective : rules.model.columns.column name = "and" ∨
      rules.model.columns.column name = "or") (key : String) :
    ∃ (request : Request) (query : LogicalQuery) (physical : PhysicalQuery),
      (∀ value ∈ request.criteria, value.WellFormed) ∧
      LogicalQuery.normalize rules .find request = .ok (.ready query) ∧
      compile rules.schema rules.model.identity query = .ok physical ∧
      Filter.HasKey key physical.filter := by
  obtain ⟨physical, hready, hphysical, hfilter⟩ := exists_compiled_of_check hfound
    (Filter.check_listing hname key) (Filter.isNever_listing hname key)
  refine ⟨_, _, physical, ?_, hready, hphysical, ?_⟩
  · rintro _ ⟨⟩
    exact ⟨List.pairwise_singleton _ _, Filter.wellFormed_listing name key, trivial⟩
  · rw [hfilter, Filter.lowerFilter_listing hname]
    exact Filter.hasKey_listing hconnective key

/-- Whatever a call asks for by criteria, an adapter is handed in columns that the model knows: the
sorting, what is shown and left out, and the keys at the top of the filter, beside the bindings of
the model with those of the call over them. The keys in branches, as adapters read them, are known
as well for all accepted criteria, if and only if no column that filters can constrain is called
`and` or `or`. -/
theorem compile_knowsKey_iff (rules : RecordRules)
    (hfound : rules.schema.get? rules.model.identity = some rules.model)
    (htoOne : rules.model.isCollection rules.model.primaryKey = false) :
    (∀ (method : Method) (request : Request) (query : LogicalQuery),
      method.takesCriteria = true → (∀ value ∈ request.criteria, value.WellFormed) →
      LogicalQuery.normalize rules method request = .ok (.ready query) →
      ∃ physical written, compile rules.schema rules.model.identity query = .ok physical ∧
        physical.criteria = some written ∧
        Criteria.KnownTo rules.model
          (((Request.clausesOf request.criteria).get? "let").bind Json.toObject?) written) ∧
    ((∀ (method : Method) (request : Request) (query : LogicalQuery) (physical : PhysicalQuery),
      method.takesCriteria = true → (∀ value ∈ request.criteria, value.WellFormed) →
      LogicalQuery.normalize rules method request = .ok (.ready query) →
      compile rules.schema rules.model.identity query = .ok physical →
      ∀ key, Filter.HasKey key physical.filter → rules.model.KnowsKey key) ↔
        rules.model.ConnectivesFree) := by
  refine ⟨?parts, ?branches⟩
  case parts =>
    intro method request query hm hw hready
    obtain ⟨criteria, physical, hread, hphysical, hlowered⟩ := compile_of_ready hfound hm hready
    have hgiven := Criteria.bindings_eq_of_readClause hread.bindings
    refine ⟨physical, _, hphysical, hlowered, hgiven ▸ hread.knownTo htoOne ?_⟩
    intro given hsome
    obtain ⟨value, hvalue, hobject⟩ := Option.bind_eq_some_iff.mp (hgiven.symm.trans hsome)
    have hwf := Criteria.wellFormed_of_get?_clausesOf hw hvalue
    cases value with
    | obj fields =>
      cases hobject
      exact hwf.1
    | null | bool | num | str | arr => cases hobject
  case branches =>
    constructor
    · intro hall name hname
      by_contra hcalled
      have hconnective := or_iff_not_and_not.mpr hcalled
      obtain ⟨key, hunknown⟩ := rules.model.exists_not_knowsKey
      obtain ⟨request, query, physical, hw, hready, hphysical, hkey⟩ :=
        exists_hasKey_of_column hfound hname hconnective key
      exact hunknown (hall .find request query physical rfl hw hready hphysical key hkey)
    · intro hfree method request query physical hm _ hready hphysical key hkey
      obtain ⟨criteria, lowered, hread, hcompiled, hlowered⟩ := compile_of_ready hfound hm hready
      cases hphysical.symm.trans hcompiled
      rw [filter_of_lower hlowered, Criteria.mergeBindings_filter] at hkey
      exact hread.admitted.knowsKey_of_hasKey htoOne hfree hkey

private def called (column : String) : Definition where
  identity := some "pet"
  attributes := ⟨[("name", .obj ⟨[("columnName", .str column)]⟩)]⟩

/-- Of a pet whose name is stored in a column of its own, adapters see known keys only. -/
theorem compile_knowsKey_iff_pets :
    ∃ model, (called "pet_name").resolve ["default"] = .ok model ∧
      ∀ (method : Method) (request : Request) (query : LogicalQuery) (physical : PhysicalQuery),
        method.takesCriteria = true → (∀ value ∈ request.criteria, value.WellFormed) →
        LogicalQuery.normalize ⟨model, ⟨⟨[("pet", model)]⟩⟩, true, ⟨0, 0⟩⟩ method request =
          .ok (.ready query) →
        compile ⟨⟨[("pet", model)]⟩⟩ "pet" query = .ok physical →
        ∀ key, Filter.HasKey key physical.filter → model.KnowsKey key := by
  refine ⟨_, rfl, (compile_knowsKey_iff ⟨_, ⟨⟨[("pet", _)]⟩⟩, true, ⟨0, 0⟩⟩ rfl rfl).2.mpr ?_⟩
  exact Model.connectivesFree_of_names (by decide)

/-- A pet whose name is stored in the column `or` can be asked for by a list with any key. -/
theorem list_in_connective_column :
    ¬ ∀ (datastores : List String) (d : Definition) (rules : RecordRules) (method : Method)
      (request : Request) (query : LogicalQuery) (physical : PhysicalQuery),
      d.resolve datastores = .ok rules.model →
      rules.schema.get? rules.model.identity = some rules.model →
      rules.model.isCollection rules.model.primaryKey = false →
      method.takesCriteria = true → (∀ value ∈ request.criteria, value.WellFormed) →
      LogicalQuery.normalize rules method request = .ok (.ready query) →
      compile rules.schema rules.model.identity query = .ok physical →
      ∀ key, Filter.HasKey key physical.filter → rules.model.KnowsKey key := by
  intro h
  have hknown := h ["default"] (called "or") ⟨_, ⟨⟨[("pet", _)]⟩⟩, true, ⟨0, 0⟩⟩ .find
    { criteria := some (.obj (Filter.listing "name" "bogus")) } _ _ rfl rfl rfl rfl ?_ rfl rfl
    "bogus" (Filter.hasKey_listing (.inr rfl) "bogus")
  · exact Model.not_knowsKey (by decide) (by decide) (by decide) hknown
  · rintro _ ⟨⟩
    exact Filter.wellFormed_listing "name" "bogus"

end PhysicalQuery

end GraphRecords
