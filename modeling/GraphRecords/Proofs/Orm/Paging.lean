import GraphRecords.Proofs.Orm.Reading
import GraphRecords.Proofs.Query.RoundTrip

/-!
# Pages

A call that finds can ask for one page of what it would find. The page is a stretch of that list,
and finding changes nothing. So pages that are read one after another, up to the first that is not
full, come to the whole list.
-/

namespace GraphRecords

open Outcome

/-- One request asks for a page of what another asks for, and differs from it in nothing else. -/
structure Request.PageOf (whole : Request) (size skip : Nat) (page : Request) : Prop where
  callMeta : page.callMeta = whole.callMeta
  limit : (clausesOf page.criteria).get? "limit" = some (Json.nat size)
  skip : (clausesOf page.criteria).get? "skip" = some (Json.nat skip)
  others (clause : String) (hlimit : clause ≠ "limit") (hskip : clause ≠ "skip") :
    (clausesOf page.criteria).get? clause = (clausesOf whole.criteria).get? clause

private theorem Request.exists_pageOf (whole : Request) (size skip : Nat) :
    ∃ page, whole.modify? .find [.limit size, .skip skip] = some page ∧
      whole.PageOf size skip page := by
  have hget := get?_clausesOf_foldl [.limit size, .skip skip] whole
  refine ⟨_, rfl, rfl, (hget "limit").trans rfl, (hget "skip").trans rfl, ?_⟩
  intro clause hlimit hskip
  have hnone : RequestModifier.lastGiven [.limit size, .skip skip] clause = none := by
    simp [RequestModifier.lastGiven, RequestModifier.valueFor, RequestModifier.clause?,
      Option.filter, hlimit.symm, hskip.symm]
  exact (hget clause).trans (by rw [hnone, Option.none_or])

namespace Criteria

variable {model : Model} {criteria : Criteria} {size skip : Nat}

/-- The same criteria for one page. -/
def onPage (criteria : Criteria) (size skip : Nat) : Criteria :=
  { criteria with limit := some size, skip }

private theorem checkClauses_pageOf {whole page : Request} (hpage : whole.PageOf size skip page)
    (h : checkClauses .find (Request.clausesOf whole.criteria) = .ok ()) :
    checkClauses .find (Request.clausesOf page.criteria) = .ok () := by
  apply checkClauses_eq_ok_iff.mpr
  refine ⟨?_, nofun⟩
  intro key hkey
  by_cases hlimit : key = "limit"
  · rw [hlimit]
    rfl
  by_cases hskip : key = "skip"
  · rw [hskip]
    rfl
  apply (checkClauses_eq_ok_iff.mp h).1 key
  by_contra habsent
  apply Dict.get?_eq_none_iff.mp _ hkey
  rw [hpage.others key hlimit hskip, Dict.get?_eq_none_iff.mpr habsent]

private theorem normalize_pageOf {whole page : Request} (hpage : whole.PageOf size skip page)
    (h : normalize .find model whole.criteria = .ok criteria) :
    normalize .find model page.criteria = .ok (criteria.onPage size skip) := by
  rw [normalize_eq_ofClauses] at h ⊢
  obtain ⟨hread, hboth⟩ := ofClauses_eq_ok_iff.mp h
  have hother {α : Type} {clause : String} {default : α} {read : Json → Except CriteriaFault α}
      (hlimit : clause ≠ "limit") (hskip : clause ≠ "skip") :
      readClause (Request.clausesOf page.criteria) clause default read =
        readClause (Request.clausesOf whole.criteria) clause default read := by
    rw [readClause, hpage.others clause hlimit hskip, readClause]
  refine ofClauses_eq_ok_iff.mpr ⟨?_, hboth⟩
  exact {
    clauses := checkClauses_pageOf hpage hread.clauses
    limit := by
      rw [readClause, hpage.limit]
      exact readSome_eq_ok (readNatural_nat "limit" size)
    skip := by
      rw [readClause, hpage.skip]
      exact readNatural_nat "skip" skip
    bindings := (hother (by decide) (by decide)).trans hread.bindings
    omitted := (hother (by decide) (by decide)).trans hread.omitted
    selected := (hother (by decide) (by decide)).trans hread.selected
    sort := (hother (by decide) (by decide)).trans hread.sort
    filter := (hother (by decide) (by decide)).trans hread.filter }

private theorem mergeBindings_onPage (bindings : Option Record) (criteria : Criteria)
    (size skip : Nat) :
    (criteria.onPage size skip).mergeBindings bindings =
      (criteria.mergeBindings bindings).onPage size skip := by
  cases bindings <;> rfl

private theorem field?_lower_onPage {clause : String} (hlimit : clause ≠ "limit")
    (hskip : clause ≠ "skip") (columns : Columns) (criteria : Criteria) (size skip : Nat) :
    ((criteria.onPage size skip).lower columns).field? clause =
      (criteria.lower columns).field? clause := by
  simp [lower, onPage, Json.field?, Json.toObject?, Dict.get?_insert?, hlimit.symm, hskip.symm]

private theorem isNever_onPage (hsize : 1 ≤ size) (hlimit : criteria.limit = none) (skip : Nat) :
    (criteria.onPage size skip).isNever = criteria.isNever := by
  have hpositive : (some size == some 0) = false := by
    simpa using Nat.one_le_iff_ne_zero.mp hsize
  rw [isNever, isNever, hlimit]
  exact congrArg (· || Filter.isNever criteria.filter) hpositive

end Criteria

private theorem Model.clause?_readQuery_onPage {clause : String} (hlimit : clause ≠ "limit")
    (hskip : clause ≠ "skip") (model : Model) (criteria : Criteria) (size skip : Nat) :
    (model.readQuery .find (criteria.onPage size skip) {}).clause? clause =
      (model.readQuery .find criteria {}).clause? clause := by
  change (((criteria.onPage size skip).mergeBindings model.bindings).lower model.columns).field? _ =
    ((criteria.mergeBindings model.bindings).lower model.columns).field? _
  rw [Criteria.mergeBindings_onPage, Criteria.field?_lower_onPage hlimit hskip]

namespace BoundModel

variable {m : BoundModel Store} {sort : RowSort} {unique : List (String × String)}
variable {bound : Option Nat}
variable {method : Method} {request page : Request} {store : Store}
variable {callMeta : Meta} {criteria : Criteria} {size skip : Nat}

private theorem shown_onPage (m : BoundModel Store) (criteria : Criteria) (size skip : Nat) :
    m.shown (criteria.onPage size skip) = m.shown criteria := by
  funext row
  have hnames {clause : String} (hlimit : clause ≠ "limit") (hskip : clause ≠ "skip") :
      (m.model.readQuery .find (criteria.onPage size skip) {}).names? clause =
        (m.model.readQuery .find criteria {}).names? clause := by
    rw [PhysicalQuery.names?, Model.clause?_readQuery_onPage hlimit hskip, PhysicalQuery.names?]
  rw [shown, PhysicalQuery.project, PhysicalQuery.selected?, hnames (by decide) (by decide),
    hnames (by decide) (by decide)]
  rfl

private theorem asked_onPage (hsize : 1 ≤ size) (hlimit : criteria.limit = none)
    (m : BoundModel Store) (skip : Nat) (store : Store) :
    m.asked (criteria.onPage size skip) store = m.asked criteria store := by
  have hselects : (m.model.readQuery .find (criteria.onPage size skip) {}).selects =
      (m.model.readQuery .find criteria {}).selects := by
    funext row
    rw [PhysicalQuery.selects, PhysicalQuery.filter,
      Model.clause?_readQuery_onPage (by decide) (by decide)]
    rfl
  rw [asked, Criteria.isNever_onPage hsize hlimit, Store.matching, hselects, asked, Store.matching]

/-- The rows of a page are a stretch of the rows of the whole list, in the same order. -/
theorem listed_onPage (hsize : 1 ≤ size) (hlimit : criteria.limit = none)
    (hskip : criteria.skip = 0) (sort : RowSort) (m : BoundModel Store) (skip : Nat)
    (store : Store) :
    m.listed sort (criteria.onPage size skip) store =
      ((m.listed sort criteria store).drop skip).take size := by
  have hmerged : (criteria.mergeBindings m.model.bindings).limit = none ∧
      (criteria.mergeBindings m.model.bindings).skip = 0 := by
    cases m.model.bindings <;> exact ⟨hlimit, hskip⟩
  have hwhole (rows : List Record) : (m.model.readQuery .find criteria {}).page rows = rows :=
    PhysicalQuery.page_eq_self rfl hmerged.1 hmerged.2 rows
  have hpage (rows : List Record) :
      (m.model.readQuery .find (criteria.onPage size skip) {}).page rows =
        (rows.drop skip).take size := by
    rw [PhysicalQuery.page, PhysicalQuery.natural?_limit rfl, PhysicalQuery.natural?_skip rfl,
      Criteria.mergeBindings_onPage]
    rfl
  have horders : (m.model.readQuery .find (criteria.onPage size skip) {}).orders =
      (m.model.readQuery .find criteria {}).orders := by
    rw [PhysicalQuery.orders, Model.clause?_readQuery_onPage (by decide) (by decide)]
    rfl
  have horder : (m.model.readQuery .find (criteria.onPage size skip) {}).rowOrder =
      (m.model.readQuery .find criteria {}).rowOrder :=
    congrArg (fun orders a b => PhysicalQuery.compareRows a b orders) horders
  rw [listed, listed, asked_onPage hsize hlimit, PhysicalQuery.sortRows, horder, hpage, hwhole]
  rfl

/-- What the criteria find in a store, as it is shown. -/
def found (sort : RowSort) (m : BoundModel Store) (criteria : Criteria) (store : Store) :
    List Json :=
  (m.listed sort criteria store).map (m.shown criteria)

private theorem found_onPage (hsize : 1 ≤ size) (hlimit : criteria.limit = none)
    (hskip : criteria.skip = 0) (sort : RowSort) (m : BoundModel Store) (skip : Nat)
    (store : Store) :
    m.found sort (criteria.onPage size skip) store =
      ((m.found sort criteria store).drop skip).take size := by
  rw [found, listed_onPage hsize hlimit hskip, shown_onPage, found, List.map_take, List.map_drop]

/-- Pages of one size are read one after another, each by a call of its own in the state that the
one before left, up to the first that is not full. -/
inductive PagesRead (m : BoundModel Store) (request : Request) (size : Nat)
    (contexts : Nat → CallContext) : Nat → Store → List Json → Prop
  | last {number : Nat} {store : Store} {page : Request} {items : List Json}
      (hpage : request.PageOf size (number * size) page)
      (hresult : (m.run .find page (contexts number) store).result = .ok (some (.arr items)))
      (hshort : items.length < size) : PagesRead m request size contexts number store items
  | more {number : Nat} {store : Store} {page : Request} {items rest : List Json}
      (hpage : request.PageOf size (number * size) page)
      (hresult : (m.run .find page (contexts number) store).result = .ok (some (.arr items)))
      (hfull : size ≤ items.length)
      (hrest : PagesRead m request size contexts (number + 1)
        (m.run .find page (contexts number) store).state rest) :
      PagesRead m request size contexts number store (items ++ rest)

section Pages

variable {contexts : Nat → CallContext} {number : Nat} {read : List Json}
variable (hd : m.adapter = .memory sort unique bound)
variable (hfound : m.schema.get? m.model.identity = some m.model)
variable (hmeta : Meta.ofJson request.callMeta = .ok callMeta)
variable (hcriteria : Criteria.normalize .find m.model request.criteria = .ok criteria)
variable (hlimit : criteria.limit = none) (hskip : criteria.skip = 0) (hsize : 1 ≤ size)

include hd hfound hmeta hcriteria

private theorem state_run_pageOf (hpage : request.PageOf size skip page) (context : CallContext)
    (store : Store) : (m.run .find page context store).state = store :=
  state_run_reads hd hfound (by decide) (hpage.callMeta ▸ hmeta)
    (Criteria.normalize_pageOf hpage hcriteria) context store

include hlimit hskip hsize

private theorem run_pageOf (hpage : request.PageOf size skip page) (context : CallContext)
    (store : Store) : (m.run .find page context store).result =
      .ok (some (.arr (((m.found sort criteria store).drop skip).take size))) := by
  rw [← found_onPage hsize hlimit hskip]
  exact run_find hd hfound (hpage.callMeta ▸ hmeta) (Criteria.normalize_pageOf hpage hcriteria)
    context store

/-- Whatever pages were read, they come to what was left of the list. -/
theorem PagesRead.eq_drop (h : PagesRead m request size contexts number store read) :
    read = (m.found sort criteria store).drop (number * size) := by
  have hrun {skip : Nat} {page : Request} (hpage : request.PageOf size skip page) :=
    run_pageOf hd hfound hmeta hcriteria hlimit hskip hsize hpage
  induction h with
  | @last number store page items hpage hresult hshort =>
    have hitems : items = ((m.found sort criteria store).drop (number * size)).take size := by
      simpa [hresult] using hrun hpage (contexts number) store
    have hlength := congrArg List.length hitems
    rw [List.length_take] at hlength
    rw [hitems]
    exact List.take_of_length_le (by omega)
  | @more number store page items rest hpage hresult hfull hrest ih =>
    have hitems : items = ((m.found sort criteria store).drop (number * size)).take size := by
      simpa [hresult] using hrun hpage (contexts number) store
    rw [state_run_pageOf hd hfound hmeta hcriteria hpage] at ih
    rw [ih, hitems, Nat.succ_mul, ← List.drop_drop, List.take_append_drop]

/-- What is left of the list can be read in pages, from any page on. -/
theorem pagesRead_drop (contexts : Nat → CallContext) (number : Nat) (store : Store) :
    PagesRead m request size contexts number store
      ((m.found sort criteria store).drop (number * size)) := by
  -- The measure is the number of rows left; every full page takes some of them away.
  induction hleft : (m.found sort criteria store).length - number * size using Nat.strongRecOn
    generalizing number with
  | ind left ih =>
    obtain ⟨page, _, hpage⟩ := request.exists_pageOf size (number * size)
    have hresult := run_pageOf hd hfound hmeta hcriteria hlimit hskip hsize hpage
      (contexts number) store
    by_cases hfull : size ≤ left
    · have hrest := ih (left - size) (by omega) (number + 1) (by rw [Nat.succ_mul]; omega)
      have hmore : PagesRead m request size contexts number store _ :=
        .more hpage hresult (by simp; omega)
          (by rwa [state_run_pageOf hd hfound hmeta hcriteria hpage])
      rwa [Nat.succ_mul, ← List.drop_drop, List.take_append_drop] at hmore
    · have hall : ((m.found sort criteria store).drop (number * size)).take size =
          (m.found sort criteria store).drop (number * size) :=
        List.take_of_length_le (by rw [List.length_drop]; omega)
      rw [hall] at hresult
      exact .last hpage hresult (by rw [List.length_drop]; omega)

end Pages

/-- Whatever is found without limit and skip, in whatever order and form, is found in pages of any
size just so: reading pages until one is not full comes to an end, and the pages that were read are
the whole list. -/
theorem pagesRead_iff_find (setup : Setup Store) (sort : RowSort) (unique : List (String × String))
    (bound : Option Nat)
    (hmemory : ∀ entry ∈ setup.datastores.entries, entry.2.adapter = .memory sort unique bound)
    (orm : Orm Store) (hstart : setup.start = .ok orm) (identity : String) (m : BoundModel Store)
    (hm : orm.model identity = .ok m) (request : Request) (context : CallContext)
    (contexts : Nat → CallContext) (store : Store)
    (haccepted : (LogicalQuery.normalize (m.rules context.madeAt) .find request).isOk = true)
    (hlimit : (Request.clausesOf request.criteria).get? "limit" = none)
    (hskip : (Request.clausesOf request.criteria).get? "skip" = none)
    (size : Nat) (hsize : 1 ≤ size) :
    ∃ whole, (m.run .find request context store).result = .ok (some (.arr whole)) ∧
      ∀ read, PagesRead m request size contexts 0 store read ↔ read = whole := by
  have hstarted := Setup.started_of_start hstart hm
  have hd := hstarted.adapter_eq hmemory
  obtain ⟨callMeta, criteria, hmeta, hcriteria⟩ := accepted_reads (by decide) haccepted
  have hclauses := hcriteria
  rw [Criteria.normalize_eq_ofClauses] at hclauses
  obtain ⟨hread, _⟩ := Criteria.ofClauses_eq_ok_iff.mp hclauses
  have hnoLimit := Criteria.readClause_of_get?_eq_none hlimit hread.limit
  have hnoSkip := Criteria.readClause_of_get?_eq_none hskip hread.skip
  refine ⟨m.found sort criteria store, run_find hd hstarted.found hmeta hcriteria context store, ?_⟩
  intro read
  have hall : (m.found sort criteria store).drop (0 * size) = m.found sort criteria store := by
    rw [Nat.zero_mul, List.drop_zero]
  rw [← hall]
  constructor
  · exact PagesRead.eq_drop hd hstarted.found hmeta hcriteria hnoLimit hnoSkip hsize
  · rintro rfl
    exact pagesRead_drop hd hstarted.found hmeta hcriteria hnoLimit hnoSkip hsize contexts 0 store

private def pagedSetup : Setup Store where
  datastores := ⟨[("default", { adapter := .memory .inserting [] none })]⟩
  definitions := [{ identity := some "pet" }]

private def pagedContext (number : Nat) : CallContext where
  requestId := number
  method := .find
  identity := "pet"
  datastore := "default"
  madeAt := ⟨0, 0⟩

private def threePetsQuery : PhysicalQuery where
  method := .createEach
  table := "pet"
  identity := "pet"
  primaryKey := "id"
  newRecords := [⟨[("id", Json.nat 1)]⟩, ⟨[("id", Json.nat 2)]⟩, ⟨[("id", Json.nat 3)]⟩]

private def threePets : Store := (Store.execute .inserting [] "default" threePetsQuery {}).2

private def backwards : Request where
  criteria := some (.obj ⟨[("sort", .str "id DESC")]⟩)

/-- Three pets in backward order are a page of two and a page of one. -/
theorem pagesRead_iff_find_three_pets :
    ∃ orm m whole, pagedSetup.start = .ok orm ∧ orm.model "pet" = .ok m ∧ whole.length = 3 ∧
      ∀ read, PagesRead m backwards 2 pagedContext 0 threePets read ↔ read = whole := by
  obtain ⟨whole, hwhole, hpages⟩ :=
    pagesRead_iff_find pagedSetup .inserting [] none (by simp [pagedSetup]) _ rfl "pet" _ rfl
      backwards (pagedContext 0) pagedContext threePets rfl rfl rfl 2 (by decide)
  refine ⟨_, _, whole, rfl, rfl, ?_, hpages⟩
  rw [run_find rfl rfl rfl rfl] at hwhole
  cases hwhole
  rw [List.length_map, length_listed]
  decide

end BoundModel

end GraphRecords
