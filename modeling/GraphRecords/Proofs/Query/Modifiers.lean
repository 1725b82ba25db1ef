import GraphRecords.Proofs.Query.Reading
import GraphRecords.Query.Request

/-!
# Modified requests

Modifiers give clauses to raw criteria of any form. What the criteria then come to is what they
came to before, with each clause that was given in its place: the last value given for it counts,
and nothing else does.
-/

namespace GraphRecords

open Outcome

namespace RequestModifier

/-- The clause that a modifier gives, and its value. -/
def clause? : RequestModifier → Option (String × Json)
  | filter value => some ("where", value)
  | limit count => some ("limit", Json.nat count)
  | skip count => some ("skip", Json.nat count)
  | sort value => some ("sort", value)
  | select names => some ("select", Json.strings names)
  | omitting names => some ("omit", Json.strings names)
  | set _ | fetch | metaKey _ _ | skipHooks => none

/-- The value that a modifier gives for a clause. -/
def valueFor (clause : String) (modifier : RequestModifier) : Option Json :=
  (modifier.clause?.filter (·.1 = clause)).map Prod.snd

/-- The last of the values that modifiers give for a clause. -/
def lastGiven (modifiers : List RequestModifier) (clause : String) : Option Json :=
  (modifiers.filterMap (valueFor clause)).getLast?

private theorem lastGiven_let (modifiers : List RequestModifier) :
    lastGiven modifiers "let" = none := by
  have hnone (modifier : RequestModifier) : modifier.valueFor "let" = none := by
    cases modifier <;> rfl
  rw [lastGiven, List.filterMap_eq_nil_iff.mpr fun modifier _ => hnone modifier, List.getLast?_nil]

private theorem isClause_of_clause? {modifier : RequestModifier} {clause : String} {value : Json}
    (h : modifier.clause? = some (clause, value)) : Criteria.isClause clause = true := by
  cases modifier <;> cases h <;> rfl

private theorem apply_eq_setClause {modifier : RequestModifier} {clause : String} {value : Json}
    (h : modifier.clause? = some (clause, value)) (request : Request) :
    modifier.apply request = request.setClause clause value := by
  cases modifier <;> cases h <;> rfl

private theorem criteria_apply_of_clause?_eq_none {modifier : RequestModifier}
    (h : modifier.clause? = none)
    (request : Request) : (modifier.apply request).criteria = request.criteria := by
  cases modifier with
  | filter | limit | skip | sort | select | omitting => cases h
  | set => rfl
  | fetch | metaKey | skipHooks =>
    simp only [apply, Request.setMetaKey]
    split <;> rfl

private theorem availableFor_find {modifier : RequestModifier}
    (h : modifier.clause?.isSome = true) :
    modifier.availableFor .find = true := by
  cases modifier with
  | filter | limit | skip | sort | select | omitting => rfl
  | set | fetch | metaKey | skipHooks => cases h

end RequestModifier

namespace Request

open RequestModifier

theorem clausesOf_of_hasClause {fields : Record} (h : Criteria.hasClause fields = true) :
    clausesOf (some (.obj fields)) = fields := by
  rw [clausesOf, h, Bool.or_true, if_pos rfl]

private theorem clausesOf_setClause {clause : String} (h : Criteria.isClause clause = true)
    (request : Request) (value : Json) :
    clausesOf (request.setClause clause value).criteria =
      (clausesOf request.criteria).insert clause value := by
  apply clausesOf_of_hasClause
  exact List.any_eq_true.mpr ⟨clause, Dict.mem_keys_insert_self _ _ _, h⟩

private theorem get?_clausesOf_apply (modifier : RequestModifier) (request : Request)
    (clause : String) :
    (clausesOf (modifier.apply request).criteria).get? clause =
      (modifier.valueFor clause).or ((clausesOf request.criteria).get? clause) := by
  unfold valueFor
  cases hgiven : modifier.clause? with
  | none => rw [criteria_apply_of_clause?_eq_none hgiven]; rfl
  | some entry =>
    obtain ⟨name, value⟩ := entry
    rw [apply_eq_setClause hgiven, clausesOf_setClause (isClause_of_clause? hgiven),
      Dict.get?_insert]
    by_cases hname : name = clause <;> simp [hname, Option.filter]

private theorem isClause_of_mem_clausesOf_apply {modifier : RequestModifier} {request : Request}
    (h : ∀ key ∈ (clausesOf request.criteria).keys, Criteria.isClause key = true) :
    ∀ key ∈ (clausesOf (modifier.apply request).criteria).keys, Criteria.isClause key = true := by
  cases hgiven : modifier.clause? with
  | none => rwa [criteria_apply_of_clause?_eq_none hgiven]
  | some entry =>
    intro key hkey
    have hname := isClause_of_clause? hgiven
    rw [apply_eq_setClause hgiven, clausesOf_setClause hname] at hkey
    rcases Dict.mem_keys_insert_iff.mp hkey with rfl | hkey
    · exact hname
    · exact h key hkey

theorem modify?_eq_some {method : Method} {modifiers : List RequestModifier}
    (h : ∀ modifier ∈ modifiers, modifier.availableFor method = true) (request : Request) :
    request.modify? method modifiers = some (modifiers.foldl RequestModifier.apply request) := by
  induction modifiers generalizing request with
  | nil => rfl
  | cons modifier rest ih =>
    obtain ⟨hmodifier, hrest⟩ := List.forall_mem_cons.mp h
    rw [modify?, if_pos hmodifier, List.foldl_cons]
    exact ih hrest _

/-- What a chain of modifiers makes of the clauses of a request: each holds the last value given
for it, or else what stood there. -/
theorem get?_clausesOf_foldl (modifiers : List RequestModifier) (request : Request)
    (clause : String) :
    (clausesOf (modifiers.foldl RequestModifier.apply request).criteria).get? clause =
      (lastGiven modifiers clause).or ((clausesOf request.criteria).get? clause) :=
  Dict.foldl_eq_last (fun request => (clausesOf request.criteria).get? clause)
    (fun request modifier => get?_clausesOf_apply modifier request clause) modifiers request

private theorem isClause_of_mem_clausesOf_foldl (modifiers : List RequestModifier)
    {request : Request}
    (h : ∀ key ∈ (clausesOf request.criteria).keys, Criteria.isClause key = true) :
    ∀ key ∈ (clausesOf (modifiers.foldl RequestModifier.apply request).criteria).keys,
      Criteria.isClause key = true := by
  induction modifiers generalizing request with
  | nil => exact h
  | cons modifier rest ih => exact ih (isClause_of_mem_clausesOf_apply h)

end Request

namespace Criteria

open RequestModifier Request

variable {method : Method} {model : Model}

private theorem ofClauses_empty (method : Method) (model : Model) :
    ofClauses method model .empty = .ok {} := by
  apply ofClauses_eq_ok_iff.mpr
  have hclauses : checkClauses method .empty = .ok () :=
    checkClauses_eq_ok_iff.mpr ⟨nofun, fun _ _ => rfl⟩
  exact ⟨⟨hclauses, rfl, rfl, rfl, rfl, rfl, rfl, rfl⟩, nofun⟩

private theorem checkClauses_where (method : Method) (value : Json) :
    checkClauses method (Dict.empty.insert "where" value) = .ok () := by
  apply checkClauses_eq_ok_iff.mpr
  constructor
  · intro key hkey
    rw [List.mem_singleton.mp hkey]
    rfl
  · intro clause hclause
    rw [Dict.get?_insert, if_neg]
    · rfl
    · rintro rfl
      cases method <;> simp [forbiddenClauses] at hclause

theorem ofClauses_where (method : Method) (model : Model) (value : Json) :
    ofClauses method model (Dict.empty.insert "where" value) = (do
      let filter ← readFilter model value
      .ok { filter }) := by
  rw [ofClauses, checkClauses_where]
  rfl

/-- Criteria of whatever form come to what the clauses come to that modifiers would add to. -/
theorem normalize_eq_ofClauses (method : Method) (model : Model) (raw : Option Json) :
    normalize method model raw = ofClauses method model (clausesOf raw) := by
  cases raw with
  | none => exact (ofClauses_empty method model).symm
  | some value =>
    cases value with
    | null | bool | num | str | arr => exact (ofClauses_where method model _).symm
    | obj fields =>
      obtain ⟨_ | ⟨entry, rest⟩⟩ := fields
      · exact (ofClauses_empty method model).symm
      · rw [normalize, clausesOf]
        cases hclause : hasClause ⟨entry :: rest⟩ with
        | true => rw [if_pos rfl, Bool.or_true, if_pos rfl]
        | false => exact (ofClauses_where method model _).symm

private theorem ofClauses_congr {a b : Record} (ha : checkClauses method a = .ok ())
    (hb : checkClauses method b = .ok ()) (hget : ∀ clause, a.get? clause = b.get? clause) :
    ofClauses method model a = ofClauses method model b := by
  simp only [ofClauses, ha, hb, readClause, hget]

/-- What a clause says once a value may have been given for it: what the value is read as, or else
what the clause said before. -/
def Amended {α : Type} (read : Json → Except CriteriaFault α) (before : α) :
    Option Json → α → Prop
  | some value, after => read value = .ok after
  | none, after => after = before

/-- Criteria with each clause that was given in the place of their own. -/
structure Amends (model : Model) (given : String → Option Json) (before after : Criteria) :
    Prop where
  filter : Amended (readFilter model) before.filter (given "where") after.filter
  limit : Amended (readSome (readNatural "limit")) before.limit (given "limit") after.limit
  skip : Amended (readNatural "skip") before.skip (given "skip") after.skip
  sort : Amended (readSort model) before.sort (given "sort") after.sort
  selected : Amended (readSome (readNames "select" model)) before.selected (given "select")
    after.selected
  omitted : Amended (readNames "omit" model) before.omitted (given "omit") after.omitted
  bindings : after.bindings = before.bindings

/-- Each value that was given is valid in its clause. -/
structure ValuesValid (model : Model) (given : String → Option Json) : Prop where
  filter (value : Json) (h : given "where" = some value) : (readFilter model value).isOk = true
  limit (value : Json) (h : given "limit" = some value) : (readNatural "limit" value).isOk = true
  skip (value : Json) (h : given "skip" = some value) : (readNatural "skip" value).isOk = true
  sort (value : Json) (h : given "sort" = some value) : (readSort model value).isOk = true
  selected (value : Json) (h : given "select" = some value) :
    (readNames "select" model value).isOk = true
  omitted (value : Json) (h : given "omit" = some value) :
    (readNames "omit" model value).isOk = true

section Amended

variable {α : Type} {read : Json → Except CriteriaFault α} {before after : α} {given : Option Json}

private theorem exists_amended_iff (before : α) : (∃ after, Amended read before given after) ↔
    ∀ value, given = some value → (read value).isOk = true := by
  cases given with
  | none => exact ⟨fun _ => nofun, fun _ => ⟨before, rfl⟩⟩
  | some value =>
    constructor
    · rintro ⟨after, hread⟩ _ ⟨⟩
      rw [show read value = .ok after from hread]
      rfl
    · intro h
      have hok := h value rfl
      cases hread : read value with
      | ok after => exact ⟨after, hread⟩
      | error fault =>
        rw [hread] at hok
        cases hok

private theorem isOk_readSome (read : Json → Except CriteriaFault α) (value : Json) :
    (readSome read value).isOk = (read value).isOk := by
  unfold readSome
  cases read value <;> rfl

theorem exists_of_readSome {value : Json} {result : Option α}
    (h : readSome read value = .ok result) : ∃ x, result = some x ∧ read value = .ok x := by
  unfold readSome at h
  cases hread : read value with
  | error fault =>
    rw [hread] at h
    cases h
  | ok x =>
    rw [hread] at h
    cases h
    exact ⟨x, rfl, rfl⟩

private theorem isSome_of_readSome {value : Json} {result : Option α}
    (h : readSome read value = .ok result) : result.isSome = true := by
  obtain ⟨_, rfl, _⟩ := exists_of_readSome h
  rfl

private theorem readClause_amended_iff {base fields : Record} {clause : String} {default : α}
    (hbase : readClause base clause default read = .ok before)
    (hget : fields.get? clause = given.or (base.get? clause)) :
    readClause fields clause default read = .ok after ↔ Amended read before given after := by
  unfold readClause at hbase ⊢
  rw [hget]
  cases given with
  | some value => exact Iff.rfl
  | none =>
    rw [Option.none_or, hbase]
    exact ⟨fun h => (Except.ok.inj h).symm, fun h => congrArg Except.ok h.symm⟩

end Amended

private theorem exists_amends_iff {given : String → Option Json} {before : Criteria} :
    (∃ after, Amends model given before after) ↔ ValuesValid model given := by
  constructor
  · rintro ⟨after, h⟩
    exact {
      filter := (exists_amended_iff _).mp ⟨_, h.filter⟩
      limit := fun value hvalue =>
        (isOk_readSome _ _).symm.trans ((exists_amended_iff _).mp ⟨_, h.limit⟩ value hvalue)
      skip := (exists_amended_iff _).mp ⟨_, h.skip⟩
      sort := (exists_amended_iff _).mp ⟨_, h.sort⟩
      selected := fun value hvalue =>
        (isOk_readSome _ _).symm.trans ((exists_amended_iff _).mp ⟨_, h.selected⟩ value hvalue)
      omitted := (exists_amended_iff _).mp ⟨_, h.omitted⟩ }
  · intro h
    obtain ⟨filter, hfilter⟩ := (exists_amended_iff before.filter).mpr h.filter
    obtain ⟨limit, hlimit⟩ := (exists_amended_iff before.limit).mpr
      (fun value hvalue => (isOk_readSome _ _).trans (h.limit value hvalue))
    obtain ⟨skip, hskip⟩ := (exists_amended_iff before.skip).mpr h.skip
    obtain ⟨sort, hsort⟩ := (exists_amended_iff before.sort).mpr h.sort
    obtain ⟨selected, hselected⟩ := (exists_amended_iff before.selected).mpr
      (fun value hvalue => (isOk_readSome _ _).trans (h.selected value hvalue))
    obtain ⟨omitted, homitted⟩ := (exists_amended_iff before.omitted).mpr h.omitted
    exact ⟨⟨filter, limit, skip, sort, selected, omitted, before.bindings⟩,
      ⟨hfilter, hlimit, hskip, hsort, hselected, homitted, rfl⟩⟩

/-- With what was given in its place, criteria name what to show, and something to leave out too. -/
structure NamesBoth (given : String → Option Json) (before : Criteria) : Prop where
  selects : (given "select").isSome = true ∨ before.selected.isSome = true
  omits : (given "omit").elim (before.omitted ≠ []) (· ≠ .arr [])

private theorem readNames_eq_nil_iff {clause : String} {value : Json} {names : List String}
    (h : readNames clause model value = .ok names) : names = [] ↔ value = .arr [] := by
  cases value with
  | arr entries =>
    have hlength := (mapM_eq_ok_iff.mp h).length_eq
    simp only [Json.arr.injEq]
    rw [← List.length_eq_zero_iff, ← hlength, List.length_eq_zero_iff]
  | null | bool | num | str | obj => cases h

private theorem Amends.selectsAndOmits_iff {given : String → Option Json} {before after : Criteria}
    (h : Amends model given before after) : after.SelectsAndOmits ↔ NamesBoth given before := by
  have hselected : after.selected.isSome = true ↔
      (given "select").isSome = true ∨ before.selected.isSome = true := by
    have hread := h.selected
    cases hgiven : given "select" with
    | none =>
      rw [hgiven] at hread
      rw [show after.selected = before.selected from hread]
      simp
    | some value =>
      rw [hgiven] at hread
      simp [isSome_of_readSome hread]
  have homitted : after.omitted ≠ [] ↔ (given "omit").elim (before.omitted ≠ []) (· ≠ .arr []) := by
    have hread := h.omitted
    cases hgiven : given "omit" with
    | none =>
      rw [hgiven] at hread
      rw [show after.omitted = before.omitted from hread]
      rfl
    | some value =>
      rw [hgiven] at hread
      exact not_congr (readNames_eq_nil_iff hread)
  exact ⟨fun hboth => ⟨hselected.mp hboth.1, homitted.mp hboth.2⟩,
    fun hboth => ⟨hselected.mpr hboth.selects, homitted.mpr hboth.omits⟩⟩

private theorem checkClauses_foldl {request : Request} (modifiers : List RequestModifier)
    (h : checkClauses .find (clausesOf request.criteria) = .ok ()) :
    checkClauses .find (clausesOf (modifiers.foldl RequestModifier.apply request).criteria) =
      .ok () := by
  apply checkClauses_eq_ok_iff.mpr
  exact ⟨isClause_of_mem_clausesOf_foldl modifiers (checkClauses_eq_ok_iff.mp h).1, nofun⟩

/-- Modified criteria come to what they came to before with each clause that was given amended. -/
theorem normalize_foldl_eq_ok_iff {request : Request} {before after : Criteria}
    (h : normalize .find model request.criteria = .ok before) (modifiers : List RequestModifier) :
    normalize .find model (modifiers.foldl RequestModifier.apply request).criteria = .ok after ↔
      Amends model (lastGiven modifiers) before after ∧ ¬ after.SelectsAndOmits := by
  rw [normalize_eq_ofClauses] at h ⊢
  obtain ⟨hread, _⟩ := ofClauses_eq_ok_iff.mp h
  have hget := get?_clausesOf_foldl modifiers request
  have hlet : readClause (clausesOf (modifiers.foldl RequestModifier.apply request).criteria) "let"
      none readBindings = .ok after.bindings ↔ after.bindings = before.bindings := by
    rw [readClause_amended_iff hread.bindings (hget "let"), lastGiven_let]
    rfl
  rw [ofClauses_eq_ok_iff]
  apply and_congr_left
  intro _
  constructor
  · intro hafter
    exact {
      filter := (readClause_amended_iff hread.filter (hget "where")).mp hafter.filter
      limit := (readClause_amended_iff hread.limit (hget "limit")).mp hafter.limit
      skip := (readClause_amended_iff hread.skip (hget "skip")).mp hafter.skip
      sort := (readClause_amended_iff hread.sort (hget "sort")).mp hafter.sort
      selected := (readClause_amended_iff hread.selected (hget "select")).mp hafter.selected
      omitted := (readClause_amended_iff hread.omitted (hget "omit")).mp hafter.omitted
      bindings := hlet.mp hafter.bindings }
  · intro hamends
    exact {
      clauses := checkClauses_foldl modifiers hread.clauses
      bindings := hlet.mpr hamends.bindings
      limit := (readClause_amended_iff hread.limit (hget "limit")).mpr hamends.limit
      omitted := (readClause_amended_iff hread.omitted (hget "omit")).mpr hamends.omitted
      selected := (readClause_amended_iff hread.selected (hget "select")).mpr hamends.selected
      skip := (readClause_amended_iff hread.skip (hget "skip")).mpr hamends.skip
      sort := (readClause_amended_iff hread.sort (hget "sort")).mpr hamends.sort
      filter := (readClause_amended_iff hread.filter (hget "where")).mpr hamends.filter }

private theorem normalize_foldl_congr {request : Request}
    (h : checkClauses .find (clausesOf request.criteria) = .ok ())
    {modifiers others : List RequestModifier}
    (hlast : ∀ clause, lastGiven others clause = lastGiven modifiers clause) :
    normalize .find model (others.foldl RequestModifier.apply request).criteria =
      normalize .find model (modifiers.foldl RequestModifier.apply request).criteria := by
  rw [normalize_eq_ofClauses, normalize_eq_ofClauses]
  apply ofClauses_congr (checkClauses_foldl others h) (checkClauses_foldl modifiers h)
  intro clause
  rw [get?_clausesOf_foldl, get?_clausesOf_foldl, hlast]

/-- Modifiers of a request to find, of which each gives a clause, are all taken. The criteria are
accepted after them exactly when the last value given for each clause is valid and they do not come
to name what to show and what to leave out as well. They then say what they said before, with each
clause that was given amended, and the same after all modifiers that give the same last values. -/
theorem normalize_modify (model : Model) (request : Request) (before : Criteria)
    (h : normalize .find model request.criteria = .ok before) (modifiers : List RequestModifier)
    (hmodifiers : ∀ modifier ∈ modifiers, modifier.clause?.isSome = true) :
    ∃ next, request.modify? .find modifiers = some next ∧
      ((∃ after, normalize .find model next.criteria = .ok after) ↔
        ValuesValid model (lastGiven modifiers) ∧ ¬ NamesBoth (lastGiven modifiers) before) ∧
      (∀ after, normalize .find model next.criteria = .ok after →
        Amends model (lastGiven modifiers) before after) ∧
      ∀ others : List RequestModifier,
        (∀ modifier ∈ others, modifier.clause?.isSome = true) →
        (∀ clause, lastGiven others clause = lastGiven modifiers clause) →
        ∃ other, request.modify? .find others = some other ∧
          normalize .find model other.criteria = normalize .find model next.criteria := by
  have htaken {chain : List RequestModifier}
      (hchain : ∀ modifier ∈ chain, modifier.clause?.isSome = true) :=
    modify?_eq_some (fun modifier hm => availableFor_find (hchain modifier hm)) request
  have hiff (after : Criteria) :
      normalize .find model (modifiers.foldl RequestModifier.apply request).criteria = .ok after ↔
        Amends model (lastGiven modifiers) before after ∧ ¬ after.SelectsAndOmits :=
    normalize_foldl_eq_ok_iff h modifiers
  refine ⟨_, htaken hmodifiers, ?_, fun after hafter => ((hiff after).mp hafter).1, ?_⟩
  · rw [← exists_amends_iff]
    constructor
    · rintro ⟨after, hafter⟩
      obtain ⟨hamends, hboth⟩ := (hiff after).mp hafter
      exact ⟨⟨after, hamends⟩, fun hnames => hboth (hamends.selectsAndOmits_iff.mpr hnames)⟩
    · rintro ⟨⟨after, hamends⟩, hnames⟩
      exact ⟨after, (hiff after).mpr
        ⟨hamends, fun hboth => hnames (hamends.selectsAndOmits_iff.mp hboth)⟩⟩
  · intro others hothers hlast
    rw [normalize_eq_ofClauses] at h
    exact ⟨_, htaken hothers,
      normalize_foldl_congr (ofClauses_eq_ok_iff.mp h).1.clauses hlast⟩

private def petModel : Model where
  identity := "pet"
  tableName := "pet"
  datastore := "default"
  role := .vertex
  tenants := []
  indexes := []
  attributes := ⟨[("name", {
    name := "name", valueType := some .string, defaultValue := none, required := false,
    allowNull := false, autoCreatedAt := false, autoUpdatedAt := false, association := none,
    columnName := none })]⟩
  primaryKey := "id"
  bindings := none

private def twoKeys : Request where
  criteria := some (.arr [Json.nat 1, Json.nat 2])

private def namedRex : Record := ⟨[("name", .str "Rex")]⟩

/-- The first sort is not valid, the one that overwrites it is. -/
private def chain : List RequestModifier :=
  [.sort (.str ""), .limit 1, .filter (.obj namedRex), .sort .null, .omitting []]

/-- A filter takes the place of a list of keys, and a sort that is overwritten does no harm. -/
theorem normalize_modify_keys : ∃ next after, twoKeys.modify? .find chain = some next ∧
    normalize .find petModel next.criteria = .ok after ∧ after.filter = namedRex ∧
      after.limit = some 1 ∧ after.sort = [] := by
  obtain ⟨next, hnext, hiff, hamends, _⟩ :=
    normalize_modify petModel twoKeys _ rfl chain (by decide)
  have hvalid : Amends petModel (lastGiven chain) _
      { filter := namedRex, limit := some 1 } := ⟨rfl, rfl, rfl, rfl, rfl, rfl, rfl⟩
  obtain ⟨after, hafter⟩ := hiff.mpr
    ⟨exists_amends_iff.mp ⟨_, hvalid⟩, fun hboth => hboth.omits rfl⟩
  have h := hamends after hafter
  exact ⟨next, after, hnext, hafter, (Except.ok.inj h.filter).symm, (Except.ok.inj h.limit).symm,
    (Except.ok.inj h.sort).symm⟩

end Criteria

end GraphRecords
