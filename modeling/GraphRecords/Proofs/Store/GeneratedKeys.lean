import GraphRecords.Proofs.Store.Frame
import GraphRecords.Proofs.Store.Staging
import Mathlib.Data.List.Induction

/-!
# Generated keys

New records without a key are numbered from the next key on, whatever keys are there. A number
from the next key on that a row already holds came from a caller, never from the store.
-/

namespace GraphRecords.Store

/-- How many of the records get a generated key. -/
def keyless (primaryKey : String) (records : List Record) : Nat :=
  records.countP (fun record => (keyOf? primaryKey record).isNone)

/-- The row that a record becomes when the next key is the given one. -/
def rowOf (primaryKey : String) (nextKey : Nat) (record : Record) : Record :=
  if (keyOf? primaryKey record).isSome then record else record.insert primaryKey (Json.nat nextKey)

/-- The rows that records become, those without a key numbered one after another. -/
def keyed (primaryKey : String) (nextKey : Nat) : List Record → List Record
  | [] => []
  | record :: rest =>
      rowOf primaryKey nextKey record ::
        keyed primaryKey (nextKey + keyless primaryKey [record]) rest

/-- Every key that is generated for one of the records is that of no row, and of no other record
of the batch. -/
def GeneratesFresh (primaryKey : String) (nextKey : Nat) (rows records : List Record) : Prop :=
  ∀ (i : Nat) (record row : Record) (key : Json),
    records[i]? = some record → keyOf? primaryKey record = none →
    (keyed primaryKey nextKey records)[i]? = some row → row.get? primaryKey = some key →
    (∀ other ∈ rows, other.get? primaryKey ≠ some key) ∧
      ∀ (j : Nat) (other : Record), j ≠ i → (keyed primaryKey nextKey records)[j]? = some other →
        other.get? primaryKey ≠ some key

/-- The number is one of those to generate, and a row or a record of the batch has it already. -/
def Collides (primaryKey : String) (nextKey : Nat) (rows records : List Record) (n : Nat) : Prop :=
  (nextKey ≤ n ∧ n < nextKey + keyless primaryKey records) ∧
    ∃ row ∈ rows ++ records, row.get? primaryKey = some (Json.nat n)

/-- The caller of the query gives that value for a column: in a new record or as one to set. -/
def Step.Supplies (step : Step) (id : TableId) (column : String) (value : Json) : Prop :=
  step.table = id ∧
    ((step.query.method.createsRecords = true ∧
        ∃ record ∈ step.query.newRecords, record.get? column = some value) ∨
      (step.query.method = .update ∧ (column, value) ∈ (values step.query).entries))

variable {sort : RowSort} {unique : List (String × String)} {primaryKey : String} {nextKey : Nat}
variable {rows records : List Record} {record row : Record} {store : Store}

theorem nat_inj {m n : Nat} (h : Json.nat m = Json.nat n) : m = n :=
  Int.ofNat.inj (Number.int.inj (Json.num.inj h))

private theorem keyOf?_eq_none_of_not_isSome (h : ¬ (keyOf? primaryKey record).isSome = true) :
    keyOf? primaryKey record = none := by
  rwa [Option.not_isSome_iff_eq_none] at h

theorem keyless_cons (record : Record) (rest : List Record) :
    keyless primaryKey (record :: rest) =
      keyless primaryKey [record] + keyless primaryKey rest := by
  rw [← List.singleton_append, keyless, List.countP_append]
  rfl

theorem keyless_singleton_of_isSome (h : (keyOf? primaryKey record).isSome = true) :
    keyless primaryKey [record] = 0 := by
  obtain ⟨key, hkey⟩ := Option.isSome_iff_exists.mp h
  rw [keyless, List.countP_singleton, hkey]
  rfl

theorem keyless_singleton_of_none (h : keyOf? primaryKey record = none) :
    keyless primaryKey [record] = 1 := by
  rw [keyless, List.countP_singleton, h]
  rfl

theorem stage_cons (columns : List String) (existing staged : List Record) (record : Record)
    (rest : List Record) :
    stage columns primaryKey existing staged nextKey (record :: rest) =
      match clash? columns (rowOf primaryKey nextKey record) (existing ++ staged) with
      | some column => (.error (notUnique column), nextKey + keyless primaryKey [record])
      | none => stage columns primaryKey existing (staged ++ [rowOf primaryKey nextKey record])
          (nextKey + keyless primaryKey [record]) rest := by
  have hnext : (if (keyOf? primaryKey record).isSome then nextKey else nextKey + 1) =
      nextKey + keyless primaryKey [record] := by
    split
    · rename_i h
      rw [keyless_singleton_of_isSome h, Nat.add_zero]
    · rename_i h
      rw [keyless_singleton_of_none (keyOf?_eq_none_of_not_isSome h)]
  rw [stage, hnext]
  rfl

private theorem le_stage_snd (columns : List String) (existing staged : List Record) (nextKey : Nat)
    (records : List Record) :
    nextKey ≤ (stage columns primaryKey existing staged nextKey records).2 := by
  induction records generalizing staged nextKey with
  | nil => exact Nat.le_refl _
  | cons record rest ih =>
    rw [stage_cons]
    split
    · exact Nat.le_add_right _ _
    · exact Nat.le_trans (Nat.le_add_right _ _) (ih _ _)

theorem stage_eq_ok_keyed {columns : List String} {existing staged rows : List Record} {next : Nat}
    (h : stage columns primaryKey existing staged nextKey records = (.ok rows, next)) :
    rows = staged ++ keyed primaryKey nextKey records ∧
      next = nextKey + keyless primaryKey records := by
  induction records generalizing staged nextKey with
  | nil =>
    cases h
    exact ⟨(List.append_nil _).symm, rfl⟩
  | cons record rest ih =>
    rw [stage_cons] at h
    split at h
    · cases h
    · obtain ⟨rfl, rfl⟩ := ih h
      rw [keyless_cons record rest, keyed]
      exact ⟨List.append_assoc .., Nat.add_assoc ..⟩

/-- The key that a record gets is the next one after those of the records before it. -/
theorem getElem?_keyed (primaryKey : String) (nextKey : Nat) (records : List Record) (i : Nat) :
    (keyed primaryKey nextKey records)[i]? =
      records[i]?.map (rowOf primaryKey (nextKey + keyless primaryKey (records.take i))) := by
  induction records generalizing nextKey i with
  | nil => rfl
  | cons record rest ih =>
    cases i with
    | zero => rfl
    | succ i =>
      rw [keyed, List.getElem?_cons_succ, ih, List.getElem?_cons_succ, List.take_succ_cons,
        keyless_cons record (rest.take i), Nat.add_assoc]

theorem get?_rowOf_of_none (h : keyOf? primaryKey record = none) (nextKey : Nat) :
    (rowOf primaryKey nextKey record).get? primaryKey = some (Json.nat nextKey) := by
  rw [rowOf, h]
  exact Dict.get?_insert_self _ _ _

private theorem keyless_take_lt {i j : Nat} (hi : records[i]? = some record)
    (hkey : keyOf? primaryKey record = none) (hij : i < j) :
    keyless primaryKey (records.take i) < keyless primaryKey (records.take j) := by
  have hnext : keyless primaryKey (records.take (i + 1)) =
      keyless primaryKey (records.take i) + 1 := by
    rw [List.take_add_one, hi, keyless, List.countP_append]
    exact congrArg _ (keyless_singleton_of_none hkey)
  have hmono : keyless primaryKey (records.take (i + 1)) ≤ keyless primaryKey (records.take j) :=
    List.Sublist.countP_le (List.take_sublist_take_left hij)
  omega

private theorem keyless_take_lt_self {i : Nat} (hi : records[i]? = some record)
    (hkey : keyOf? primaryKey record = none) :
    keyless primaryKey (records.take i) < keyless primaryKey records := by
  have htake := keyless_take_lt hi hkey (List.getElem?_eq_some_iff.mp hi).1
  rwa [List.take_length] at htake

private theorem exists_generated {m : Nat} (h : m < keyless primaryKey records) :
    ∃ (i : Nat) (record : Record), records[i]? = some record ∧ keyOf? primaryKey record = none ∧
      keyless primaryKey (records.take i) = m := by
  induction records generalizing m with
  | nil => cases h
  | cons record rest ih =>
    rw [keyless_cons] at h
    by_cases hkey : keyOf? primaryKey record = none
    · rw [keyless_singleton_of_none hkey] at h
      cases m with
      | zero => exact ⟨0, record, rfl, hkey, rfl⟩
      | succ m =>
        obtain ⟨i, other, hi, hother, hm⟩ := ih (m := m) (by omega)
        refine ⟨i + 1, other, hi, hother, ?_⟩
        rw [List.take_succ_cons, keyless_cons, keyless_singleton_of_none hkey, hm, Nat.add_comm]
    · rw [← Ne, Option.ne_none_iff_isSome] at hkey
      rw [keyless_singleton_of_isSome hkey, Nat.zero_add] at h
      obtain ⟨i, other, hi, hother, hm⟩ := ih h
      refine ⟨i + 1, other, hi, hother, ?_⟩
      rw [List.take_succ_cons, keyless_cons, keyless_singleton_of_isSome hkey, hm, Nat.zero_add]

private theorem isSome_keyOf?_of_get? {n : Nat} (h : record.get? primaryKey = some (Json.nat n)) :
    (keyOf? primaryKey record).isSome = true := by
  rw [keyOf?, h]
  rfl

theorem rowOf_of_isSome (h : (keyOf? primaryKey record).isSome = true) (nextKey : Nat) :
    rowOf primaryKey nextKey record = record :=
  if_pos h

private theorem GeneratesFresh.not_collides (h : GeneratesFresh primaryKey nextKey rows records)
    (n : Nat) :
    ¬ Collides primaryKey nextKey rows records n := by
  rintro ⟨⟨hle, hlt⟩, row, hrow, hget⟩
  -- The number is handed out, to the record behind as many others without a key.
  obtain ⟨i, record, hi, hkey, hm⟩ :=
    exists_generated (m := n - nextKey) (by omega : n - nextKey < keyless primaryKey records)
  have hn : nextKey + keyless primaryKey (records.take i) = n := by omega
  have hkeyed : (keyed primaryKey nextKey records)[i]? = some (rowOf primaryKey n record) := by
    rw [getElem?_keyed, hi, hn]
    rfl
  obtain ⟨hrows, hbatch⟩ := h i record _ _ hi hkey hkeyed (get?_rowOf_of_none hkey n)
  rcases List.mem_append.mp hrow with hrow | hrow
  · exact hrows row hrow hget
  · obtain ⟨j, hj⟩ := List.mem_iff_getElem?.mp hrow
    have hsome := isSome_keyOf?_of_get? hget
    refine hbatch j row ?_ ?_ hget
    · rintro rfl
      cases hi.symm.trans hj
      rw [hkey] at hsome
      cases hsome
    · rw [getElem?_keyed, hj, Option.map_some, rowOf_of_isSome hsome]

private theorem keyless_take_ne {i j : Nat} {other : Record} (hij : j ≠ i)
    (hi : records[i]? = some record) (hkey : keyOf? primaryKey record = none)
    (hj : records[j]? = some other) (hother : keyOf? primaryKey other = none) :
    keyless primaryKey (records.take j) ≠ keyless primaryKey (records.take i) := by
  rcases Nat.lt_or_gt_of_ne hij with hlt | hlt
  · exact Nat.ne_of_lt (keyless_take_lt hj hother hlt)
  · exact Nat.ne_of_gt (keyless_take_lt hi hkey hlt)

private theorem generatesFresh_of_not_collides
    (h : ∀ n, ¬ Collides primaryKey nextKey rows records n) :
    GeneratesFresh primaryKey nextKey rows records := by
  intro i record row key hi hkey hrow hget
  rw [getElem?_keyed, hi] at hrow
  cases hrow
  rw [get?_rowOf_of_none hkey] at hget
  cases hget
  have hbounds : nextKey ≤ nextKey + keyless primaryKey (records.take i) ∧
      nextKey + keyless primaryKey (records.take i) < nextKey + keyless primaryKey records :=
    ⟨Nat.le_add_right _ _, Nat.add_lt_add_left (keyless_take_lt_self hi hkey) _⟩
  refine ⟨fun other hother hsame =>
    h _ ⟨hbounds, other, List.mem_append_left _ hother, hsame⟩, ?_⟩
  intro j other hj hother hsame
  rw [getElem?_keyed] at hother
  obtain ⟨given, hgiven, rfl⟩ := Option.map_eq_some_iff.mp hother
  by_cases hsome : (keyOf? primaryKey given).isSome = true
  · rw [rowOf_of_isSome hsome] at hsame
    exact h _ ⟨hbounds, given, List.mem_append_right _ (List.mem_of_getElem? hgiven), hsame⟩
  · have hnone := keyOf?_eq_none_of_not_isSome hsome
    rw [get?_rowOf_of_none hnone] at hsame
    have hsum := nat_inj (Option.some.inj hsame)
    exact keyless_take_ne hj hi hkey hgiven hnone (Nat.add_left_cancel hsum)

/-- Generated keys are fresh unless one of the numbers to generate is there already. -/
theorem generatesFresh_iff : GeneratesFresh primaryKey nextKey rows records ↔
    ∀ n, ¬ Collides primaryKey nextKey rows records n :=
  ⟨GeneratesFresh.not_collides, generatesFresh_of_not_collides⟩

private theorem nextKey_linkOwner (id : TableId) (values : Record) (store : Store) (owner : Json) :
    (linkOwner id values store owner).nextKey = store.nextKey := by
  rw [linkOwner]
  induction values.entries generalizing store with
  | nil => rfl
  | cons entry rest ih => exact ih _

private theorem nextKey_replaceCollection (id : TableId) (query : PhysicalQuery) (store : Store) :
    (store.replaceCollection id query).nextKey = store.nextKey := by
  rw [replaceCollection]
  induction store.owners id query generalizing store with
  | nil => rfl
  | cons owner rest ih => exact (ih _).trans (nextKey_linkOwner ..)

private theorem Executes.nextKey_le {id : TableId} {query : PhysicalQuery} {next : Store}
    {result : Except AdapterError Answer} (h : Executes sort unique id query store result next) :
    store.nextKey ≤ next.nextKey := by
  have hstaged : store.nextKey ≤ (store.staged unique id query).2 := le_stage_snd ..
  cases h with
  | creates _ hs | refuses _ hs =>
    rw [hs] at hstaged
    exact hstaged
  | updates | destroys | finds | findsOne | counts | clashes => exact Nat.le_refl _
  | replaces => exact Nat.le_of_eq (nextKey_replaceCollection ..).symm

private theorem get?_of_mem_keyed {column : String} {value : Json}
    (hrow : row ∈ keyed primaryKey nextKey records) (hget : row.get? column = some value) :
    (∃ record ∈ records, record.get? column = some value) ∨
      ∃ n < nextKey + keyless primaryKey records, value = Json.nat n := by
  obtain ⟨i, hi⟩ := List.mem_iff_getElem?.mp hrow
  rw [getElem?_keyed] at hi
  obtain ⟨record, hrecord, rfl⟩ := Option.map_eq_some_iff.mp hi
  have hmem := List.mem_of_getElem? hrecord
  by_cases hsome : (keyOf? primaryKey record).isSome = true
  · rw [rowOf_of_isSome hsome] at hget
    exact .inl ⟨record, hmem, hget⟩
  · have hnone := keyOf?_eq_none_of_not_isSome hsome
    rw [rowOf, if_neg hsome, Dict.get?_insert] at hget
    split at hget
    · cases hget
      exact .inr ⟨_, Nat.add_lt_add_left (keyless_take_lt_self hrecord hnone) _, rfl⟩
    · exact .inl ⟨record, hmem, hget⟩

private theorem get?_updateRow {query : PhysicalQuery} {column : String} {value : Json}
    (h : (updateRow query row).get? column = some value) :
    (column, value) ∈ (values query).entries ∨ row.get? column = some value := by
  rw [updateRow] at h
  split at h
  · by_cases hcolumn : column ∈ (values query).keys
    · obtain ⟨given, hgiven, hover⟩ := Dict.exists_get?_override (d := row) hcolumn
      cases hover.symm.trans h
      exact .inl hgiven
    · rw [Dict.get?_override_of_notMem hcolumn] at h
      exact .inr h
  · exact .inr h

/-- A number from the next key on is in a row because it was, or because the query supplies it. -/
theorem supplies_or_mem_of_mem_after {step : Step} {id : TableId} {column : String} {n : Nat}
    (hrow : row ∈ (store.after sort unique step).rows id)
    (hget : row.get? column = some (Json.nat n))
    (hn : (store.after sort unique step).nextKey ≤ n) :
    step.Supplies id column (Json.nat n) ∨
      ∃ old ∈ store.rows id, old.get? column = some (Json.nat n) := by
  by_cases hid : id = step.table
  · subst hid
    have hset := rows_setRows_self store step.table
    have hreplaced := rows_replaceCollection step.table step.query store step.table
    have hexecutes := executes_after sort unique store step
    generalize (store.execute sort unique step.datastore step.query).1 = result at hexecutes
    generalize store.after sort unique step = next at hexecutes hrow hn
    cases hexecutes with
    | creates hm hs =>
      obtain ⟨rfl, rfl⟩ := stage_eq_ok_keyed hs
      rcases List.mem_append.mp ((hset _) ▸ hrow) with hkept | hkeyed
      · exact .inr ⟨row, (mem_kept_iff.mp hkept).1, hget⟩
      · rcases get?_of_mem_keyed hkeyed hget with hgiven | ⟨m, hlt, he⟩
        · exact .inl ⟨rfl, .inl ⟨hm, hgiven⟩⟩
        · cases nat_inj he
          exact absurd hn (Nat.not_le_of_lt hlt)
    | refuses => exact .inr ⟨row, (mem_kept_iff.mp ((hset _) ▸ hrow)).1, hget⟩
    | finds | findsOne | counts | clashes => exact .inr ⟨row, hrow, hget⟩
    | updates hm =>
      obtain ⟨old, hold, rfl⟩ := List.mem_map.mp ((hset _) ▸ hrow)
      rcases get?_updateRow hget with hset | hget
      · exact .inl ⟨rfl, .inr ⟨hm, hset⟩⟩
      · exact .inr ⟨old, hold, hget⟩
    | destroys => exact .inr ⟨row, List.mem_of_mem_filter ((hset _) ▸ hrow), hget⟩
    | replaces => exact .inr ⟨row, hreplaced ▸ hrow, hget⟩
  · rw [rows_after_of_ne hid] at hrow
    exact .inr ⟨row, hrow, hget⟩

/-- A number from the next key on that a row holds was supplied by one of the queries so far. -/
theorem exists_supplies_of_mem_run {steps : List Step} {id : TableId} {column : String} {n : Nat}
    (hrow : row ∈ (run sort unique steps {}).rows id) (hget : row.get? column = some (Json.nat n))
    (hn : (run sort unique steps {}).nextKey ≤ n) :
    ∃ step ∈ steps, step.Supplies id column (Json.nat n) := by
  induction steps using List.reverseRecOn generalizing row with
  | nil => cases hrow
  | append_singleton steps step ih =>
    rw [run_concat] at hrow hn
    rcases supplies_or_mem_of_mem_after hrow hget hn with hsupplies | ⟨old, hold, hget⟩
    · exact ⟨step, List.mem_append_right _ (List.mem_singleton_self step), hsupplies⟩
    · obtain ⟨earlier, hearlier, hsupplies⟩ :=
        ih hold hget (Nat.le_trans (executes_after sort unique _ step).nextKey_le hn)
      exact ⟨earlier, List.mem_append_left _ hearlier, hsupplies⟩

/-- New records are stored behind the rows that stay, each under its own key or the one generated
for it, or not at all. -/
theorem Executes.rows_eq_kept {id : TableId} {query : PhysicalQuery} {next : Store}
    {result : Except AdapterError Answer} (h : Executes sort unique id query store result next)
    (hm : query.method.createsRecords = true) :
    (∀ answer, result = .ok answer → next.rows id =
      store.kept id query ++ keyed query.primaryKey store.nextKey query.newRecords) ∧
      ∀ error, result = .error error → next.rows id = store.kept id query := by
  have hset := rows_setRows_self store id
  cases h with
  | creates _ hs =>
    obtain ⟨rfl, rfl⟩ := stage_eq_ok_keyed hs
    exact ⟨fun _ _ => hset _, nofun⟩
  | refuses => exact ⟨nofun, fun _ _ => hset _⟩
  | finds hother | findsOne hother | counts hother | updates hother | clashes hother
  | destroys hother | replaces hother =>
    rw [hother] at hm
    cases hm

/-- In a store that queries lead to, new records are stored under keys that no row beside them and
no other record of the batch has, unless one of the numbers to generate is there already. It is
there only where a query so far, or this one, supplied it. -/
theorem run_generatesFresh_iff (sort : RowSort) (unique : List (String × String))
    (steps : List Step) (step : Step) (store next : Store) (result : Except AdapterError Answer)
    (hstore : store = run sort unique steps {}) (hm : step.query.method.createsRecords = true)
    (h : store.execute sort unique step.datastore step.query = (result, next)) :
    (∀ answer, result = .ok answer → next.rows step.table =
      store.kept step.table step.query ++
        keyed step.query.primaryKey store.nextKey step.query.newRecords) ∧
    (∀ error, result = .error error →
      next.rows step.table = store.kept step.table step.query) ∧
    (GeneratesFresh step.query.primaryKey store.nextKey (store.kept step.table step.query)
        step.query.newRecords ↔
      ∀ n, ¬ Collides step.query.primaryKey store.nextKey (store.kept step.table step.query)
        step.query.newRecords n) ∧
    ∀ n, Collides step.query.primaryKey store.nextKey (store.kept step.table step.query)
        step.query.newRecords n →
      ∃ supplying ∈ steps ++ [step],
        supplying.Supplies step.table step.query.primaryKey (Json.nat n) := by
  have hexecutes := executes sort unique step.datastore step.query store
  rw [h] at hexecutes
  obtain ⟨hstored, hrefused⟩ := hexecutes.rows_eq_kept hm
  refine ⟨hstored, hrefused, generatesFresh_iff, ?_⟩
  rintro n ⟨⟨hle, _⟩, row, hrow, hget⟩
  rcases List.mem_append.mp hrow with hkept | hgiven
  · subst hstore
    obtain ⟨supplying, hmem, hsupplies⟩ :=
      exists_supplies_of_mem_run (mem_kept_iff.mp hkept).1 hget hle
    exact ⟨supplying, List.mem_append_left _ hmem, hsupplies⟩
  · exact ⟨step, List.mem_append_right _ (List.mem_singleton_self step), rfl,
      .inl ⟨hm, row, hgiven, hget⟩⟩

private def keyQuery (method : Method) (newRecords : List Record) : PhysicalQuery where
  method := method
  table := "pets"
  identity := "pet"
  primaryKey := "id"
  newRecords := newRecords

private def petUnder (key : Nat) : Record := ⟨[("id", Json.nat key)]⟩

/-- With a pet under the key 5, a pet without a key gets the key 1, also beside one with key 7. -/
theorem run_generatesFresh_iff_far_keys :
    GeneratesFresh "id" (run .inserting [] [⟨"default", keyQuery .create [petUnder 5]⟩] {}).nextKey
      [petUnder 5] [{}, petUnder 7] := by
  let step : Step := ⟨"default", keyQuery .createEach [{}, petUnder 7]⟩
  refine (run_generatesFresh_iff .inserting [] [⟨"default", keyQuery .create [petUnder 5]⟩] step
    _ _ _ rfl rfl rfl).2.2.1.mpr ?_
  rintro n ⟨⟨hle, hlt⟩, row, hrow, hget⟩
  have hn : n = 1 := Nat.le_antisymm (Nat.le_of_lt_succ hlt) hle
  subst hn
  have hrows : row ∈ [petUnder 5, {}, petUnder 7] := hrow
  simp only [List.mem_cons, List.not_mem_nil, or_false] at hrows
  rcases hrows with rfl | rfl | rfl
  · exact absurd (nat_inj (Option.some.inj hget)) (by decide)
  · cases hget
  · exact absurd (nat_inj (Option.some.inj hget)) (by decide)

/-- A pet that is stored under the key 1 leaves that key to be generated for the next pet. -/
theorem given_key_generated_again :
    ¬ ∀ (sort : RowSort) (unique : List (String × String)) (steps : List Step) (step : Step)
      (answer : Answer), step.query.method.createsRecords = true →
      ((run sort unique steps {}).execute sort unique step.datastore step.query).1 = .ok answer →
      GeneratesFresh step.query.primaryKey (run sort unique steps {}).nextKey
        ((run sort unique steps {}).kept step.table step.query) step.query.newRecords := by
  intro h
  have hfresh := h .inserting [] [⟨"default", keyQuery .create [petUnder 1]⟩]
    ⟨"default", keyQuery .create [{}]⟩ none rfl rfl
  exact (hfresh 0 {} (petUnder 1) (Json.nat 1) rfl rfl rfl rfl).1 (petUnder 1)
    List.mem_cons_self rfl

end GraphRecords.Store
