import GraphRecords.Proofs.Json.Equality
import GraphRecords.Proofs.Store.GeneratedKeys

/-!
# Rows under the keys of a batch

A batch that replaces rows clears every key that it gives, however many rows stand there. What is
found under such a key afterwards is what the batch put there: a row for each record that gives the
key, and one more if the key is generated for a record that gives none.
-/

namespace GraphRecords.Store

/-- The row is stored under the key, or under one equal to it. -/
def isUnder (primaryKey : String) (key : Json) (row : Record) : Bool :=
  (row.get? primaryKey).any (· == key)

/-- The keys that records give. -/
def givenKeys (primaryKey : String) (records : List Record) : List Json :=
  records.filterMap (keyOf? primaryKey)

variable {primaryKey : String} {nextKey : Nat} {records : List Record} {record row : Record}
variable {key : Json} {id : TableId} {query : PhysicalQuery} {store : Store}

private theorem isUnder_of_mem_kept (hm : query.method = .normalizeEach)
    (hkey : key ∈ givenKeys query.primaryKey query.newRecords) (hrow : row ∈ store.kept id query) :
    isUnder query.primaryKey key row = false := by
  rw [Bool.eq_false_iff]
  intro hunder
  obtain ⟨own, hown, hsame⟩ := (Option.any_eq_true _ _).mp hunder
  obtain ⟨record, hrecord, hgiven⟩ := List.mem_filterMap.mp hkey
  exact (mem_kept_iff.mp hrow).2 ⟨hm, record, hrecord, own, key, hown, hgiven, hsame⟩

private theorem isUnder_of_keyOf? {own : Json} (h : keyOf? primaryKey record = some own) :
    isUnder primaryKey key (rowOf primaryKey nextKey record) = (own == key) := by
  rw [rowOf_of_isSome (h ▸ rfl), isUnder, keyOf?_eq_some h, Option.any_some]

private theorem isUnder_of_keyOf?_eq_none (h : keyOf? primaryKey record = none) :
    isUnder primaryKey key (rowOf primaryKey nextKey record) = (Json.nat nextKey == key) := by
  rw [isUnder, get?_rowOf_of_none h, Option.any_some]

/-- The rows that a batch puts under a key are counted by the keys that it gives and those that are
generated for it. -/
private theorem countP_isUnder_keyed (primaryKey : String) (key : Json) (nextKey : Nat)
    (records : List Record) :
    (keyed primaryKey nextKey records).countP (isUnder primaryKey key) =
      (givenKeys primaryKey records).countP (· == key) +
        (List.range' nextKey (keyless primaryKey records)).countP (Json.nat · == key) := by
  induction records generalizing nextKey with
  | nil => rfl
  | cons record rest ih =>
    rw [keyed, List.countP_cons, ih, keyless_cons record rest]
    unfold givenKeys
    cases hkey : keyOf? primaryKey record with
    | some own =>
      rw [isUnder_of_keyOf? hkey, keyless_singleton_of_isSome (hkey ▸ rfl), Nat.add_zero,
        Nat.zero_add, List.filterMap_cons_some hkey, List.countP_cons]
      omega
    | none =>
      rw [isUnder_of_keyOf?_eq_none hkey, keyless_singleton_of_none hkey, Nat.add_comm 1,
        List.range'_succ, List.filterMap_cons_none hkey, List.countP_cons]
      omega

private theorem countP_beq_eq_one_iff {keys : List Json} :
    (∀ key ∈ keys, keys.countP (· == key) = 1) ↔ keys.Pairwise (fun a b => (a == b) = false) := by
  induction keys with
  | nil => simp
  | cons first rest ih =>
    rw [List.pairwise_cons, ← ih, List.forall_mem_cons]
    have hfirst : (first :: rest).countP (· == first) = 1 ↔
        ∀ key ∈ rest, (first == key) = false := by
      simp only [List.countP_cons, Json.same_self, if_true, Nat.add_eq_right, List.countP_eq_zero,
        Bool.not_eq_true, Json.beq_comm first]
    rw [hfirst]
    refine and_congr_right fun hne => forall₂_congr fun key hkey => ?_
    rw [List.countP_cons, hne key hkey]
    rfl

private theorem countP_generated_eq_zero_iff :
    (∀ key ∈ givenKeys primaryKey records,
      (List.range' nextKey (keyless primaryKey records)).countP (Json.nat · == key) = 0) ↔
      ∀ n, ¬ Collides primaryKey nextKey [] records n := by
  simp only [List.countP_eq_zero, List.mem_range'_1]
  constructor
  · rintro h n ⟨hbounds, record, hrecord, hget⟩
    have hkey : keyOf? primaryKey record = some (Json.nat n) := by
      rw [keyOf?, hget]
      rfl
    exact h _ (List.mem_filterMap.mpr ⟨record, hrecord, hkey⟩) n hbounds (Json.same_self _)
  · intro h key hkey n hbounds hsame
    obtain ⟨record, hrecord, hgiven⟩ := List.mem_filterMap.mp hkey
    rw [Json.beq_comm] at hsame
    have hn : key = Json.nat n := Json.Plain.eq_of_same trivial hsame
    exact h n ⟨hbounds, record, hrecord, hn ▸ keyOf?_eq_some hgiven⟩

/-- Nothing is found under a key that the batch gives but what the batch put there. -/
theorem filter_isUnder_stored {sort : RowSort} {unique : List (String × String)}
    {datastore : String} {next : Store} {answer : Answer} (hm : query.method = .normalizeEach)
    (h : store.execute sort unique datastore query = (.ok answer, next))
    (hkey : key ∈ givenKeys query.primaryKey query.newRecords) :
    (next.rows ⟨datastore, query.table⟩).filter (isUnder query.primaryKey key) =
      (keyed query.primaryKey store.nextKey query.newRecords).filter
        (isUnder query.primaryKey key) := by
  have hexecutes := executes sort unique datastore query store
  rw [h] at hexecutes
  have hrows := (hexecutes.rows_eq_kept (hm ▸ rfl)).1 answer rfl
  have hkept : (store.kept ⟨datastore, query.table⟩ query).filter
      (isUnder query.primaryKey key) = [] := by
    apply List.filter_eq_nil_iff.mpr
    intro row hrow
    rw [isUnder_of_mem_kept hm hkey hrow]
    exact Bool.false_ne_true
  rw [hrows, List.filter_append, hkept, List.nil_append]

/-- A batch that replaces rows leaves under a key that it gives what it puts there itself, whatever
stood there before. Each key that it gives is then that of exactly one row if and only if no two
records give equal keys and none of the numbers to generate is a key that a record gives. The
counter does not run out meanwhile. -/
theorem normalizeEach_stores_once_iff (sort : RowSort) (unique : List (String × String))
    (datastore : String) (query : PhysicalQuery) (store next : Store) (answer : Answer)
    (hm : query.method = .normalizeEach)
    (_hcounter : store.nextKey + keyless query.primaryKey query.newRecords ≤ UInt64.size)
    (h : store.execute sort unique datastore query = (.ok answer, next)) :
    (∀ key ∈ givenKeys query.primaryKey query.newRecords,
      (next.rows ⟨datastore, query.table⟩).filter (isUnder query.primaryKey key) =
        (keyed query.primaryKey store.nextKey query.newRecords).filter
          (isUnder query.primaryKey key)) ∧
    ((∀ key ∈ givenKeys query.primaryKey query.newRecords,
        (next.rows ⟨datastore, query.table⟩).countP (isUnder query.primaryKey key) = 1) ↔
      (givenKeys query.primaryKey query.newRecords).Pairwise (fun a b => (a == b) = false) ∧
        ∀ n, ¬ Collides query.primaryKey store.nextKey [] query.newRecords n) := by
  refine ⟨fun key hkey => filter_isUnder_stored hm h hkey, ?_⟩
  rw [← countP_beq_eq_one_iff, ← countP_generated_eq_zero_iff, ← forall₂_and]
  refine forall₂_congr fun key hkey => ?_
  have hcount : (next.rows ⟨datastore, query.table⟩).countP (isUnder query.primaryKey key) =
      (givenKeys query.primaryKey query.newRecords).countP (· == key) +
        (List.range' store.nextKey (keyless query.primaryKey query.newRecords)).countP
          (Json.nat · == key) := by
    rw [List.countP_eq_length_filter, filter_isUnder_stored hm h hkey,
      ← List.countP_eq_length_filter, countP_isUnder_keyed]
  -- The record that gives the key is counted, so one row is that record and no number.
  have hgiven : 0 < (givenKeys query.primaryKey query.newRecords).countP (· == key) :=
    List.countP_pos_iff.mpr ⟨key, hkey, Json.same_self key⟩
  rw [hcount]
  omega

private def batchQuery (method : Method) (newRecords : List Record) : PhysicalQuery where
  method := method
  table := "pets"
  identity := "pet"
  primaryKey := "id"
  newRecords := newRecords

private def rex : Record := ⟨[("id", Json.nat 1), ("name", .str "Rex")]⟩

private def tom : Record := ⟨[("id", Json.nat 2), ("name", .str "Tom")]⟩

private def unnumbered : Record := ⟨[("name", .str "Kit")]⟩

/-- Three rows, two of them under the key 1; the next key is 2. -/
private def crowded : Store :=
  run .inserting [] [⟨"default", batchQuery .createEach [rex, unnumbered, tom]⟩] {}

/-- Of the two rows under the key 1 that of the batch is left, whose other key is generated. -/
theorem normalizeEach_stores_once_iff_crowded : ∃ next,
    crowded.execute .inserting [] "default" (batchQuery .normalizeEach [unnumbered, rex]) =
        (.ok none, next) ∧
      (crowded.rows ⟨"default", "pets"⟩).countP (isUnder "id" (Json.nat 1)) = 2 ∧
        (next.rows ⟨"default", "pets"⟩).countP (isUnder "id" (Json.nat 1)) = 1 := by
  obtain ⟨_, hiff⟩ := normalizeEach_stores_once_iff .inserting [] "default"
    (batchQuery .normalizeEach [unnumbered, rex]) crowded _ none rfl (by decide) rfl
  refine ⟨_, rfl, rfl, hiff.mpr ⟨List.pairwise_singleton _ _, ?_⟩ (Json.nat 1)
    List.mem_cons_self⟩
  rintro n ⟨⟨hle, _⟩, row, hrow, hget⟩
  have hrows : row ∈ [unnumbered, rex] := hrow
  simp only [List.mem_cons, List.not_mem_nil, or_false] at hrows
  rcases hrows with rfl | rfl
  · cases hget
  · have hn : 1 = n := nat_inj (Option.some.inj hget)
    exact absurd (hn ▸ hle) (by decide)

/-- Two records of a batch with the same key are both stored under it. -/
theorem equal_keys_stored_twice :
    ¬ ∀ (sort : RowSort) (unique : List (String × String)) (datastore : String)
      (query : PhysicalQuery) (store next : Store) (answer : Answer),
      query.method = .normalizeEach →
      store.execute sort unique datastore query = (.ok answer, next) →
      ∀ record ∈ query.newRecords, ∀ key, keyOf? query.primaryKey record = some key →
        (next.rows ⟨datastore, query.table⟩).countP (isUnder query.primaryKey key) = 1 := by
  intro h
  have hcount := h .inserting [] "default" (batchQuery .normalizeEach [rex, rex]) {} _ none rfl rfl
    rex List.mem_cons_self (Json.nat 1) rfl
  exact absurd hcount (by decide)

end GraphRecords.Store
