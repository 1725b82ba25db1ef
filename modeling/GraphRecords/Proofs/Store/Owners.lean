import GraphRecords.Proofs.Store.Frame
import GraphRecords.Proofs.Store.Staging
import Mathlib.Data.List.Induction

/-!
# Owners of members

Members are stored for rows that stand in their table, and stay when the rows go. They lose their
owner where the last row of a key is destroyed, given another key or replaced by a batch, and
belong to any row that is stored under the key later.
-/

namespace GraphRecords.Store

/-- The text of the row's key, under which its members are stored. -/
def HasKey (primaryKey owner : String) (row : Record) : Prop :=
  (row.get? primaryKey).map Json.render = some owner

/-- Some row that stands in the table has the key that the members are stored under. -/
def Owned (primaryKey : String) (store : Store) (link : LinkId) : Prop :=
  ∃ row ∈ store.rows link.table, HasKey primaryKey link.owner row

/-- A query that can take all rows of a key away: one that destroys them, one that sets their key
to another, or a batch with keys that are equal to theirs. -/
inductive TakesKey (query : PhysicalQuery) (rows : List Record) (owner : String) : Prop where
  | destroys (hm : query.method = .destroy)
      (h : ∀ row ∈ rows, HasKey query.primaryKey owner row → query.selects row = true)
  | rekeys {key : Json} (hm : query.method = .update)
      (hkey : (query.primaryKey, key) ∈ (values query).entries) (hne : key.render ≠ owner)
      (h : ∀ row ∈ rows, HasKey query.primaryKey owner row → query.selects row = true)
  | replaces (hm : query.method = .normalizeEach)
      (h : ∀ row ∈ rows, HasKey query.primaryKey owner row →
        ReplacedBy query.primaryKey query.newRecords row)

variable {sort : RowSort} {unique : List (String × String)} {store : Store} {step : Step}
variable {link : LinkId}
variable {primaryKey owner : String}

theorem HasKey.override {row values : Record} (h : HasKey primaryKey owner row)
    (hsame : ∀ key, (primaryKey, key) ∈ values.entries → key.render = owner) :
    HasKey primaryKey owner (row.override values) := by
  unfold HasKey at h ⊢
  by_cases hset : primaryKey ∈ values.keys
  · obtain ⟨key, hkey, hget⟩ := Dict.exists_get?_override (d := row) hset
    rw [hget, Option.map_some, hsame key hkey]
  · rwa [Dict.get?_override_of_notMem hset]

private theorem exists_mem_kept {query : PhysicalQuery} {id : TableId}
    (h : ∃ row ∈ store.rows id, HasKey query.primaryKey owner row) :
    (∃ row ∈ store.kept id query, HasKey query.primaryKey owner row) ∨
      TakesKey query (store.rows id) owner := by
  by_contra hnone
  obtain ⟨hkept, htakes⟩ := not_or.mp hnone
  obtain ⟨row, hrow, hkey⟩ := h
  have hreplaced (row : Record) (hrow : row ∈ store.rows id)
      (hkey : HasKey query.primaryKey owner row) :
      query.method = .normalizeEach ∧ ReplacedBy query.primaryKey query.newRecords row := by
    by_contra hstays
    exact hkept ⟨row, mem_kept_iff.mpr ⟨hrow, hstays⟩, hkey⟩
  exact htakes (.replaces (hreplaced row hrow hkey).1 fun row hrow hkey =>
    (hreplaced row hrow hkey).2)

private theorem exists_not_selected {query : PhysicalQuery} {rows : List Record}
    (h : ¬ ∀ row ∈ rows, HasKey query.primaryKey owner row → query.selects row = true) :
    ∃ row ∈ rows, HasKey query.primaryKey owner row ∧ query.selects row = false := by
  by_contra hnone
  refine h fun row hrow hkey => ?_
  by_contra hselects
  exact hnone ⟨row, hrow, hkey, Bool.eq_false_iff.mpr hselects⟩

private theorem exists_mem_updated {query : PhysicalQuery} {rows : List Record}
    (hm : query.method = .update) (h : ∃ row ∈ rows, HasKey query.primaryKey owner row) :
    (∃ row ∈ rows.map (updateRow query), HasKey query.primaryKey owner row) ∨
      TakesKey query rows owner := by
  by_cases hall : ∀ row ∈ rows, HasKey query.primaryKey owner row → query.selects row = true
  · by_cases hsame : ∀ key, (query.primaryKey, key) ∈ (values query).entries → key.render = owner
    · obtain ⟨row, hrow, hkey⟩ := h
      refine .inl ⟨_, List.mem_map_of_mem hrow, ?_⟩
      rw [updateRow, if_pos (hall row hrow hkey)]
      exact hkey.override hsame
    · simp only [not_forall] at hsame
      obtain ⟨key, hkey, hne⟩ := hsame
      exact .inr (.rekeys hm hkey hne hall)
  · obtain ⟨row, hrow, hkey, hselects⟩ := exists_not_selected hall
    refine .inl ⟨_, List.mem_map_of_mem hrow, ?_⟩
    rwa [updateRow, hselects]

private theorem exists_mem_spared {query : PhysicalQuery} {rows : List Record}
    (hm : query.method = .destroy) :
    (∃ row ∈ rows.filter (fun row => !query.selects row), HasKey query.primaryKey owner row) ∨
      TakesKey query rows owner := by
  by_cases hall : ∀ row ∈ rows, HasKey query.primaryKey owner row → query.selects row = true
  · exact .inr (.destroys hm hall)
  · obtain ⟨row, hrow, hkey, hselects⟩ := exists_not_selected hall
    exact .inl ⟨row, List.mem_filter.mpr ⟨hrow, by rw [hselects]; rfl⟩, hkey⟩

private theorem Executes.exists_hasKey {id : TableId} {query : PhysicalQuery} {next : Store}
    {result : Except AdapterError Answer} (h : Executes sort unique id query store result next)
    (hrow : ∃ row ∈ store.rows id, HasKey query.primaryKey owner row) :
    (∃ row ∈ next.rows id, HasKey query.primaryKey owner row) ∨
      TakesKey query (store.rows id) owner := by
  have hset := rows_setRows_self store id
  have hreplaced := rows_replaceCollection id query store id
  cases h with
  | creates =>
    refine (exists_mem_kept hrow).imp_left ?_
    rintro ⟨row, hkept, hkey⟩
    exact ⟨row, (hset _).symm ▸ List.mem_append_left _ hkept, hkey⟩
  | refuses =>
    refine (exists_mem_kept hrow).imp_left ?_
    rintro ⟨row, hkept, hkey⟩
    exact ⟨row, (hset _).symm ▸ hkept, hkey⟩
  | finds | findsOne | counts | clashes => exact .inl hrow
  | updates hm =>
    rw [hset]
    exact exists_mem_updated hm hrow
  | destroys hm =>
    rw [hset]
    exact exists_mem_spared hm
  | replaces =>
    rw [hreplaced]
    exact .inl hrow

theorem Owned.after (h : Owned primaryKey store link)
    (hkey : step.table = link.table → step.query.primaryKey = primaryKey) :
    Owned primaryKey (store.after sort unique step) link ∨
      step.table = link.table ∧ TakesKey step.query (store.rows link.table) link.owner := by
  by_cases htable : step.table = link.table
  · obtain rfl := hkey htable
    have hrow := h
    simp only [Owned, ← htable] at hrow ⊢
    exact ((executes_after sort unique store step).exists_hasKey hrow).imp_right (⟨trivial, ·⟩)
  · refine .inl ?_
    rw [Owned, rows_after_of_ne (Ne.symm htable)]
    exact h

/-- A query that stores members for a row that it selects. -/
structure Writes (sort : RowSort) (unique : List (String × String)) (store : Store) (step : Step)
    (link : LinkId) :
    Prop where
  method : step.query.method = .replaceCollection
  table : step.table = link.table
  owner : ∃ row ∈ store.matching step.table step.query,
    HasKey step.query.primaryKey link.owner row
  written : ((store.after sort unique step).members? link).isSome = true

/-- A query that leaves members without an owner. -/
structure Orphans (sort : RowSort) (unique : List (String × String)) (store : Store) (step : Step)
    (link : LinkId) :
    Prop where
  table : step.table = link.table
  owned : Owned step.query.primaryKey store link
  orphaned : ¬ Owned step.query.primaryKey (store.after sort unique step) link
  takes : TakesKey step.query (store.rows link.table) link.owner

private theorem Writes.owned (h : Writes sort unique store step link) :
    Owned step.query.primaryKey (store.after sort unique step) link := by
  obtain ⟨row, hrow, hkey⟩ := h.owner
  have hrows : (store.after sort unique step).rows link.table = store.rows link.table := by
    have hafter : store.after sort unique step = store.replaceCollection step.table step.query := by
      simp only [Store.after, execute, h.method]
      rfl
    rw [hafter, rows_replaceCollection]
  refine ⟨row, ?_, hkey⟩
  rw [hrows, ← h.table]
  exact List.mem_of_mem_filter hrow

/-- Members are there because they were, or because the query stores them. -/
theorem members?_after_eq_or_writes (sort : RowSort) (unique : List (String × String))
    (store : Store) (step : Step) (link : LinkId) :
    (store.after sort unique step).members? link = store.members? link ∨
      Writes sort unique store step link := by
  refine ((executes_after sort unique store step).members?_cases link).imp_right ?_
  rintro ⟨hm, htable, howner, hsome⟩
  refine ⟨hm, htable, ?_, hsome⟩
  obtain ⟨key, hkey, hrender⟩ := List.mem_map.mp howner
  obtain ⟨row, hrow, hget⟩ := List.mem_filterMap.mp hkey
  refine ⟨row, hrow, ?_⟩
  rw [HasKey, hget, Option.map_some, hrender]

/-- Stored members go back to a query that stored them. -/
theorem exists_writes_of_run (sort : RowSort) (unique : List (String × String)) (steps : List Step)
    (h : ((run sort unique steps {}).members? link).isSome = true) :
    ∃ before writing later, steps = before ++ writing :: later ∧
      Writes sort unique (run sort unique before {}) writing link := by
  induction steps using List.reverseRecOn with
  | nil => cases h
  | append_singleton steps step ih =>
    rw [run_concat] at h
    rcases members?_after_eq_or_writes sort unique (run sort unique steps {}) step link with
      hsame | hwrites
    · obtain ⟨before, writing, later, rfl, hwrites⟩ := ih (hsame ▸ h)
      exact ⟨before, writing, later ++ [step], List.append_assoc .., hwrites⟩
    · exact ⟨steps, step, [], rfl, hwrites⟩

/-- Members that have an owner keep one until a query takes the last row of their key. -/
theorem Owned.run (h : Owned primaryKey store link) (steps : List Step)
    (hkeys : ∀ step ∈ steps, step.table = link.table → step.query.primaryKey = primaryKey) :
    Owned primaryKey (run sort unique steps store) link ∨
      ∃ between taking rest, steps = between ++ taking :: rest ∧
        Orphans sort unique (Store.run sort unique between store) taking link := by
  induction steps using List.reverseRecOn with
  | nil => exact .inl h
  | append_singleton steps step ih =>
    have hstep := hkeys step (List.mem_append_right _ (List.mem_singleton_self step))
    rcases ih fun step hstep => hkeys step (List.mem_append_left _ hstep) with
      howned | ⟨between, taking, rest, rfl, htakes⟩
    · rw [run_concat]
      by_cases hafter :
          Owned primaryKey ((Store.run sort unique steps store).after sort unique step) link
      · exact .inl hafter
      · obtain ⟨htable, htakes⟩ := (howned.after hstep).resolve_left hafter
        obtain rfl := hstep htable
        exact .inr ⟨steps, step, [], rfl, htable, howned, hafter, htakes⟩
    · exact .inr ⟨between, taking, rest ++ [step], List.append_assoc .., htakes⟩

/-- In a store that queries lead to, where those on one table name one primary key, all members
were stored for a row, and some row still has its key unless a later query took the last one. No
query takes members away, and only storing members changes them, so they outlive their rows. -/
theorem run_members_owned_or_orphaned (sort : RowSort) (unique : List (String × String))
    (primaryKey : TableId → String) (steps : List Step)
    (hkeys : ∀ step ∈ steps, step.query.primaryKey = primaryKey step.table)
    (h : ((run sort unique steps {}).members? link).isSome = true) :
    (∃ before writing later, steps = before ++ writing :: later ∧
      Writes sort unique (run sort unique before {}) writing link ∧
      (Owned (primaryKey link.table) (run sort unique steps {}) link ∨
        ∃ between taking rest, later = between ++ taking :: rest ∧
          Orphans sort unique (run sort unique (before ++ writing :: between) {}) taking link)) ∧
    ∀ step, (((run sort unique steps {}).after sort unique step).members? link).isSome = true ∧
      (step.query.method ≠ .replaceCollection →
        ((run sort unique steps {}).after sort unique step).members? link =
          (run sort unique steps {}).members? link) := by
  refine ⟨?_, fun step => ⟨isSome_members?_after sort unique step h,
    fun hm => members?_after_of_ne sort unique hm _ _⟩⟩
  obtain ⟨before, writing, later, rfl, hwrites⟩ := exists_writes_of_run sort unique steps h
  have hkey (step : Step) (hstep : step ∈ before ++ writing :: later)
      (htable : step.table = link.table) :
      step.query.primaryKey = primaryKey link.table :=
    htable ▸ hkeys step hstep
  have hrun (later : List Step) : run sort unique (before ++ writing :: later) {} =
      run sort unique later ((run sort unique before {}).after sort unique writing) :=
    List.foldl_append
  -- Storing members leaves the rows alone, so the row that was selected is an owner afterwards.
  have hwriting := hkey writing (List.mem_append_right _ List.mem_cons_self) hwrites.table
  refine ⟨before, writing, later, rfl, hwrites, ?_⟩
  simp only [hrun]
  refine (hwriting ▸ hwrites.owned).run later fun step hstep => ?_
  exact hkey step (List.mem_append_right _ (List.mem_cons_of_mem _ hstep))

private def toyQuery (method : Method) (newRecords : List Record) (values : Record) :
    PhysicalQuery where
  method := method
  table := "pets"
  identity := "pet"
  primaryKey := "id"
  newRecords := newRecords
  criteria := some (.obj ⟨[("where", .obj ⟨[("id", Json.nat 1)]⟩)]⟩)
  valuesToSet := some values

private def bornPet : Step := ⟨"default", toyQuery .create [⟨[("id", Json.nat 1)]⟩] {}⟩

/-- A pet gets a toy and is destroyed. -/
private def goneWithToy : List Step :=
  [bornPet, ⟨"default", toyQuery .replaceCollection [] ⟨[("toys", .arr [Json.nat 7])]⟩⟩,
    ⟨"default", toyQuery .destroy [] {}⟩]

private def toysOfPet : LinkId := ⟨⟨"default", "pets"⟩, "1", "toys"⟩

/-- The toy of the destroyed pet is left without an owner by the destroying query. -/
theorem run_members_owned_or_orphaned_gone_pet :
    (∀ step ∈ goneWithToy, step.query.primaryKey = "id") ∧
      ((run .inserting [] goneWithToy {}).members? toysOfPet).isSome = true ∧
      ∃ before writing later, goneWithToy = before ++ writing :: later ∧
        Writes .inserting [] (run .inserting [] before {}) writing toysOfPet ∧
        (Owned "id" (run .inserting [] goneWithToy {}) toysOfPet ∨
          ∃ between taking rest, later = between ++ taking :: rest ∧
            Orphans .inserting [] (run .inserting [] (before ++ writing :: between) {}) taking
              toysOfPet) :=
  have hkeys : ∀ step ∈ goneWithToy, step.query.primaryKey = "id" := by decide
  ⟨hkeys, rfl,
    (run_members_owned_or_orphaned .inserting [] (fun _ => "id") goneWithToy hkeys rfl).1⟩

/-- The toy has no owner, and a pet that is stored under the key of the destroyed one has it from
the start. -/
theorem toy_without_pet :
    (¬ ∀ (sort : RowSort) (unique : List (String × String)) (primaryKey : TableId → String)
      (steps : List Step),
      (∀ step ∈ steps, step.query.primaryKey = primaryKey step.table) →
      ∀ link, ((run sort unique steps {}).members? link).isSome = true →
        Owned (primaryKey link.table) (run sort unique steps {}) link) ∧
    ¬ ∀ (sort : RowSort) (unique : List (String × String)) (primaryKey : TableId → String)
      (steps : List Step),
      (∀ step ∈ steps, step.query.primaryKey = primaryKey step.table) →
      ∀ step row link, step.query.method = .create → step.query.newRecords = [row] →
        step.table = link.table → step.query.primaryKey = primaryKey step.table →
        HasKey step.query.primaryKey link.owner row →
        ¬ Owned (primaryKey link.table) (run sort unique steps {}) link →
        (run sort unique (steps ++ [step]) {}).members? link = none := by
  have hkeys : ∀ step ∈ goneWithToy, step.query.primaryKey = "id" := by decide
  have hgone : ¬ Owned "id" (run .inserting [] goneWithToy {}) toysOfPet := by
    rintro ⟨row, hrow, _⟩
    cases hrow
  constructor
  · intro h
    exact hgone (h .inserting [] (fun _ => "id") goneWithToy hkeys toysOfPet rfl)
  · intro h
    have hborn := h .inserting [] (fun _ => "id") goneWithToy hkeys bornPet ⟨[("id", Json.nat 1)]⟩
      toysOfPet rfl rfl rfl rfl rfl hgone
    cases hborn

end GraphRecords.Store
