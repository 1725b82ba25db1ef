import GraphRecords.Proofs.Store.Members
import GraphRecords.Proofs.Store.Steps

/-!
# What queries leave alone

No query changes the rows of another table than its own, and only storing members changes members.
Members that are stored stay stored.
-/

namespace GraphRecords.Store

variable {sort : RowSort} {unique : List (String × String)} {store next : Store} {link : LinkId}
variable {id : TableId} {query : PhysicalQuery} {result : Except AdapterError Answer}

private theorem members?_linkOwner_cases (id : TableId) (values : Record) (store : Store)
    (owner : Json) (link : LinkId) :
    (linkOwner id values store owner).members? link = store.members? link ∨
      (link.table = id ∧ link.owner = owner.render) ∧
        ((linkOwner id values store owner).members? link).isSome = true := by
  rw [linkOwner]
  induction values.entries generalizing store with
  | nil => exact .inl rfl
  | cons entry rest ih =>
    rw [List.foldl_cons]
    rcases ih (store.setMembers (linkId id owner entry.1) (entry.2.toArray?.getD [])) with he | hset
    · rw [he, members?_setMembers]
      split
      · rename_i hlink
        rw [hlink]
        exact .inr ⟨⟨rfl, rfl⟩, rfl⟩
      · exact .inl rfl
    · exact .inr hset

private theorem members?_replaceCollection_cases (id : TableId) (query : PhysicalQuery)
    (store : Store) (link : LinkId) :
    (store.replaceCollection id query).members? link = store.members? link ∨
      (link.table = id ∧ link.owner ∈ (store.owners id query).map Json.render) ∧
        ((store.replaceCollection id query).members? link).isSome = true := by
  rw [replaceCollection]
  induction store.owners id query generalizing store with
  | nil => exact .inl rfl
  | cons owner rest ih =>
    rw [List.foldl_cons, List.map_cons]
    rcases ih (linkOwner id (values query) store owner) with he | ⟨⟨htable, howner⟩, hsome⟩
    · rw [he]
      rcases members?_linkOwner_cases id (values query) store owner link with
        he | ⟨⟨htable, howner⟩, hsome⟩
      · exact .inl he
      · exact .inr ⟨⟨htable, howner ▸ List.mem_cons_self⟩, hsome⟩
    · exact .inr ⟨⟨htable, List.mem_cons_of_mem _ howner⟩, hsome⟩

private theorem Executes.rows_of_ne {other : TableId}
    (h : Executes sort unique id query store result next)
    (hother : other ≠ id) : next.rows other = store.rows other := by
  have hset (rows : List Record) : (store.setRows id rows).rows other = store.rows other :=
    (rows_setRows store id other rows).trans (if_neg hother)
  cases h with
  | creates | refuses | updates | destroys => exact hset _
  | finds | findsOne | counts | clashes => rfl
  | replaces => exact rows_replaceCollection id query store other

/-- The only query that changes members is one that stores some, for rows that it selects. -/
theorem Executes.members?_cases (h : Executes sort unique id query store result next)
    (link : LinkId) :
    next.members? link = store.members? link ∨
      query.method = .replaceCollection ∧ id = link.table ∧
        link.owner ∈ (store.owners id query).map Json.render ∧
          (next.members? link).isSome = true := by
  cases h with
  | creates | refuses | updates | destroys | finds | findsOne | counts | clashes => exact .inl rfl
  | replaces hm =>
    rcases members?_replaceCollection_cases id query store link with
      he | ⟨⟨htable, howner⟩, hsome⟩
    · exact .inl he
    · exact .inr ⟨hm, htable.symm, howner, hsome⟩

theorem rows_after_of_ne {step : Step} {other : TableId} (h : other ≠ step.table) :
    (store.after sort unique step).rows other = store.rows other :=
  (executes_after sort unique store step).rows_of_ne h

theorem isSome_members?_after (sort : RowSort) (unique : List (String × String)) (step : Step)
    (h : (store.members? link).isSome = true) :
    ((store.after sort unique step).members? link).isSome = true := by
  rcases (executes_after sort unique store step).members?_cases link with he | ⟨_, _, _, hsome⟩
  · rwa [he]
  · exact hsome

theorem members?_after_of_ne (sort : RowSort) (unique : List (String × String)) {step : Step}
    (h : step.query.method ≠ .replaceCollection) (store : Store) (link : LinkId) :
    (store.after sort unique step).members? link = store.members? link := by
  rcases (executes_after sort unique store step).members?_cases link with he | ⟨hm, _⟩
  · exact he
  · exact absurd hm h

end GraphRecords.Store
