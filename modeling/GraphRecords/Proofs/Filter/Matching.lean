import GraphRecords.Proofs.Dict.Entries
import GraphRecords.Query.Filter

/-!
# What filters ask for

The keys of a filter all have to hold, in whatever order they stand. A filter that is seen to ask
for no row holds for none.
-/

namespace GraphRecords.Filter

private theorem matchesAll_eq_all (row : Record) (entries : List (String × Json)) :
    matchesAll row entries = entries.all (fun entry => matchesKey row entry.1 entry.2) := by
  induction entries with
  | nil => rfl
  | cons entry rest ih => rw [matchesAll, List.all_cons, ih]

theorem matchesAll_ofList (row : Record) {entries : List (String × Json)}
    (h : (entries.map Prod.fst).Nodup) :
    matchesAll row (Dict.ofList entries).entries = matchesAll row entries := by
  rw [matchesAll_eq_all, matchesAll_eq_all]
  exact (Dict.ofList_perm h).all_eq

theorem matchesKey_eq_satisfies (row : Record) {key : String} (hand : key ≠ "and")
    (hor : key ≠ "or") (constraint : Json) :
    matchesKey row key constraint = satisfies (row.getD key) constraint := by
  cases constraint <;> simp [matchesKey, hand, hor]

theorem holdsFor_single (row : Record) {key : String} (hand : key ≠ "and") (hor : key ≠ "or")
    (constraint : Json) :
    holdsFor ⟨[(key, constraint)]⟩ row = satisfies (row.getD key) constraint := by
  rw [holdsFor, matchesAll, matchesAll, Bool.and_true, matchesKey_eq_satisfies row hand hor]

private theorem satisfies_of_in_nil (actual : Json) {modifiers : List (String × Json)}
    (h : Dict.lookup "in" modifiers = some (.arr [])) :
    satisfies actual (.obj ⟨modifiers⟩) = false := by
  rw [satisfies, List.all_eq_false]
  exact ⟨("in", .arr []), Dict.mem_of_lookup h, by simp [modifierHolds, Modifier.ofName?,
    Modifier.holds, Json.toArray?]⟩

section Never

variable (row : Record)

mutual

private theorem matchesAll_of_neverAny :
    ∀ entries : List (String × Json), neverAny entries = true → matchesAll row entries = false
  | [], h => by cases h
  | (key, constraint) :: rest, h => by
    rw [neverAny, Bool.or_eq_true] at h
    rw [matchesAll, Bool.and_eq_false_iff]
    exact h.imp (matchesKey_of_neverKey key constraint) (matchesAll_of_neverAny rest)

private theorem matchesKey_of_neverKey (key : String) :
    ∀ constraint : Json, neverKey key constraint = true → matchesKey row key constraint = false
  | .arr branches, h => by
    rw [neverKey] at h
    rw [matchesKey]
    split at h
    · rename_i hand
      rw [if_pos hand]
      exact everyBranch_of_neverSome branches h
    · rename_i hand
      split at h
      · rename_i hor
        rw [if_neg hand, if_pos hor]
        exact someBranch_of_neverEvery branches h
      · cases h
  | .obj ⟨modifiers⟩, h => by
    rw [neverKey] at h
    split at h
    · cases h
    · rename_i hkey
      obtain ⟨hand, hor⟩ := not_or.mp hkey
      split at h
      · rename_i hin
        rw [matchesKey_eq_satisfies row hand hor]
        exact satisfies_of_in_nil _ hin
      · cases h
  | .null, h | .bool _, h | .num _, h | .str _, h => by cases h

/-- Branches that are no dictionaries are left out on both sides: none of them is what makes an
`and` ask for nothing. -/
private theorem everyBranch_of_neverSome :
    ∀ branches : List Json, neverSome branches = true → everyBranch row branches = false
  | [], h => by cases h
  | .obj ⟨fields⟩ :: rest, h => by
    rw [neverSome, Bool.or_eq_true] at h
    rw [everyBranch, Bool.and_eq_false_iff]
    exact h.imp (matchesAll_of_neverAny fields) (everyBranch_of_neverSome rest)
  | .null :: rest, h | .bool _ :: rest, h | .num _ :: rest, h | .str _ :: rest, h
  | .arr _ :: rest, h => by
    rw [everyBranch]
    · exact everyBranch_of_neverSome rest h
    · nofun

/-- Every branch of such an `or` is a dictionary: any other counts as one that may hold. -/
private theorem someBranch_of_neverEvery :
    ∀ branches : List Json, neverEvery branches = true → someBranch row branches = false
  | [], _ => rfl
  | .obj ⟨fields⟩ :: rest, h => by
    rw [neverEvery, Bool.and_eq_true] at h
    rw [someBranch, matchesAll_of_neverAny fields h.1, someBranch_of_neverEvery rest h.2,
      Bool.or_false]
  | .null :: _, h | .bool _ :: _, h | .num _ :: _, h | .str _ :: _, h | .arr _ :: _, h => by cases h

end

theorem holdsFor_of_isNever {filter : Record} (h : isNever filter = true) :
    holdsFor filter row = false := matchesAll_of_neverAny row filter.entries h

end Never

end GraphRecords.Filter
