import GraphRecords.Hook.Fanout
import GraphRecords.Proofs.Outcome
import Mathlib.Data.List.Perm.Basic
import Mathlib.Data.List.Sort

/-!
# Runs of a hook on many records

Moves may come in any order. Each record is taken up by one move and given back by another, and its
position goes with it, so a run that no failure ends gives back all records in their first order.
A run that a failure ends has the failure of one of the records. All runs come to an end.
-/

namespace GraphRecords.Fanout

variable {hook : Hook} {bound : Nat} {state next : Fanout}

/-- What a move does: a call starts, or one in flight settles, with a record or a failure. -/
inductive Moves (hook : Hook) (bound : Nat) (state : Fanout) : Fanout → Prop
  | starts {position : Nat} {record : Record} {rest : List (Nat × Record)}
      (hfailure : state.failure = none) (hwaiting : state.waiting = (position, record) :: rest)
      (hbound : state.inFlight.length < max 1 bound) :
      Moves hook bound state { state with
        waiting := rest
        inFlight := state.inFlight ++ [(position, hook record)]
        report := state.report.merge ⟨1, state.inFlight.length + 1⟩ }
  | settles {place position : Nat} {call : HookCall} {record : Record}
      (hfailure : state.failure = none)
      (hcall : state.inFlight[place]? = some (position, call))
      (hresult : call.result = .ok record) :
      Moves hook bound state { state with
        inFlight := state.inFlight.eraseIdx place
        settled := state.settled ++ [(position, record)] }
  | fails {place position : Nat} {call : HookCall} {failure : HookError}
      (hfailure : state.failure = none)
      (hcall : state.inFlight[place]? = some (position, call))
      (hresult : call.result = .error failure) :
      Moves hook bound state { state with inFlight := [], failure := some failure }

private theorem moves_of_move? {move : Move} (h : state.move? hook bound move = some next) :
    Moves hook bound state next := by
  cases move with
  | start =>
    simp only [move?, start?] at h
    split at h
    · rename_i position record rest hfailure hwaiting
      split at h
      · rename_i hbound
        cases h
        exact .starts hfailure hwaiting hbound
      · cases h
    · cases h
  | settle place =>
    simp only [move?, settle?] at h
    split at h
    · rename_i position call hfailure hcall
      split at h
      · rename_i record hresult
        cases h
        exact .settles hfailure hcall hresult
      · rename_i failure hresult
        cases h
        exact .fails hfailure hcall hresult
    · cases h

/-- The state after moves, each of them possible where it comes. -/
def play? (hook : Hook) (bound : Nat) (state : Fanout) : List Move → Option Fanout
  | [] => some state
  | move :: rest => (state.move? hook bound move).bind (fun next => next.play? hook bound rest)

/-- Nothing can happen any more. -/
def Done (hook : Hook) (bound : Nat) (state : Fanout) : Prop :=
  ∀ move, state.move? hook bound move = none

/-- The moves that are left, unless one of them fails. -/
def remaining (state : Fanout) : Nat :=
  if state.failure.isSome then 0 else 2 * state.waiting.length + state.inFlight.length

theorem remaining_ofRecords (records : List Record) :
    (ofRecords records).remaining = 2 * records.length := by
  simp [remaining, ofRecords]

private theorem Moves.remaining_lt (h : Moves hook bound state next) :
    next.remaining < state.remaining := by
  cases h with
  | starts hfailure hwaiting _ =>
    simp only [remaining, hfailure, hwaiting, Option.isSome_none, Bool.false_eq_true, if_false,
      List.length_append, List.length_cons, List.length_nil]
    omega
  | settles hfailure hcall _ =>
    obtain ⟨hplace, _⟩ := List.getElem?_eq_some_iff.mp hcall
    simp only [remaining, hfailure, Option.isSome_none, Bool.false_eq_true, if_false,
      List.length_eraseIdx_of_lt hplace]
    omega
  | fails hfailure hcall _ =>
    obtain ⟨hplace, _⟩ := List.getElem?_eq_some_iff.mp hcall
    simp only [remaining, hfailure, Option.isSome_some, Option.isSome_none, Bool.false_eq_true,
      if_true, if_false]
    omega

theorem length_le_of_play? {moves : List Move} {last : Fanout}
    (h : state.play? hook bound moves = some last) :
    moves.length + last.remaining ≤ state.remaining := by
  induction moves generalizing state with
  | nil =>
    cases h
    simp
  | cons move rest ih =>
    obtain ⟨next, hmove, hrest⟩ := Option.bind_eq_some_iff.mp h
    have hlt := (moves_of_move? hmove).remaining_lt
    have hle := ih hrest
    rw [List.length_cons]
    omega

private theorem settle?_isSome (hfailure : state.failure = none) {place : Nat}
    (hplace : place < state.inFlight.length) : (state.settle? place).isSome = true := by
  have hcall : state.inFlight[place]? = some state.inFlight[place] :=
    List.getElem?_eq_getElem hplace
  unfold settle?
  rw [hfailure, hcall]
  dsimp only
  split <;> rfl

private theorem start?_isSome (hook : Hook) (hfailure : state.failure = none) {entry : Nat × Record}
    {rest : List (Nat × Record)} (hwaiting : state.waiting = entry :: rest)
    (hbound : state.inFlight.length < max 1 bound) : (state.start? hook bound).isSome = true := by
  simp [start?, hfailure, hwaiting, hbound]

private theorem done_of_failed {failure : HookError} (h : state.failure = some failure) :
    state.Done hook bound := by
  intro move
  cases move <;> simp [move?, start?, settle?, h]

theorem done_of_empty (hwaiting : state.waiting = []) (hflight : state.inFlight = []) :
    state.Done hook bound := by
  intro move
  cases move with
  | start =>
    simp only [move?, start?, hwaiting]
    cases state.failure <;> rfl
  | settle place =>
    simp only [move?, settle?, hflight, List.getElem?_nil]
    cases state.failure <;> rfl

/-- Where nothing can happen any more and nothing has failed, all calls have been made and have
settled: with none in flight, the bound keeps no call from starting. -/
theorem Done.empty (h : state.Done hook bound) (hfailure : state.failure = none) :
    state.waiting = [] ∧ state.inFlight = [] := by
  have hflight : state.inFlight = [] := by
    by_contra hne
    have hsome := settle?_isSome hfailure (List.length_pos_iff.mpr hne)
    rw [show state.settle? 0 = none from h (.settle 0)] at hsome
    cases hsome
  refine ⟨?_, hflight⟩
  cases hwaiting : state.waiting with
  | nil => rfl
  | cons entry rest =>
    have hbound : state.inFlight.length < max 1 bound := by
      rw [hflight, List.length_nil]
      omega
    have hsome := start?_isSome hook hfailure hwaiting hbound
    rw [show state.start? hook bound = none from h .start] at hsome
    cases hsome

/-- How far calls on records have come. The first records of the batch have been called on, each
once. What is in flight or given back goes with the position of its record, and the positions are
those of the records called on, unless a failure has dropped some. -/
structure Sound (hook : Hook) (bound : Nat) (records : List Record) (state : Fanout) : Prop where
  waiting : state.waiting = (ofRecords records).waiting.drop state.report.calls
  calls_le : state.report.calls ≤ records.length
  inFlight_le : state.inFlight.length ≤ max 1 bound
  peak_le : state.report.peak ≤ max 1 bound
  called (entry : Nat × HookCall) (h : entry ∈ state.inFlight) :
    ∃ record, records[entry.1]? = some record ∧ entry.2 = hook record
  settled (entry : Nat × Record) (h : entry ∈ state.settled) :
    ∃ record, records[entry.1]? = some record ∧ (hook record).result = .ok entry.2
  positions (h : state.failure = none) :
    (state.settled.map Prod.fst ++ state.inFlight.map Prod.fst).Perm
      (List.range state.report.calls)
  failed (failure : HookError) (h : state.failure = some failure) :
    ∃ record ∈ records, (hook record).result = .error failure

variable {records : List Record}

theorem sound_ofRecords (hook : Hook) (bound : Nat) (records : List Record) :
    Sound hook bound records (ofRecords records) where
  waiting := rfl
  calls_le := Nat.zero_le _
  inFlight_le := Nat.zero_le _
  peak_le := Nat.zero_le _
  called := nofun
  settled := nofun
  positions _ := .nil
  failed := nofun

private theorem waiting_cons {calls position : Nat} {record : Record} {rest : List (Nat × Record)}
    (h : (ofRecords records).waiting.drop calls = (position, record) :: rest) :
    position = calls ∧ records[calls]? = some record ∧
      rest = (ofRecords records).waiting.drop (calls + 1) := by
  have hhead : (ofRecords records).waiting[calls]? = some (position, record) := by
    rw [← List.head?_drop, h, List.head?_cons]
  have hrest : rest = (ofRecords records).waiting.drop (calls + 1) := by
    rw [← List.tail_drop, h, List.tail_cons]
  simp only [ofRecords, List.getElem?_map, List.getElem?_zipIdx, Option.map_map] at hhead
  obtain ⟨found, hfound, heq⟩ := Option.map_eq_some_iff.mp hhead
  simp only [Function.comp_apply, Nat.zero_add, Prod.swap_prod_mk, Prod.mk.injEq] at heq
  obtain ⟨rfl, rfl⟩ := heq
  exact ⟨rfl, hfound, hrest⟩

private theorem Sound.starts (h : Sound hook bound records state) {position : Nat} {record : Record}
    {rest : List (Nat × Record)} (hwaiting : state.waiting = (position, record) :: rest)
    (hbound : state.inFlight.length < max 1 bound) :
    Sound hook bound records { state with
      waiting := rest
      inFlight := state.inFlight ++ [(position, hook record)]
      report := state.report.merge ⟨1, state.inFlight.length + 1⟩ } := by
  obtain ⟨rfl, hrecord, hrest⟩ := waiting_cons (h.waiting.symm.trans hwaiting)
  obtain ⟨hlt, _⟩ := List.getElem?_eq_some_iff.mp hrecord
  exact {
    waiting := hrest
    calls_le := hlt
    inFlight_le := by
      simp only [List.length_append, List.length_singleton]
      omega
    peak_le := by
      have hpeak := h.peak_le
      simp only [HookReport.merge]
      omega
    called := by
      intro entry hentry
      rcases List.mem_append.mp hentry with hentry | hentry
      · exact h.called entry hentry
      · rw [List.mem_singleton.mp hentry]
        exact ⟨record, hrecord, rfl⟩
    settled := h.settled
    positions := by
      intro hfailure
      simp only [HookReport.merge, List.range_succ, List.map_append, ← List.append_assoc]
      exact (h.positions hfailure).append_right _
    failed := h.failed }

private theorem Sound.settles (h : Sound hook bound records state) {place position : Nat}
    {call : HookCall} {record : Record} (hcall : state.inFlight[place]? = some (position, call))
    (hresult : call.result = .ok record) :
    Sound hook bound records { state with
      inFlight := state.inFlight.eraseIdx place
      settled := state.settled ++ [(position, record)] } where
  waiting := h.waiting
  calls_le := h.calls_le
  inFlight_le := Nat.le_trans (List.length_eraseIdx_le _ _) h.inFlight_le
  peak_le := h.peak_le
  called entry hentry := h.called entry (List.mem_of_mem_eraseIdx hentry)
  settled entry hentry := by
    rcases List.mem_append.mp hentry with hentry | hentry
    · exact h.settled entry hentry
    · obtain ⟨given, hgiven, hmade⟩ := h.called _ (List.mem_of_getElem? hcall)
      rw [List.mem_singleton.mp hentry]
      exact ⟨given, hgiven, (congrArg HookCall.result hmade).symm.trans hresult⟩
  positions hfailure := by
    obtain ⟨hplace, hat⟩ := List.getElem?_eq_some_iff.mp hcall
    have htaken := (List.getElem_cons_eraseIdx_perm hplace).map Prod.fst
    rw [hat, List.map_cons] at htaken
    rw [List.map_append, List.append_assoc]
    exact (htaken.append_left _).trans (h.positions hfailure)
  failed := h.failed

private theorem Sound.fails (h : Sound hook bound records state) {place position : Nat}
    {call : HookCall} {failure : HookError} (hcall : state.inFlight[place]? = some (position, call))
    (hresult : call.result = .error failure) :
    Sound hook bound records { state with inFlight := [], failure := some failure } where
  waiting := h.waiting
  calls_le := h.calls_le
  inFlight_le := Nat.zero_le _
  peak_le := h.peak_le
  called := nofun
  settled := h.settled
  positions := nofun
  failed := by
    rintro _ ⟨⟩
    obtain ⟨record, hrecord, hmade⟩ := h.called _ (List.mem_of_getElem? hcall)
    exact ⟨record, List.mem_of_getElem? hrecord,
      (congrArg HookCall.result hmade).symm.trans hresult⟩

theorem Sound.moves (h : Sound hook bound records state) (hmoves : Moves hook bound state next) :
    Sound hook bound records next := by
  cases hmoves with
  | starts _ hwaiting hbound => exact h.starts hwaiting hbound
  | settles _ hcall hresult => exact h.settles hcall hresult
  | fails _ hcall hresult => exact h.fails hcall hresult

theorem Sound.play? (h : Sound hook bound records state) {moves : List Move} {last : Fanout}
    (hplay : state.play? hook bound moves = some last) : Sound hook bound records last := by
  induction moves generalizing state with
  | nil =>
    cases hplay
    exact h
  | cons move rest ih =>
    obtain ⟨next, hmove, hrest⟩ := Option.bind_eq_some_iff.mp hplay
    exact ih (h.moves (moves_of_move? hmove)) hrest

private theorem map_fst_mergeSort {settled : List (Nat × Record)} {count : Nat}
    (h : (settled.map Prod.fst).Perm (List.range count)) :
    (settled.mergeSort (fun a b => a.1 ≤ b.1)).map Prod.fst = List.range count := by
  have hsorted : (settled.mergeSort (fun a b => a.1 ≤ b.1)).Pairwise
      (fun a b => decide (a.1 ≤ b.1) = true) := by
    apply List.pairwise_mergeSort
    · intro a b c hab hbc
      simp only [decide_eq_true_eq] at hab hbc ⊢
      exact Nat.le_trans hab hbc
    · intro a b
      simp only [Bool.or_eq_true, decide_eq_true_eq]
      exact Nat.le_total a.1 b.1
  refine List.Perm.eq_of_pairwise (fun a b _ _ (hab : a ≤ b) hba => Nat.le_antisymm hab hba)
    ?_ ?_ ?_
  · exact List.pairwise_map.mpr (hsorted.imp fun hab => of_decide_eq_true hab)
  · exact List.pairwise_lt_range.imp Nat.le_of_lt
  · exact ((List.mergeSort_perm settled _).map Prod.fst).trans h

/-- What is given back once all calls have settled is what the calls make of the records. -/
theorem Sound.mapM_eq_ok (h : Sound hook bound records state) (hfailure : state.failure = none)
    (hwaiting : state.waiting = []) (hflight : state.inFlight = []) :
    state.report.calls = records.length ∧
      records.mapM (fun record => (hook record).result) =
        .ok ((state.settled.mergeSort (fun a b => a.1 ≤ b.1)).map Prod.snd) := by
  have hcalls : state.report.calls = records.length := by
    have hlength := congrArg List.length (h.waiting.symm.trans hwaiting)
    have hle := h.calls_le
    simp only [ofRecords, List.length_drop, List.length_map, List.length_zipIdx,
      List.length_nil] at hlength
    omega
  refine ⟨hcalls, Outcome.mapM_eq_ok_iff.mpr ?_⟩
  have hpositions := h.positions hfailure
  rw [hflight, List.map_nil, List.append_nil, hcalls] at hpositions
  have hsorted := map_fst_mergeSort hpositions
  have hmem (entry : Nat × Record)
      (hentry : entry ∈ state.settled.mergeSort (fun a b => a.1 ≤ b.1)) :=
    h.settled entry (List.mem_mergeSort.mp hentry)
  generalize state.settled.mergeSort (fun a b => a.1 ≤ b.1) = batch at hsorted hmem ⊢
  have hlength : batch.length = records.length := by
    rw [← List.length_map (f := Prod.fst), hsorted, List.length_range]
  apply List.forall₂_iff_get.mpr
  refine ⟨by rw [List.length_map, hlength], ?_⟩
  intro i hi hbatch
  rw [List.length_map] at hbatch
  have hposition : batch[i].1 = i := by
    have hat := List.getElem_of_eq hsorted (by rwa [List.length_map])
    rwa [List.getElem_map, List.getElem_range] at hat
  obtain ⟨record, hrecord, hresult⟩ := hmem batch[i] (List.getElem_mem hbatch)
  rw [hposition, List.getElem?_eq_getElem hi] at hrecord
  cases hrecord
  simpa using hresult

/-- Where nothing can happen any more, either no call failed and the calls made of the batch what
they make of each record, or the failure of one of the records is the outcome. -/
theorem Sound.outcome (h : Sound hook bound records state) (hdone : state.Done hook bound) :
    (∃ changed, records.mapM (fun record => (hook record).result) = .ok changed ∧
      state.outcome = .ok changed ∧ state.report.calls = records.length) ∨
    ∃ record ∈ records, ∃ failure, (hook record).result = .error failure ∧
      state.outcome = .error failure := by
  unfold Fanout.outcome
  cases hfailure : state.failure with
  | none =>
    obtain ⟨hwaiting, hflight⟩ := hdone.empty hfailure
    obtain ⟨hcalls, hmade⟩ := h.mapM_eq_ok hfailure hwaiting hflight
    exact .inl ⟨_, hmade, rfl, hcalls⟩
  | some failure =>
    obtain ⟨record, hrecord, hfailed⟩ := h.failed failure hfailure
    exact .inr ⟨record, hrecord, failure, hfailed, rfl⟩

/-- The schedule only comes to an end where nothing can happen any more. -/
private theorem done_of_next? (h : (state.next? bound).bind (state.move? hook bound) = none) :
    state.Done hook bound := by
  cases hfailure : state.failure with
  | some failure => exact done_of_failed hfailure
  | none =>
    have hsettle {place : Nat} (hplace : place < state.inFlight.length)
        (hnone : state.settle? place = none) : False := by
      have hsome := settle?_isSome hfailure hplace
      rw [hnone] at hsome
      cases hsome
    unfold next? at h
    split at h
    · rename_i place hplace
      obtain ⟨hlt, _⟩ := List.findIdx?_eq_some_iff_getElem.mp hplace
      exact absurd h (hsettle hlt)
    · split at h
      · rename_i hstart
        simp only [Bool.and_eq_true, decide_eq_true_eq] at hstart
        cases hwaiting : state.waiting with
        | nil => simp [hwaiting] at hstart
        | cons entry rest =>
          have hsome := start?_isSome hook hfailure hwaiting hstart.2
          rw [show state.start? hook bound = none from h] at hsome
          cases hsome
      · rename_i hstart
        split at h
        · rename_i hempty
          have hflight : state.inFlight = [] := List.isEmpty_iff.mp hempty
          apply done_of_empty _ hflight
          simpa [hflight] using hstart
        · rename_i hflying
          exact absurd h (hsettle (List.length_pos_iff.mpr (by simpa using hflying)))

private theorem done_of_remaining_eq_zero (h : state.remaining = 0) : state.Done hook bound := by
  cases hfailure : state.failure with
  | some failure => exact done_of_failed hfailure
  | none =>
    simp only [remaining, hfailure, Option.isSome_none, Bool.false_eq_true, if_false] at h
    exact done_of_empty (List.length_eq_zero_iff.mp (by omega))
      (List.length_eq_zero_iff.mp (by omega))

/-- Following the schedule is a run like any other, and a complete one if enough moves are given. -/
theorem exists_play?_eq_follow {moves : Nat} (hmoves : state.remaining ≤ moves) :
    ∃ played, state.play? hook bound played = some (state.follow hook bound moves) ∧
      (state.follow hook bound moves).Done hook bound := by
  induction moves generalizing state with
  | zero => exact ⟨[], rfl, done_of_remaining_eq_zero (Nat.le_zero.mp hmoves)⟩
  | succ moves ih =>
    rw [follow]
    cases hnext : (state.next? bound).bind (state.move? hook bound) with
    | none => exact ⟨[], rfl, done_of_next? hnext⟩
    | some next =>
      obtain ⟨move, _, hmove⟩ := Option.bind_eq_some_iff.mp hnext
      have hlt := (moves_of_move? hmove).remaining_lt
      obtain ⟨played, hplayed, hdone⟩ := ih (Nat.le_of_lt_succ (Nat.lt_of_lt_of_le hlt hmoves))
      exact ⟨move :: played, Option.bind_eq_some_iff.mpr ⟨next, hmove, hplayed⟩, hdone⟩

theorem exists_play?_eq_run (hook : Hook) (bound : Nat) (records : List Record) :
    ∃ played, (ofRecords records).play? hook bound played = some (run hook bound records) ∧
      (run hook bound records).Done hook bound :=
  exists_play?_eq_follow (Nat.le_of_eq (remaining_ofRecords records))

theorem length_of_outcome {records changed : List Record}
    (h : (run hook bound records).outcome = .ok changed) : changed.length = records.length := by
  obtain ⟨played, hplayed, hdone⟩ := exists_play?_eq_run hook bound records
  rcases ((sound_ofRecords hook bound records).play? hplayed).outcome hdone with
    ⟨made, hmade, houtcome, _⟩ | ⟨_, _, failure, _, houtcome⟩
  · cases h.symm.trans houtcome
    exact (Outcome.mapM_eq_ok_iff.mp hmade).length_eq.symm
  · cases h.symm.trans houtcome

end GraphRecords.Fanout
