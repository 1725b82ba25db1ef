import GraphRecords.Json.Basic

/-!
# Sorting rows

How rows are sorted is left open as far as it does not follow from the comparison. Where that is a
total preorder among the rows, they come out in order, and those that compare alike as they stood.
Where it is none, they come out rearranged in some way, the same for the same rows, if the sort
comes to an end at all: what is said of sorted rows there is said of a sort that does.
-/

namespace GraphRecords

/-- How a row compares to another one. -/
abbrev RowOrder := Record → Record → Ordering

namespace RowOrder

/-- Among the rows the comparison is a total preorder. -/
structure Preorders (order : RowOrder) (rows : List Record) : Prop where
  swap (a : Record) (ha : a ∈ rows) (b : Record) (hb : b ∈ rows) : order a b = (order b a).swap
  trans (a : Record) (ha : a ∈ rows) (b : Record) (hb : b ∈ rows) (c : Record) (hc : c ∈ rows)
    (hab : (order a b).isLE = true) (hbc : (order b c).isLE = true) : (order a c).isLE = true

/-- Of two rows with their places the first goes before the second: it does not compare greater, and
if the two compare alike, it was before it. -/
def Precedes (order : RowOrder) (a b : Record × Nat) : Prop :=
  order a.1 b.1 ≠ .gt ∧ (order a.1 b.1 = .eq → a.2 < b.2)

/-- The rows rearranged, so that none compares greater than a later one and those that compare
alike keep their order. -/
def Sorts (order : RowOrder) (rows sorted : List Record) : Prop :=
  ∃ placed : List (Record × Nat), placed.Perm rows.zipIdx ∧ placed.map Prod.fst = sorted ∧
    placed.Pairwise order.Precedes

theorem Precedes.asymm {order : RowOrder} [Std.OrientedCmp order] {a b : Record × Nat}
    (hab : order.Precedes a b) : ¬ order.Precedes b a := by
  intro hba
  have hswap : order b.1 a.1 = (order a.1 b.1).swap := Std.OrientedCmp.eq_swap
  rw [Precedes, hswap] at hba
  cases hcompare : order a.1 b.1 with
  | lt => exact hba.1 (by rw [hcompare]; rfl)
  | gt => exact hab.1 hcompare
  | eq => exact Nat.lt_asymm (hab.2 hcompare) (hba.2 (by rw [hcompare]; rfl))

/-- Rows are sorted in one way only. -/
theorem Sorts.unique {order : RowOrder} [Std.OrientedCmp order] {rows sorted other : List Record}
    (h : order.Sorts rows sorted) (hother : order.Sorts rows other) : sorted = other := by
  obtain ⟨placed, hperm, rfl, hsorted⟩ := h
  obtain ⟨placed', hperm', rfl, hsorted'⟩ := hother
  have hsame : placed = placed' := by
    apply List.Perm.eq_of_pairwise ?_ hsorted hsorted' (hperm.trans hperm'.symm)
    intro a b _ _ hab hba
    exact absurd hba hab.asymm
  rw [hsame]

private theorem pairwise_zipIdx (rows : List Record) (first : Nat) :
    (rows.zipIdx first).Pairwise (fun a b => a.2 < b.2) := by
  rw [← List.pairwise_map (f := Prod.snd) (R := (· < ·)), List.zipIdx_map_snd]
  exact List.pairwise_lt_range'

/-- Rows that all compare alike are sorted as they stand. -/
theorem sorts_self_of_alike {order : RowOrder} (halike : ∀ a b, order a b = .eq)
    (rows : List Record) : order.Sorts rows rows := by
  refine ⟨rows.zipIdx, .refl _, List.zipIdx_map_fst .., (pairwise_zipIdx rows 0).imp ?_⟩
  intro a b hplace
  rw [Precedes, halike]
  exact ⟨nofun, fun _ => hplace⟩

end RowOrder

/-- A sort of rows by any comparison. -/
structure RowSort where
  sort : RowOrder → List Record → List Record
  perm (order : RowOrder) (rows : List Record) : (sort order rows).Perm rows
  sorts (order : RowOrder) (rows : List Record) (h : order.Preorders rows) :
    order.Sorts rows (sort order rows)

namespace RowSort

/-- Puts an item behind all that it is not less than. The items stand from the last to the first. -/
def insertBack {α : Type} (less : α → α → Bool) (item : α) : List α → List α
  | [] => [item]
  | last :: rest =>
      if less item last then last :: insertBack less item rest else item :: last :: rest

/-- The items put behind others one after another, from the last to the first. -/
def insertAll {α : Type} (less : α → α → Bool) (items sorted : List α) : List α :=
  items.foldl (fun sorted item => insertBack less item sorted) sorted

variable {α β : Type}

private theorem insertBack_perm (less : α → α → Bool) (item : α) (sorted : List α) :
    (insertBack less item sorted).Perm (item :: sorted) := by
  induction sorted with
  | nil => exact .refl _
  | cons last rest ih =>
    rw [insertBack]
    split
    · exact (ih.cons last).trans (.swap item last rest)
    · exact .refl _

private theorem insertAll_perm (less : α → α → Bool) (items sorted : List α) :
    (insertAll less items sorted).Perm (items ++ sorted) := by
  induction items generalizing sorted with
  | nil => exact .refl _
  | cons item rest ih =>
    have hitem := (insertBack_perm less item sorted).append_left rest
    exact (ih _).trans (hitem.trans List.perm_middle)

private theorem map_insertBack (less : α → α → Bool) (f : β → α) (item : β) (sorted : List β) :
    (insertBack (fun a b => less (f a) (f b)) item sorted).map f =
      insertBack less (f item) (sorted.map f) := by
  induction sorted with
  | nil => rfl
  | cons last rest ih =>
    rw [List.map_cons, insertBack, insertBack]
    split
    · rw [List.map_cons, ih]
    · rfl

private theorem map_insertAll (less : α → α → Bool) (f : β → α) (items sorted : List β) :
    (insertAll (fun a b => less (f a) (f b)) items sorted).map f =
      insertAll less (items.map f) (sorted.map f) := by
  induction items generalizing sorted with
  | nil => rfl
  | cons item rest ih =>
    have hitem := map_insertBack less f item sorted
    exact (ih _).trans (congrArg (insertAll less (rest.map f)) hitem)

variable {order : RowOrder} {rows : List Record}

/-- A row behind those that stand in order, with a later place than any of them. -/
private theorem pairwise_insertBack (h : order.Preorders rows) {placed : Record × Nat}
    (hplaced : placed.1 ∈ rows) {sorted : List (Record × Nat)}
    (hsorted : sorted.Pairwise (fun a b => order.Precedes b a))
    (hbehind : ∀ a ∈ sorted, a.1 ∈ rows ∧ a.2 < placed.2) :
    (insertBack (fun a b => order a.1 b.1 == .lt) placed sorted).Pairwise
      (fun a b => order.Precedes b a) := by
  induction sorted with
  | nil => exact List.pairwise_singleton _ _
  | cons last rest ih =>
    obtain ⟨hlast, hrest⟩ := List.pairwise_cons.mp hsorted
    obtain ⟨hbefore, hothers⟩ := List.forall_mem_cons.mp hbehind
    rw [insertBack]
    split
    · rename_i hless
      have hless : order placed.1 last.1 = .lt := eq_of_beq hless
      refine List.pairwise_cons.mpr ⟨fun a ha => ?_, ih hrest hothers⟩
      rcases List.mem_cons.mp ((insertBack_perm _ placed rest).mem_iff.mp ha) with rfl | ha
      · simp [RowOrder.Precedes, hless]
      · exact hlast a ha
    · rename_i hless
      have hle : (order last.1 placed.1).isLE = true := by
        rw [h.swap last.1 hbefore.1 placed.1 hplaced]
        cases hcompare : order placed.1 last.1 <;> simp_all
      refine List.pairwise_cons.mpr ⟨fun a ha => ⟨?_, fun _ => (hbehind a ha).2⟩, hsorted⟩
      apply Ordering.ne_gt_iff_isLE.mpr
      rcases List.mem_cons.mp ha with rfl | ha
      · exact hle
      · exact h.trans a.1 (hothers a ha).1 last.1 hbefore.1 placed.1 hplaced
          (Ordering.ne_gt_iff_isLE.mp (hlast a ha).1) hle

private theorem pairwise_insertAll (h : order.Preorders rows) {items sorted : List (Record × Nat)}
    (hitems : items.Pairwise (fun a b => a.2 < b.2)) (hrows : ∀ a ∈ items, a.1 ∈ rows)
    (hsorted : sorted.Pairwise (fun a b => order.Precedes b a))
    (hbehind : ∀ a ∈ sorted, a.1 ∈ rows ∧ ∀ b ∈ items, a.2 < b.2) :
    (insertAll (fun a b => order a.1 b.1 == .lt) items sorted).Pairwise
      (fun a b => order.Precedes b a) := by
  induction items generalizing sorted with
  | nil => exact hsorted
  | cons placed rest ih =>
    obtain ⟨hfirst, hrest⟩ := List.pairwise_cons.mp hitems
    obtain ⟨hplaced, hrows⟩ := List.forall_mem_cons.mp hrows
    refine ih hrest hrows ?_ ?_
    · refine pairwise_insertBack h hplaced hsorted fun a ha => ?_
      exact ⟨(hbehind a ha).1, (hbehind a ha).2 placed List.mem_cons_self⟩
    · intro a ha
      rcases List.mem_cons.mp ((insertBack_perm _ placed sorted).mem_iff.mp ha) with rfl | ha
      · exact ⟨hplaced, hfirst⟩
      · exact ⟨(hbehind a ha).1, fun b hb => (hbehind a ha).2 b (List.mem_cons_of_mem _ hb)⟩

/-- Each row in turn goes in front of the rows before it that it is less than, up to the first that
it is not. -/
def inserting : RowSort where
  sort order rows := (insertAll (fun a b => order a b == .lt) rows []).reverse
  perm order rows := by
    have hperm := insertAll_perm (fun a b => order a b == .lt) rows []
    rw [List.append_nil] at hperm
    exact (List.reverse_perm _).trans hperm
  sorts order rows h := by
    refine ⟨(insertAll (fun a b => order a.1 b.1 == .lt) rows.zipIdx []).reverse, ?_, ?_, ?_⟩
    · have hperm := insertAll_perm (fun a b => order a.1 b.1 == .lt) rows.zipIdx []
      rw [List.append_nil] at hperm
      exact (List.reverse_perm _).trans hperm
    · have hmap := map_insertAll (fun a b => order a b == .lt) Prod.fst rows.zipIdx []
      rw [List.map_reverse, hmap, List.zipIdx_map_fst]
      rfl
    · rw [List.pairwise_reverse]
      exact pairwise_insertAll h (RowOrder.pairwise_zipIdx rows 0)
        (fun _ ha => List.fst_mem_of_mem_zipIdx ha) .nil (List.forall_mem_nil _)

end RowSort

end GraphRecords
