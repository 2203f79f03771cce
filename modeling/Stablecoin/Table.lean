/-!
# Tables

A finite map as the list of its entries in ascending key order. The order is part of the type, so a
table is determined by what `get?` finds in it: `Table.ext_get?`.
-/
namespace Stablecoin

/-- Pairs are ordered by their first component, then by their second. -/
instance ordPair {κ₁ κ₂ : Type} [Ord κ₁] [Ord κ₂] : Ord (κ₁ × κ₂) := lexOrd

/-- A finite map from `κ` to `α`. -/
structure Table (κ : Type) (α : Type) [Ord κ] where
  entries : List (κ × α)
  ascending : entries.Pairwise (fun a b => compare a.1 b.1 = .lt) := by simp

namespace Table

variable {κ α : Type} [Ord κ]

def empty : Table κ α where
  entries := []

instance : EmptyCollection (Table κ α) := ⟨empty⟩
instance : Inhabited (Table κ α) := ⟨empty⟩

instance [DecidableEq κ] [DecidableEq α] : DecidableEq (Table κ α) := fun ⟨t, _⟩ ⟨u, _⟩ =>
  decidable_of_iff (t = u) (by simp)

def lookup (key : κ) : List (κ × α) → Option α
  | [] => none
  | (k, a) :: rest => if compare key k = .eq then some a else lookup key rest

def get? (t : Table κ α) (key : κ) : Option α := lookup key t.entries

def values (t : Table κ α) : List α := t.entries.map Prod.snd

/-- The entries with `key` bound to `value`. -/
def place (key : κ) (value : α) : List (κ × α) → List (κ × α)
  | [] => [(key, value)]
  | (k, a) :: rest =>
    match compare key k with
    | .lt => (key, value) :: (k, a) :: rest
    | .eq => (key, value) :: rest
    | .gt => (k, a) :: place key value rest

def remove (key : κ) (entries : List (κ × α)) : List (κ × α) :=
  entries.filter fun e => compare key e.1 ≠ .eq

theorem mem_place {key : κ} {value : α} {entries : List (κ × α)} {e : κ × α}
    (member : e ∈ place key value entries) : e = (key, value) ∨ e ∈ entries := by
  induction entries with
  | nil => simpa [place] using member
  | cons first rest ih =>
    unfold place at member
    split at member
    · simpa using member
    · rcases List.mem_cons.mp member with same | inRest
      · exact .inl same
      · exact .inr (List.mem_cons_of_mem _ inRest)
    · rcases List.mem_cons.mp member with same | inRest
      · exact .inr (by simp [same])
      · exact (ih inRest).imp id (List.mem_cons_of_mem _)

theorem ascending_place [Std.TransOrd κ] [Std.LawfulEqOrd κ] (key : κ) (value : α)
    {entries : List (κ × α)} (sorted : entries.Pairwise (fun a b => compare a.1 b.1 = .lt)) :
    (place key value entries).Pairwise (fun a b => compare a.1 b.1 = .lt) := by
  induction entries with
  | nil => simp [place]
  | cons first rest ih =>
    obtain ⟨below, sortedRest⟩ := List.pairwise_cons.mp sorted
    unfold place
    split
    next lower =>
      refine List.pairwise_cons.mpr ⟨fun e member => ?_, sorted⟩
      rcases List.mem_cons.mp member with rfl | inRest
      · exact lower
      · exact Std.TransCmp.lt_trans lower (below e inRest)
    next same =>
      cases Std.LawfulEqOrd.eq_of_compare same
      exact List.pairwise_cons.mpr ⟨below, sortedRest⟩
    next higher =>
      -- The first entry stays first: it is below the key and below the rest.
      refine List.pairwise_cons.mpr ⟨fun e member => ?_, ih sortedRest⟩
      rcases mem_place member with rfl | inRest
      · exact Std.OrientedCmp.lt_of_gt higher
      · exact below e inRest

def insert [Std.TransOrd κ] [Std.LawfulEqOrd κ] (t : Table κ α) (key : κ) (value : α) :
    Table κ α where
  entries := place key value t.entries
  ascending := ascending_place key value t.ascending

def erase (t : Table κ α) (key : κ) : Table κ α where
  entries := remove key t.entries
  ascending := t.ascending.filter _

@[simp] theorem get?_empty (key : κ) : (empty : Table κ α).get? key = none := rfl

theorem lookup_place [Std.TransOrd κ] [Std.LawfulEqOrd κ] (key other : κ) (value : α)
    (entries : List (κ × α)) :
    lookup other (place key value entries)
      = if compare other key = .eq then some value else lookup other entries := by
  induction entries with
  | nil => simp [place, lookup]
  | cons first rest ih =>
    unfold place
    split
    next => simp [lookup]
    next same =>
      cases Std.LawfulEqOrd.eq_of_compare same
      simp only [lookup]
      split <;> simp_all
    next higher =>
      simp only [lookup, ih]
      split
      next found =>
        -- The first entry is the one looked for, and it is not the one placed behind it.
        have distinct : compare other key ≠ .eq := by
          intro same
          have := Std.LawfulEqOrd.eq_of_compare found
          have := Std.LawfulEqOrd.eq_of_compare same
          subst_vars
          simp [Std.ReflOrd.compare_self] at higher
        simp [distinct]
      next => rfl

/-- Inserting binds one key and leaves the others alone. -/
theorem get?_insert [Std.TransOrd κ] [Std.LawfulEqOrd κ] [DecidableEq κ]
    (t : Table κ α) (key other : κ) (value : α) :
    (t.insert key value).get? other = if other = key then some value else t.get? other := by
  unfold get? insert
  rw [lookup_place]
  by_cases same : other = key
  · subst same; simp [Std.ReflOrd.compare_self]
  · have : compare other key ≠ .eq := fun h => same (Std.LawfulEqOrd.eq_of_compare h)
    simp [this, same]

@[simp] theorem get?_insert_self [Std.TransOrd κ] [Std.LawfulEqOrd κ]
    (t : Table κ α) (key : κ) (value : α) : (t.insert key value).get? key = some value := by
  unfold get? insert
  rw [lookup_place]
  simp [Std.ReflOrd.compare_self]

theorem lookup_remove [Std.TransOrd κ] [Std.LawfulEqOrd κ] (key other : κ)
    (entries : List (κ × α)) :
    lookup other (remove key entries)
      = if compare other key = .eq then none else lookup other entries := by
  induction entries with
  | nil => simp [remove, lookup]
  | cons first rest ih =>
    unfold remove at ih ⊢
    rw [List.filter_cons]
    by_cases removed : compare key first.1 = .eq
    · cases Std.LawfulEqOrd.eq_of_compare removed
      simp only [Std.ReflOrd.compare_self, ne_eq, not_true_eq_false, decide_false,
        Bool.false_eq_true, if_false, ih, lookup]
      split <;> rfl
    · simp only [ne_eq, removed, not_false_eq_true, decide_true, if_true, lookup, ih]
      by_cases found : compare other first.1 = .eq
      · have distinct : compare other key ≠ .eq := by
          intro same
          cases Std.LawfulEqOrd.eq_of_compare found
          exact removed (Std.OrientedCmp.eq_symm same)
        simp [found, distinct]
      · simp [found]

/-- Erasing unbinds one key and leaves the others alone. -/
theorem get?_erase [Std.TransOrd κ] [Std.LawfulEqOrd κ] [DecidableEq κ]
    (t : Table κ α) (key other : κ) :
    (t.erase key).get? other = if other = key then none else t.get? other := by
  unfold get? erase
  rw [lookup_remove]
  by_cases same : other = key
  · subst same; simp [Std.ReflOrd.compare_self]
  · have : compare other key ≠ .eq := fun h => same (Std.LawfulEqOrd.eq_of_compare h)
    simp [this, same]

theorem lookup_eq_none_of_below [Std.TransOrd κ] {key : κ} {entries : List (κ × α)}
    (below : ∀ e ∈ entries, compare key e.1 = .lt) : lookup key entries = none := by
  induction entries with
  | nil => rfl
  | cons first rest ih =>
    have lower := below first (by simp)
    simp only [lookup, lower]
    exact ih fun e member => below e (List.mem_cons_of_mem _ member)

theorem mem_entries_iff [Std.TransOrd κ] [Std.LawfulEqOrd κ] {t : Table κ α} {key : κ} {value : α} :
    (key, value) ∈ t.entries ↔ t.get? key = some value := by
  obtain ⟨entries, sorted⟩ := t
  show _ ↔ lookup key entries = some value
  induction entries with
  | nil => simp [lookup]
  | cons first rest ih =>
    obtain ⟨below, sortedRest⟩ := List.pairwise_cons.mp sorted
    simp only [lookup, List.mem_cons]
    split
    next same =>
      cases Std.LawfulEqOrd.eq_of_compare same
      constructor
      · rintro (atHead | inRest)
        · rw [← atHead]
        · -- No key stands twice.
          have := below _ inRest
          simp [Std.ReflOrd.compare_self] at this
      · intro found
        exact .inl (by rw [← Option.some.inj found])
    next differs =>
      rw [← ih sortedRest]
      constructor
      · rintro (rfl | inRest)
        · simp [Std.ReflOrd.compare_self] at differs
        · exact inRest
      · exact .inr

/-- Tables in which `get?` finds the same are equal. -/
theorem ext_get? [Std.TransOrd κ] [Std.LawfulEqOrd κ] {t u : Table κ α}
    (same : ∀ key, t.get? key = u.get? key) : t = u := by
  obtain ⟨ts, sortedT⟩ := t
  obtain ⟨us, sortedU⟩ := u
  suffices ts = us by subst this; rfl
  replace same : ∀ key, lookup key ts = lookup key us := same
  induction ts generalizing us with
  | nil =>
    cases us with
    | nil => rfl
    | cons first rest => simpa [lookup, Std.ReflOrd.compare_self] using same first.1
  | cons t ts ih =>
    cases us with
    | nil => simpa [lookup, Std.ReflOrd.compare_self] using same t.1
    | cons u us =>
      obtain ⟨belowT, restT⟩ := List.pairwise_cons.mp sortedT
      obtain ⟨belowU, restU⟩ := List.pairwise_cons.mp sortedU
      -- The smaller of two different first keys would be missing from the other table.
      have heads : t = u := by
        have atT := same t.1
        have atU := same u.1
        cases order : compare t.1 u.1 with
        | eq =>
          have keys := Std.LawfulEqOrd.eq_of_compare order
          obtain ⟨k, a⟩ := t
          obtain ⟨k', a'⟩ := u
          cases keys
          simpa [lookup, Std.ReflOrd.compare_self] using atT
        | lt =>
          have below : ∀ e ∈ u :: us, compare t.1 e.1 = .lt := by
            intro e member
            rcases List.mem_cons.mp member with rfl | inRest
            · exact order
            · exact Std.TransCmp.lt_trans order (belowU e inRest)
          rw [lookup_eq_none_of_below below] at atT
          simp [lookup, Std.ReflOrd.compare_self] at atT
        | gt =>
          have reverse := Std.OrientedCmp.lt_of_gt order
          have below : ∀ e ∈ t :: ts, compare u.1 e.1 = .lt := by
            intro e member
            rcases List.mem_cons.mp member with rfl | inRest
            · exact reverse
            · exact Std.TransCmp.lt_trans reverse (belowT e inRest)
          rw [eq_comm, lookup_eq_none_of_below below] at atU
          simp [lookup, Std.ReflOrd.compare_self] at atU
      subst heads
      congr 1
      refine ih restT us restU fun key => ?_
      have atKey := same key
      simp only [lookup] at atKey
      split at atKey
      next found =>
        cases Std.LawfulEqOrd.eq_of_compare found
        rw [lookup_eq_none_of_below belowT, lookup_eq_none_of_below belowU]
      next => exact atKey

end Table

end Stablecoin
