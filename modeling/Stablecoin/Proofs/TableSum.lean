import Stablecoin.Table

/-!
# Sums over tables

The total of a quantity over all entries of a table, and how it moves when an entry is written.
-/
namespace Stablecoin.Table

def sumEntries {κ α : Type} (f : κ → α → Int) (entries : List (κ × α)) : Int :=
  entries.foldr (fun e total => f e.1 e.2 + total) 0

@[simp] theorem sumEntries_cons {κ α : Type} (f : κ → α → Int) (first : κ × α)
    (rest : List (κ × α)) :
    sumEntries f (first :: rest) = f first.1 first.2 + sumEntries f rest := rfl

theorem sumEntries_nonneg {κ α : Type} {f : κ → α → Int}
    (nonneg : ∀ key value, 0 ≤ f key value) (entries : List (κ × α)) :
    0 ≤ sumEntries f entries := by
  induction entries with
  | nil => exact Int.le_refl 0
  | cons first rest ih =>
    have head := nonneg first.1 first.2
    rw [sumEntries_cons]
    omega

/-- No more than a bound for each of a limited number of entries. -/
theorem sumEntries_le {κ α : Type} {f : κ → α → Int} {entries : List (κ × α)} {most : Int}
    {count : Nat} (bounded : ∀ e ∈ entries, f e.1 e.2 ≤ most) (nonneg : 0 ≤ most)
    (few : entries.length ≤ count) : sumEntries f entries ≤ count * most := by
  have each : sumEntries f entries ≤ entries.length * most := by
    clear few
    induction entries with
    | nil => simp [sumEntries]
    | cons first rest ih =>
      have head := bounded first (by simp)
      have tail := ih fun e member => bounded e (List.mem_cons_of_mem _ member)
      rw [sumEntries_cons, List.length_cons, Int.natCast_succ, Int.add_mul, Int.one_mul]
      omega
  have scaled : (entries.length : Int) * most ≤ count * most :=
    Int.mul_le_mul_of_nonneg_right (Int.ofNat_le.mpr few) nonneg
  exact Int.le_trans each scaled

variable {κ α : Type} [Ord κ]

/-- The total of `f` over the table. -/
def sum (t : Table κ α) (f : κ → α → Int) : Int := sumEntries f t.entries

@[simp] theorem sum_empty (f : κ → α → Int) : (empty : Table κ α).sum f = 0 := rfl

/-- What `f` counts at a key, nothing if there is no entry. -/
def countAt (t : Table κ α) (f : κ → α → Int) (key : κ) : Int := (t.get? key).elim 0 (f key)

theorem sum_place [Std.TransOrd κ] [Std.LawfulEqOrd κ] (f : κ → α → Int) (key : κ) (value : α)
    {entries : List (κ × α)} (sorted : entries.Pairwise (fun a b => compare a.1 b.1 = .lt)) :
    sumEntries f (place key value entries)
      = sumEntries f entries - (lookup key entries).elim 0 (f key) + f key value := by
  induction entries with
  | nil => simp [place, lookup, sumEntries]
  | cons first rest ih =>
    obtain ⟨below, sortedRest⟩ := List.pairwise_cons.mp sorted
    unfold place lookup
    split
    next lower =>
      -- The key comes before all entries, so none of them is replaced.
      have absent : lookup key rest = none := lookup_eq_none_of_below fun e member =>
        Std.TransCmp.lt_trans lower (below e member)
      simp only [lower, reduceCtorEq, if_false, absent, Option.elim_none, sumEntries_cons]
      omega
    next same =>
      -- The first entry is the one that is replaced.
      cases Std.LawfulEqOrd.eq_of_compare same
      simp only [Std.ReflOrd.compare_self, if_true, Option.elim_some, sumEntries_cons]
      omega
    next higher =>
      -- The first entry stays, and the key is placed among the rest.
      simp only [higher, reduceCtorEq, if_false, sumEntries_cons, ih sortedRest]
      omega

/-- Writing an entry adds the new value and takes the replaced one away. -/
theorem sum_insert [Std.TransOrd κ] [Std.LawfulEqOrd κ] (t : Table κ α) (f : κ → α → Int)
    (key : κ) (value : α) :
    (t.insert key value).sum f = t.sum f - t.countAt f key + f key value :=
  sum_place f key value t.ascending

/-- One entry counts for no more than all of them. -/
theorem countAt_le_sum [Std.LawfulEqOrd κ] (t : Table κ α) {f : κ → α → Int}
    (nonneg : ∀ key value, 0 ≤ f key value) (key : κ) : t.countAt f key ≤ t.sum f := by
  unfold countAt sum get?
  induction t.entries with
  | nil => exact Int.le_refl 0
  | cons first rest ih =>
    have head := nonneg first.1 first.2
    have tail := sumEntries_nonneg nonneg rest
    simp only [lookup, sumEntries_cons]
    split
    next same =>
      cases Std.LawfulEqOrd.eq_of_compare same
      simp only [Option.elim_some]
      omega
    next => omega

/-! ### Values -/

theorem mem_values_of_get? [Std.TransOrd κ] [Std.LawfulEqOrd κ] {t : Table κ α} {key : κ}
    {value : α} (found : t.get? key = some value) : value ∈ t.values :=
  List.mem_map.mpr ⟨(key, value), mem_entries_iff.mpr found, rfl⟩

theorem mem_values_insert [Std.TransOrd κ] [Std.LawfulEqOrd κ] {t : Table κ α} {key : κ}
    {value other : α} (member : other ∈ (t.insert key value).values) :
    other = value ∨ other ∈ t.values := by
  obtain ⟨entry, placed, rfl⟩ := List.mem_map.mp member
  rcases mem_place placed with rfl | old
  · exact .inl rfl
  · exact .inr (List.mem_map_of_mem old)

end Stablecoin.Table
