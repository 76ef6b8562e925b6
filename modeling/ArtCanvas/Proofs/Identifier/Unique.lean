import ArtCanvas.Identifier
import Mathlib.Data.List.Nodup
import Mathlib.Data.List.Perm.Subperm

/-!
# Names that differ from taken ones

`Identifier.unique` looks for a free name among the first forms of a base. These forms are pairwise
different, and there are more of them than taken names, so one of them is free.

* `Identifier.candidate_injective`: different forms of a base are different names.
* `Identifier.exists_unique_eq_candidate`: the name that is found is the first free one.
* `Identifier.exists_le_unique_eq_candidate`: there are at most as many forms before it as there are
  taken names.
* `Identifier.unique_congr`: it depends on nothing but which names are taken.
* `Identifier.unique_not_mem`: it is not taken.
-/

namespace ArtCanvas.Identifier

/-- A form after the first one ends in its number. -/
theorem candidate_succ (base : String) (n : Nat) :
    candidate base (n + 1) = base ++ (n + 1).repr := rfl

/-- The decimal digits of a number determine it. -/
theorem eq_of_repr_eq {m n : Nat} (h : m.repr = n.repr) : m = n := by
  rw [Nat.repr_eq_ofList_toDigits, Nat.repr_eq_ofList_toDigits, String.ofList_inj] at h
  rw [← Nat.ofDigitChars_ten_toDigits (n := m), h, Nat.ofDigitChars_ten_toDigits]

theorem isDigit_of_mem_repr {n : Nat} {c : Char} (hc : c ∈ n.repr.toList) : c.isDigit = true := by
  rw [Nat.repr_eq_ofList_toDigits, String.toList_ofList] at hc
  exact Nat.isDigit_of_mem_toDigits (by decide) (by decide) hc

/-- Different forms of a base are different names. -/
theorem candidate_injective (base : String) : Function.Injective (candidate base) := by
  intro m n h
  cases m with
  | zero =>
    cases n with
    | zero => rfl
    | succ n => exact absurd (String.append_eq_left_iff.mp h.symm) Nat.repr_ne_empty
  | succ m =>
    cases n with
    | zero => exact absurd (String.append_eq_left_iff.mp h) Nat.repr_ne_empty
    | succ n => exact eq_of_repr_eq ((String.append_right_inj base).mp h)

/-- Among the first forms of a base, one more than there are taken names, some form is free. -/
theorem exists_candidate_not_mem (base : String) (taken : List String) :
    ∃ n ≤ taken.length, candidate base n ∉ taken := by
  by_contra hall
  push Not at hall
  -- otherwise there would be more forms than taken names
  have hsubset : (List.range (taken.length + 1)).map (candidate base) ⊆ taken := by
    intro name hname
    obtain ⟨n, hn, rfl⟩ := List.mem_map.mp hname
    exact hall n (Nat.le_of_lt_succ (List.mem_range.mp hn))
  have hlength := ((List.nodup_range.map (candidate_injective base)).subperm hsubset).length_le
  rw [List.length_map, List.length_range] at hlength
  omega

/-- The name that is found is the first of the forms that is not taken. -/
theorem exists_unique_eq_candidate (base : String) (taken : List String) :
    ∃ n, unique base taken = candidate base n ∧ candidate base n ∉ taken ∧
      ∀ m < n, candidate base m ∈ taken := by
  unfold unique
  dsimp only
  cases hfree : (List.range taken.length).find? fun n => !taken.contains (candidate base n) with
  | some n =>
    obtain ⟨hn, hlt, hbefore⟩ := List.find?_range_eq_some.mp hfree
    refine ⟨n, rfl, by simpa using hn, fun m hm => ?_⟩
    simpa using hbefore m hm
  | none =>
    have hall : ∀ m < taken.length, candidate base m ∈ taken := fun m hm => by
      simpa using List.find?_eq_none.mp hfree m (List.mem_range.mpr hm)
    -- the forms before the last one are taken, so the free one is the last
    obtain ⟨n, hn, hfreeN⟩ := exists_candidate_not_mem base taken
    obtain rfl : n = taken.length :=
      (Nat.lt_or_eq_of_le hn).resolve_left fun hlt => hfreeN (hall n hlt)
    exact ⟨taken.length, rfl, hfreeN, hall⟩

/-- The number of the form that is found is bounded, however the taken names are chosen. -/
theorem exists_le_unique_eq_candidate (base : String) (taken : List String) :
    ∃ n ≤ taken.length, unique base taken = candidate base n ∧ candidate base n ∉ taken := by
  obtain ⟨n, heq, hfree, hbefore⟩ := exists_unique_eq_candidate base taken
  obtain ⟨m, hm, hfreeM⟩ := exists_candidate_not_mem base taken
  -- a free form does not come before the first free one
  have hle : n ≤ m := Nat.le_of_not_lt fun hlt => hfreeM (hbefore m hlt)
  exact ⟨n, Nat.le_trans hle hm, heq, hfree⟩

/-- What counts is which names are taken, not how they are listed. -/
theorem unique_congr (base : String) {taken taken' : List String}
    (h : ∀ name, name ∈ taken ↔ name ∈ taken') : unique base taken = unique base taken' := by
  obtain ⟨n, heq, hfree, hbefore⟩ := exists_unique_eq_candidate base taken
  obtain ⟨m, heq', hfree', hbefore'⟩ := exists_unique_eq_candidate base taken'
  rw [heq, heq']
  -- the first free form of one list cannot come before that of the other
  obtain hlt | rfl | hlt := Nat.lt_trichotomy n m
  · exact absurd ((h _).mpr (hbefore' n hlt)) hfree
  · rfl
  · exact absurd ((h _).mp (hbefore m hlt)) hfree'

/-- The name that is found is not taken. -/
theorem unique_not_mem (base : String) (taken : List String) : unique base taken ∉ taken := by
  obtain ⟨n, heq, hfree, -⟩ := exists_unique_eq_candidate base taken
  rwa [heq]

end ArtCanvas.Identifier
