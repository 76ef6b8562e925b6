import Mathlib.Data.Finset.Card
import Mathlib.Data.Nat.Find
import ArtCanvas.Proofs.Identifier.Unique

/-!
# Counting up to a free name

`Identifier.unique` picks a free name out of a list of candidates that is known to be long enough. A
search that has no such list tries the base and then counts up, with a number of 32 bits behind the
base, for as long as it finds the name taken. Nothing but the taken names themselves bounds it.

* `Identifier.Search`: where such a search stands, with `Search.step` and `Search.run`.
* `Identifier.Search.run_eq_trying`, `Search.run_eq_found`: what it has reached after `n` steps.
* `Identifier.Search.overflows_iff`: it runs out of numbers only if all its names are taken.
* `Identifier.search_finds_unique`: with fewer taken names than numbers it ends, at the free name
  with the smallest number.
-/

namespace ArtCanvas.Identifier

/-- Where a search for a free name stands. -/
inductive Search where
  /-- The number to try next. -/
  | trying (suffix : UInt32)
  /-- The name that was found. -/
  | found (name : String)
  /-- The greatest number was tried in vain, and there is none after it. -/
  | overflow
  deriving DecidableEq, Repr

namespace Search

variable (base : String) (taken : String → Bool)

/-- The base itself is tried first, and then the number 1. -/
def start : Search := if taken base then .trying 1 else .found base

/-- One round of the search, which tries a number and goes on to the next one. -/
def step : Search → Search
  | .trying suffix =>
    let name := base ++ toString suffix.toNat
    if taken name then
      if suffix.toNat + 1 < UInt32.size then .trying (suffix + 1) else .overflow
    else .found name
  | .found name => .found name
  | .overflow => .overflow

/-- The search after a number of rounds. -/
def run : Nat → Search
  | 0 => start base taken
  | n + 1 => step base taken (run n)

variable {base : String} {taken : String → Bool} {n : Nat}

/-- A round tries the form of the base that has the number. -/
theorem step_trying (hn : n + 1 < UInt32.size) :
    step base taken (.trying (UInt32.ofNat (n + 1))) =
      if taken (candidate base (n + 1)) then
        if n + 2 < UInt32.size then .trying (UInt32.ofNat (n + 2)) else .overflow
      else .found (candidate base (n + 1)) := by
  have hnumber : (UInt32.ofNat (n + 1)).toNat = n + 1 := UInt32.toNat_ofNat_of_lt' hn
  have hnext : UInt32.ofNat (n + 1) + 1 = UInt32.ofNat (n + 2) := (UInt32.ofNat_add (n + 1) 1).symm
  rw [step, hnumber, hnext]
  rfl

/-- As long as all forms are taken, the search counts. -/
theorem run_eq_trying (hn : n + 1 < UInt32.size) (htaken : ∀ m ≤ n, taken (candidate base m)) :
    run base taken n = .trying (UInt32.ofNat (n + 1)) := by
  induction n with
  | zero => exact if_pos (htaken 0 le_rfl)
  | succ n ih =>
    have hbefore := ih (Nat.lt_of_succ_lt hn) fun m hm => htaken m (Nat.le_succ_of_le hm)
    rw [run, hbefore, step_trying (Nat.lt_of_succ_lt hn), if_pos (htaken (n + 1) le_rfl),
      if_pos hn]

/-- The first free form is found, unless the numbers end before it. -/
theorem run_eq_found (hn : n < UInt32.size) (hbefore : ∀ m < n, taken (candidate base m))
    (hfree : taken (candidate base n) = false) : run base taken n = .found (candidate base n) := by
  cases n with
  | zero => exact if_neg (Bool.eq_false_iff.mp hfree)
  | succ n =>
    -- the round before has left the search at this number
    rw [run, run_eq_trying hn fun m hm => hbefore m (Nat.lt_succ_of_le hm), step_trying hn,
      if_neg (Bool.eq_false_iff.mp hfree)]

/-- If all forms with a number are taken, the search runs out of numbers. -/
theorem run_eq_overflow (htaken : ∀ m < UInt32.size, taken (candidate base m)) :
    run base taken (UInt32.size - 1) = .overflow := by
  have hlast : UInt32.size - 1 = UInt32.size - 2 + 1 := rfl
  have hfit : UInt32.size - 2 + 1 < UInt32.size := by decide
  have hend : ¬ UInt32.size - 2 + 2 < UInt32.size := by decide
  rw [hlast, run, run_eq_trying hfit fun m hm => htaken m (hm.trans_lt (by decide)),
    step_trying hfit, if_pos (htaken _ hfit), if_neg hend]

/-- Once the search has ended, it stays where it is. -/
theorem run_eq_of_ended {k : Nat} (hended : step base taken (run base taken n) = run base taken n)
    (hle : n ≤ k) : run base taken k = run base taken n := by
  induction k, hle using Nat.le_induction with
  | base => rfl
  | succ k _ ih => rw [run, ih, hended]

/-- A search ends in one way only. -/
theorem not_overflow_of_found {k : Nat} {name : String} (hfound : run base taken n = .found name) :
    run base taken k ≠ .overflow := by
  intro hoverflow
  rcases Nat.le_total n k with hle | hle
  · have heq := run_eq_of_ended (by rw [hfound]; rfl) hle
    rw [hfound, hoverflow] at heq
    cases heq
  · have heq := run_eq_of_ended (by rw [hoverflow]; rfl) hle
    rw [hfound, hoverflow] at heq
    cases heq

/-- The search runs out of numbers exactly if the base and all its forms with a number of 32 bits
are taken. -/
theorem overflows_iff :
    (∃ k, run base taken k = .overflow) ↔ ∀ m < UInt32.size, taken (candidate base m) := by
  refine ⟨fun ⟨k, hoverflow⟩ => ?_, fun htaken => ⟨_, run_eq_overflow htaken⟩⟩
  -- otherwise the first free form would have been found
  by_contra hfree
  push Not at hfree
  have hfirst := Nat.find_spec hfree
  have hbefore : ∀ m < Nat.find hfree, taken (candidate base m) := fun m hm => by
    have hm' := Nat.find_min hfree hm
    simp only [not_and, not_not] at hm'
    exact hm' (hm.trans hfirst.1)
  exact not_overflow_of_found
    (run_eq_found hfirst.1 hbefore (Bool.eq_false_iff.mpr hfirst.2)) hoverflow

end Search

/-- With fewer taken names than there are numbers, counting up ends and never runs out of numbers.
It takes no more rounds than there are taken names. What it finds is not taken: it is the base if
that is free, and otherwise the base with the smallest positive number behind it that makes it free.
This is the name that is picked out of any list of the taken names. -/
theorem search_finds_unique (base : String) (taken : Finset String)
    (hcard : taken.card < UInt32.size - 1) :
    ∃ name, name ∉ taken ∧
      (∃ k ≤ taken.card, Search.run base (· ∈ taken) k = .found name) ∧
      (∀ k, Search.run base (· ∈ taken) k ≠ .overflow) ∧
      (base ∉ taken → name = base) ∧
      (base ∈ taken → ∃ n, 1 ≤ n ∧ name = base ++ toString n ∧
        ∀ m, 1 ≤ m → m < n → base ++ toString m ∈ taken) ∧
      ∀ names : List String, (∀ s, s ∈ names ↔ s ∈ taken) → unique base names = name := by
  have hmem : ∀ s, s ∈ taken.toList ↔ s ∈ taken := fun s => Finset.mem_toList
  obtain ⟨n, heq, hfree, hbefore⟩ := exists_unique_eq_candidate base taken.toList
  obtain ⟨m, hm, hfreeM⟩ := exists_candidate_not_mem base taken.toList
  simp only [hmem, Finset.length_toList] at hfree hbefore hm hfreeM
  -- a free form does not come before the first free one
  have hn : n ≤ taken.card :=
    (Nat.le_of_not_lt fun hlt => hfreeM (hbefore m hlt)).trans hm
  have hfit : n < UInt32.size := by omega
  have hfound : Search.run base (· ∈ taken) n = .found (candidate base n) :=
    Search.run_eq_found hfit (fun k hk => decide_eq_true (hbefore k hk))
      (decide_eq_false hfree)
  -- the number 0 stands for the base itself
  refine ⟨candidate base n, hfree, ⟨n, hn, hfound⟩, fun k hoverflow => ?_, fun hbase => ?_,
    fun hbase => ?_, fun names hnames => ?_⟩
  · exact hfree (of_decide_eq_true (Search.overflows_iff.mp ⟨k, hoverflow⟩ n hfit))
  · cases n with
    | zero => rfl
    | succ n => exact absurd (hbefore 0 n.succ_pos) hbase
  · cases n with
    | zero => exact absurd hbase hfree
    | succ n =>
      refine ⟨n + 1, n.succ_pos, rfl, fun k hpos hk => ?_⟩
      obtain ⟨k, rfl⟩ := Nat.exists_eq_add_of_le' hpos
      exact hbefore (k + 1) hk
  · rw [← heq]
    exact unique_congr base fun s => (hnames s).trans (hmem s).symm

/-- The base is taken, and so are its first two numbers. -/
theorem search_finds_unique_third :
    ({"a", "a1", "a2"} : Finset String).card < UInt32.size - 1 ∧
      ∃ k ≤ 3, Search.run "a" (· ∈ ({"a", "a1", "a2"} : Finset String)) k = .found "a3" := by
  have hcard : ({"a", "a1", "a2"} : Finset String).card = 3 := by decide
  have hlt : ({"a", "a1", "a2"} : Finset String).card < UInt32.size - 1 := by
    rw [hcard]
    decide
  obtain ⟨name, -, ⟨k, hk, hfound⟩, -, -, -, hunique⟩ := search_finds_unique "a" _ hlt
  have hname : unique "a" ["a", "a1", "a2"] = "a3" := by decide
  have hthird : name = "a3" := by
    rw [← hname]
    exact (hunique ["a", "a1", "a2"] (by simp)).symm
  exact ⟨hlt, k, hcard ▸ hk, hthird ▸ hfound⟩

end ArtCanvas.Identifier
