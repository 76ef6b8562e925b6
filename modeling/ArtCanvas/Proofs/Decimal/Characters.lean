import ArtCanvas.Decimal.Layout

/-!
# The characters of numbers

Numbers in a script are written with digits, and maybe a point and a minus. So no number has
anything in it that could end or begin another part of a line.

* `Decimal.isNumberChar`: the characters of numbers.
* `Decimal.all_coordinate`, `Decimal.all_plain`: coordinates and exact numbers have no others.
-/

namespace ArtCanvas.Decimal

/-- A character that numbers are written with. -/
def isNumberChar (c : Char) : Bool := c.isDigit || c == '.' || c == '-'

theorem isNumberChar_of_isDigit {c : Char} (h : c.isDigit = true) : isNumberChar c = true := by
  rw [isNumberChar, h, Bool.true_or, Bool.true_or]

theorem isDigit_of_mem_lastDigits {places n : Nat} {c : Char} (hc : c ∈ lastDigits places n) :
    c.isDigit = true := by
  have hdigit : ∀ d < 10, (Nat.digitChar d).isDigit = true := by decide
  induction places generalizing n with
  | zero => cases hc
  | succ places ih =>
    rw [lastDigits, List.mem_append, List.mem_singleton] at hc
    rcases hc with hc | rfl
    · exact ih hc
    · exact hdigit _ (Nat.mod_lt n (by decide))

theorem isDigit_of_mem_wholeDigits {units : Nat} {c : Char} (hc : c ∈ wholeDigits 3 units) :
    c.isDigit = true := Nat.isDigit_of_mem_toDigits (by decide) (by decide) hc

/-- A sign is a character of numbers too. -/
theorem all_signed {negative : Bool} {cs : List Char} (h : ∀ c ∈ cs, isNumberChar c = true) :
    ∀ c ∈ signed negative cs, isNumberChar c = true := by
  unfold signed
  split
  · exact List.forall_mem_cons.mpr ⟨rfl, h⟩
  · exact h

theorem all_positional {digits : List Char} (h : ∀ c ∈ digits, isNumberChar c = true)
    (exponent : Int) : ∀ c ∈ positional digits exponent, isNumberChar c = true := by
  have hzeros : ∀ n, ∀ c ∈ zeros n, isNumberChar c = true := fun n c hc => by
    rw [List.eq_of_mem_replicate hc]
    rfl
  unfold positional
  dsimp only
  split
  · exact List.forall_mem_append.mpr ⟨h, hzeros _⟩
  · split
    · exact List.forall_mem_append.mpr ⟨fun c hc => h c (List.mem_of_mem_take hc),
        List.forall_mem_cons.mpr ⟨rfl, fun c hc => h c (List.mem_of_mem_drop hc)⟩⟩
    · exact List.forall_mem_append.mpr ⟨List.forall_mem_cons.mpr ⟨rfl,
        List.forall_mem_cons.mpr ⟨rfl, hzeros _⟩⟩, h⟩

/-- A finite number with all its digits. -/
theorem all_plain {x : Float} (h : x.isFinite = true) :
    ∀ c ∈ (plain x).toList, isNumberChar c = true := by
  rw [plain, if_pos h, String.toList_ofList]
  exact all_signed (all_positional (fun c hc => isNumberChar_of_isDigit
    (Nat.isDigit_of_mem_toDigits (b := 10) (by decide) (by decide) hc)) _)

/-- A coordinate. -/
theorem all_coordinate (x : Float) : ∀ c ∈ (coordinate x).toList, isNumberChar c = true := by
  unfold coordinate
  split
  · rw [String.toList_ofList]
    refine all_signed (List.forall_mem_append.mpr ⟨List.forall_mem_append.mpr ⟨fun c hc =>
      isNumberChar_of_isDigit (isDigit_of_mem_wholeDigits hc), ?_⟩, fun c hc => ?_⟩)
    · split
      · exact nofun
      · exact List.forall_mem_singleton.mpr rfl
    · exact isNumberChar_of_isDigit (isDigit_of_mem_lastDigits (List.mem_reverse.mp
        ((List.dropWhile_sublist _).subset (List.mem_reverse.mp hc))))
  · simp [isNumberChar]

theorem coordinate_ne_nil (x : Float) : (coordinate x).toList ≠ [] := by
  unfold coordinate
  split
  · rw [String.toList_ofList]
    have hsome : wholeDigits 3 ((Dyadic.ofFloat x).units 3) ≠ [] := Nat.toDigits_ne_nil
    unfold thousandthsText signed
    split <;> simp [hsome]
  · decide

/-- No other character stands in a coordinate. -/
theorem not_mem_coordinate {c : Char} (hc : isNumberChar c = false) (x : Float) :
    c ∉ (coordinate x).toList := fun hmem => by
  rw [all_coordinate x c hmem] at hc
  cases hc

end ArtCanvas.Decimal
