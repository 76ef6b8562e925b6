import ArtCanvas.Proofs.Identifier.Reading

/-!
# What an identifier keeps of a text

`Identifier.ofText` passes over what is neither a letter nor a digit, and changes letters between
capital and small ones. Nothing else is lost, and nothing is made up but one underscore in front of
a digit.

* `Identifier.lettersAndDigits`: what a text has to offer an identifier.
* `Identifier.Spells`: how an identifier writes letters and digits down.
* `Identifier.sameLetters_camelTail`: what follows the first letter or digit is kept, whatever gaps
  there are.
* `Identifier.spells_camel`: an identifier spells the letters and digits of its text.
* `Identifier.ofText_spells`: this, when there are none, and that reading twice changes nothing.
-/

namespace ArtCanvas.Identifier

/-- The ASCII letters and digits of a text, in their order. -/
def lettersAndDigits (cs : List Char) : List Char := cs.filter Char.isAlphanum

/-- The same characters, apart from capital and small letters of ASCII. -/
def SameLetters (cs ds : List Char) : Prop := cs.map Char.toLower = ds.map Char.toLower

/-- How an identifier writes letters and digits down: all of them in their order, as capital or
small letters, but the first one is no capital, and if it is a digit, one underscore stands in front
of it. -/
def Spells (name kept : List Char) : Prop :=
  ∃ word, SameLetters word kept ∧ (∀ c ∈ word.head?, c.isUpper = false) ∧
    name = if kept.head?.any Char.isDigit then '_' :: word else word

section Ascii

variable {c : Char}

theorem toLower_toLower (h : c.isAlphanum = true) : c.toLower.toLower = c.toLower :=
  of_isAlphanum (p := fun c => c.toLower.toLower = c.toLower) (by decide +kernel) h

theorem toLower_toUpper (h : c.isAlphanum = true) : c.toUpper.toLower = c.toLower :=
  of_isAlphanum (p := fun c => c.toUpper.toLower = c.toLower) (by decide +kernel) h

/-- Neither a digit nor a letter that was made small is a capital. -/
theorem isUpper_toLower (h : c.isAlphanum = true) : c.toLower.isUpper = false :=
  of_isAlphanum (p := fun c => c.toLower.isUpper = false) (by decide +kernel) h

theorem toLower_of_isDigit (h : c.isDigit = true) : c.toLower = c :=
  of_isAlphanum (p := fun c => c.isDigit = true → c.toLower = c) (by decide +kernel)
    (isAlphanum_of_isDigit h) h

end Ascii

namespace SameLetters

variable {c d : Char} {cs ds : List Char}

/-- Two texts with the same letters still have them after one more. -/
theorem cons (hc : c.toLower = d.toLower) (h : SameLetters cs ds) :
    SameLetters (c :: cs) (d :: ds) := by
  rw [SameLetters, List.map_cons, List.map_cons, hc, h]

/-- Of two texts with the same letters, both or none are empty. -/
theorem eq_nil_iff (h : SameLetters cs ds) : cs = [] ↔ ds = [] := by
  rw [← List.map_eq_nil_iff (f := Char.toLower), h, List.map_eq_nil_iff]

end SameLetters

/-- What follows the first letter or digit is kept, with a capital after each gap. -/
theorem sameLetters_camelTail (gap : Bool) (cs : List Char) :
    SameLetters (camelTail gap cs) (lettersAndDigits cs) := by
  induction cs generalizing gap with
  | nil => rfl
  | cons c cs ih =>
    rw [camelTail, lettersAndDigits]
    by_cases hc : c.isAlphanum = true
    · rw [if_pos hc, List.filter_cons_of_pos hc]
      refine SameLetters.cons ?_ (ih false)
      -- only after a gap is the letter changed at all
      cases gap with
      | true => exact toLower_toUpper hc
      | false => rfl
    · -- a separator leaves no trace but the gap
      rw [if_neg hc, List.filter_cons_of_neg hc]
      exact ih true

/-- An identifier spells the letters and digits of the text that it is read off. -/
theorem spells_camel (cs : List Char) : Spells (camel cs) (lettersAndDigits cs) := by
  induction cs with
  | nil => exact ⟨[], rfl, by simp, rfl⟩
  | cons c cs ih =>
    rw [camel, lettersAndDigits]
    by_cases hc : c.isAlphanum = true
    · rw [if_pos hc, List.filter_cons_of_pos hc]
      -- the first letter or digit is made small, which leaves a digit as it is
      refine ⟨c.toLower :: camelTail false cs,
        .cons (toLower_toLower hc) (sameLetters_camelTail false cs), ?_, ?_⟩
      · intro d hd
        obtain rfl := Option.mem_some_iff.mp hd
        exact isUpper_toLower hc
      · rw [List.head?_cons, Option.any_some]
        cases hdigit : c.isDigit with
        | true => rw [toLower_of_isDigit hdigit]; rfl
        | false => rfl
    · -- what stands before the first letter or digit is passed over
      rw [if_neg hc, List.filter_cons_of_neg hc]
      exact ih

/-- A name is empty only if nothing was kept for it. -/
theorem Spells.eq_nil_iff {name kept : List Char} (h : Spells name kept) :
    name = [] ↔ kept = [] := by
  obtain ⟨word, hsame, -, rfl⟩ := h
  cases kept with
  | nil => exact hsame.eq_nil_iff
  | cons c kept =>
    have hword : word ≠ [] := fun hnil => List.cons_ne_nil c kept (hsame.eq_nil_iff.mp hnil)
    split <;> simp [hword]

/-- Whatever a text is: its identifier is empty exactly if the text has no letter and no digit of
ASCII. The identifier spells those that there are, in their order and with none lost or added: they
change between capital and small letters only, the first one is never a capital letter, and one
underscore stands in front exactly if the first one is a digit. And an identifier reads as
itself. -/
theorem ofText_spells (raw : String) :
    (ofText raw = "" ↔ ∀ c ∈ raw.toList, c.isAlphanum = false) ∧
      Spells (ofText raw).toList (lettersAndDigits raw.toList) ∧
      ofText (ofText raw) = ofText raw := by
  have hspells := spells_camel raw.toList
  rw [← toList_ofText] at hspells
  refine ⟨?_, hspells, ofText_ofText raw⟩
  rw [← String.toList_eq_nil_iff, hspells.eq_nil_iff, lettersAndDigits, List.filter_eq_nil_iff]
  simp only [Bool.not_eq_true]

/-- Where a digit comes first, the first letter is not the first character that is kept, and it
stays a capital. -/
theorem isUpper_firstLetter_threeD :
    ofText "3D" = "_3D" ∧ (ofText "3D").toList.find? Char.isAlpha = some 'D' ∧
      'D'.isUpper = true := by
  decide

end ArtCanvas.Identifier
