import ArtCanvas.Proofs.Identifier.Name

/-!
# Names that read as themselves

A name is read off free text, and a text that refers to a name is read in the same way. So a name
can be referred to only if reading it gives the name again. Names that are read off texts are such
names, and numbers behind them leave them so.

* `Identifier.IsRead`: the characters of a name as it is read off a text.
* `Identifier.isRead_camel`, `Identifier.IsRead.camel`: what is read has this form, and what has the
  form reads as itself.
* `Identifier.isRead_ofTextOr`, `Identifier.IsRead.unique`: the ways to make names keep it.
-/

namespace ArtCanvas.Identifier

/-- The characters of a name as it is read off a text: a small letter, or a digit behind an
underscore, and then letters and digits. -/
inductive IsRead : List Char → Prop where
  /-- The text begins with a letter. -/
  | letter {c : Char} {cs : List Char} (hc : c.isLower = true)
      (hcs : cs.all Char.isAlphanum = true) : IsRead (c :: cs)
  /-- The text begins with a digit. -/
  | digit {d : Char} {cs : List Char} (hd : d.isDigit = true)
      (hcs : cs.all Char.isAlphanum = true) : IsRead ('_' :: d :: cs)

/-- Letters and digits without a gap before them are kept. -/
theorem camelTail_eq_self {cs : List Char} (h : cs.all Char.isAlphanum = true) :
    camelTail false cs = cs := by
  induction cs with
  | nil => rfl
  | cons c cs ih =>
    rw [List.all_cons, Bool.and_eq_true] at h
    rw [camelTail, if_pos h.1, ih h.2]
    rfl

/-- A small letter is no digit, and is left as it is in lower case. -/
theorem not_isDigit_and_toLower_of_isLower {c : Char} (h : c.isLower = true) :
    c.isDigit = false ∧ c.toLower = c :=
  of_isAlphanum (p := fun c => c.isLower = true → c.isDigit = false ∧ c.toLower = c)
    (by decide +kernel) (isAlphanum_of_isLower h) h

namespace IsRead

variable {cs : List Char}

/-- A name of this form reads as itself. -/
theorem camel (h : IsRead cs) : camel cs = cs := by
  cases h with
  | @letter c cs hc hcs =>
    obtain ⟨hdigit, hlower⟩ := not_isDigit_and_toLower_of_isLower hc
    rw [Identifier.camel, if_pos (isAlphanum_of_isLower hc), hdigit, hlower, camelTail_eq_self hcs]
    rfl
  | @digit d cs hd hcs =>
    -- the underscore is passed over, and comes back in front of the digit
    rw [Identifier.camel, if_neg (by decide), Identifier.camel,
      if_pos (isAlphanum_of_isDigit hd), if_pos hd, camelTail_eq_self hcs]
    rfl

/-- Letters and digits behind a name of this form leave it so. -/
theorem append (h : IsRead cs) {ds : List Char} (hds : ds.all Char.isAlphanum = true) :
    IsRead (cs ++ ds) := by
  have hall : ∀ {cs : List Char}, cs.all Char.isAlphanum = true →
      (cs ++ ds).all Char.isAlphanum = true := fun hcs => by
    rw [List.all_append, hcs, hds, Bool.and_true]
  cases h with
  | letter hc hcs => exact .letter hc (hall hcs)
  | digit hd hcs => exact .digit hd (hall hcs)

/-- What is read as a name is a word. -/
theorem all_isWordChar (h : IsRead cs) : cs.all isWordChar = true := by
  have hall : ∀ {cs : List Char}, cs.all Char.isAlphanum = true → cs.all isWordChar = true :=
    fun h => List.all_eq_true.mpr fun c hc => isWordChar_of_isAlphanum (List.all_eq_true.mp h c hc)
  cases h with
  | letter hc hcs =>
    rw [List.all_cons, isWordChar_of_isAlphanum (isAlphanum_of_isLower hc), hall hcs]
    rfl
  | digit hd hcs =>
    rw [List.all_cons, List.all_cons, isWordChar_of_isAlphanum (isAlphanum_of_isDigit hd), hall hcs]
    rfl

/-- What is read as a name is not empty. -/
theorem ne_nil (h : IsRead cs) : cs ≠ [] := by
  cases h <;> exact List.cons_ne_nil _ _

end IsRead

/-- Only letters and digits are kept. -/
theorem all_isAlphanum_camelTail (gap : Bool) (cs : List Char) :
    (camelTail gap cs).all Char.isAlphanum = true :=
  List.all_eq_true.mpr fun _ => isAlphanum_of_mem_camelTail

/-- What is read off a text has the form, if it is anything. -/
theorem isRead_camel {cs : List Char} (h : camel cs ≠ []) : IsRead (camel cs) := by
  induction cs with
  | nil => exact absurd rfl h
  | cons c cs ih =>
    rw [camel] at h ⊢
    split
    next hc =>
      cases hdigit : c.isDigit with
      | true => exact .digit hdigit (all_isAlphanum_camelTail false cs)
      | false => exact .letter (isLower_toLower hc hdigit) (all_isAlphanum_camelTail false cs)
    next hc =>
      rw [if_neg hc] at h
      exact ih h

/-- What is read as a name is read again as itself. -/
theorem IsRead.ofText {name : String} (h : IsRead name.toList) : ofText name = name := by
  rw [Identifier.ofText, h.camel, String.ofList_toList]

/-- Reading what was read changes nothing. -/
theorem ofText_ofText (raw : String) : ofText (ofText raw) = ofText raw := by
  by_cases h : camel raw.toList = []
  · have hempty : ofText raw = "" := by rw [ofText, h]
    rw [hempty]
    rfl
  · refine IsRead.ofText ?_
    rw [toList_ofText]
    exact isRead_camel h

/-- The names of this form are those that read as themselves. -/
theorem isRead_iff {name : String} : IsRead name.toList ↔ name ≠ "" ∧ ofText name = name := by
  constructor
  · intro h
    exact ⟨fun hempty => h.ne_nil (String.toList_eq_nil_iff.mpr hempty), h.ofText⟩
  · rintro ⟨hne, hread⟩
    have hchars : camel name.toList = name.toList := by rw [← toList_ofText, hread]
    rw [← hchars]
    refine isRead_camel ?_
    rwa [hchars, Ne, String.toList_eq_nil_iff]

/-- Names that are made from any text are read as they are written. -/
theorem isRead_ofTextOr {default : String} (hdefault : IsRead default.toList) (raw : String) :
    IsRead (ofTextOr default raw).toList := by
  unfold ofTextOr
  dsimp only
  split
  · exact hdefault
  next hraw =>
    rw [toList_ofText]
    refine isRead_camel fun hnil => hraw ?_
    rw [ofText, hnil]
    rfl

/-- So are names with a number behind them. -/
theorem IsRead.candidate {name : String} (h : IsRead name.toList) (n : Nat) :
    IsRead (candidate name n).toList := by
  cases n with
  | zero => exact h
  | succ n =>
    rw [candidate_succ, String.toList_append]
    exact h.append (List.all_eq_true.mpr fun c hc => isAlphanum_of_isDigit (isDigit_of_mem_repr hc))

/-- So are names that are made different from others. -/
theorem IsRead.unique {name : String} (h : IsRead name.toList) (taken : List String) :
    IsRead (unique name taken).toList :=
  h.candidate _

end ArtCanvas.Identifier
