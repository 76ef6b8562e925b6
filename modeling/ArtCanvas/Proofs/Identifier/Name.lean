import ArtCanvas.LayerName
import ArtCanvas.Proofs.Identifier.Unique

/-!
# The shape of names

Names of functions and patterns are made from free text, and then from each other by endings. All of
them have one shape: letters, digits and underscores, with a small letter or an underscore at the
start, and a letter or digit at the end.

* `Identifier.IsName`: the shape.
* `Identifier.isName_base`, `Identifier.IsName.append`, `Identifier.IsName.unique`: the ways to make
  names keep it.
* `Identifier.IsName.escape_inj`: a final underscore tells a reserved word from all names.
* `Identifier.IsName.escape_ne`: the words that no name is after it is escaped.
-/

namespace ArtCanvas.Identifier

/-- A character that names are made of. -/
def isWordChar (c : Char) : Bool := c.isAlphanum || c == '_'

/-- A character that names start with. -/
def isFirstChar (c : Char) : Bool := c.isLower || c == '_'

/-- The shape of names. -/
structure IsName (name : String) : Prop where
  word : name.toList.all isWordChar = true
  first : ∃ c cs, name.toList = c :: cs ∧ isFirstChar c = true
  last : ∃ c, name.toList.getLast? = some c ∧ c.isAlphanum = true

section Ascii

variable {c : Char}

/-- What holds of the ASCII letters and digits holds of all letters and digits. -/
theorem of_isAlphanum {p : Char → Prop}
    (h : ∀ n < 128, (Char.ofNat n).isAlphanum = true → p (Char.ofNat n))
    (hc : c.isAlphanum = true) : p c := by
  -- letters and digits are ASCII characters here, so a check of these is enough
  have hlt : c.toNat < 128 := by
    have hkinds : ((c.isUpper || c.isLower) || c.isDigit) = true := hc
    rw [Bool.or_eq_true, Bool.or_eq_true] at hkinds
    rcases hkinds with (hupper | hlower) | hdigit
    · have hle : c.val ≤ 'Z'.val := (of_decide_eq_true hupper).2
      exact Nat.lt_of_le_of_lt (UInt32.le_iff_toNat_le.mp hle) (by decide)
    · have hle : c.val ≤ 'z'.val := of_decide_eq_true (Bool.and_eq_true_iff.mp hlower).2
      exact Nat.lt_of_le_of_lt (UInt32.le_iff_toNat_le.mp hle) (by decide)
    · have hle : c.val ≤ '9'.val := of_decide_eq_true (Bool.and_eq_true_iff.mp hdigit).2
      exact Nat.lt_of_le_of_lt (UInt32.le_iff_toNat_le.mp hle) (by decide)
  have hp := h c.toNat hlt
  rw [Char.ofNat_toNat] at hp
  exact hp hc

theorem isAlphanum_of_isDigit (h : c.isDigit = true) : c.isAlphanum = true := by
  change (c.isAlpha || c.isDigit) = true
  rw [h, Bool.or_true]

theorem isAlphanum_of_isLower (h : c.isLower = true) : c.isAlphanum = true := by
  change ((c.isUpper || c.isLower) || c.isDigit) = true
  rw [h, Bool.or_true, Bool.true_or]

theorem isWordChar_of_isAlphanum (h : c.isAlphanum = true) : isWordChar c = true := by
  simp [isWordChar, h]

/-- Letters and digits stay so in upper case. -/
theorem isAlphanum_toUpper (h : c.isAlphanum = true) : c.toUpper.isAlphanum = true :=
  of_isAlphanum (p := fun c => c.toUpper.isAlphanum = true) (by decide +kernel) h

/-- What is neither a letter nor a digit has no small form. -/
theorem toLower_eq_self (h : c.isAlphanum ≠ true) : c.toLower = c :=
  dif_neg fun hupper => h <| by
    change ((c.isUpper || c.isLower) || c.isDigit) = true
    rw [show c.isUpper = true from decide_eq_true hupper, Bool.true_or, Bool.true_or]

/-- A letter is a small one in lower case. -/
theorem isLower_toLower (h : c.isAlphanum = true) (hdigit : c.isDigit = false) :
    c.toLower.isLower = true :=
  of_isAlphanum (p := fun c => c.isDigit = false → c.toLower.isLower = true) (by decide +kernel) h
    hdigit

end Ascii

theorem getLast?_append_underscore (front : String) :
    (front ++ "_").toList.getLast? = some '_' := by
  rw [String.toList_append]
  exact List.getLast?_concat

namespace IsName

variable {name name' : String}

/-- Letters and digits behind a name make another name. -/
theorem append (h : IsName name) {ending : String}
    (hending : ending.toList.all Char.isAlphanum = true) : IsName (name ++ ending) where
  word := by
    rw [String.toList_append, List.all_append, h.word, Bool.true_and, List.all_eq_true]
    exact fun c hc => isWordChar_of_isAlphanum (List.all_eq_true.mp hending c hc)
  first := by
    obtain ⟨c, cs, hname, hc⟩ := h.first
    exact ⟨c, cs ++ ending.toList, by rw [String.toList_append, hname, List.cons_append], hc⟩
  last := by
    rw [String.toList_append, List.getLast?_append]
    cases hlast : ending.toList.getLast? with
    | none => exact h.last
    | some c => exact ⟨c, rfl, List.all_eq_true.mp hending c (List.mem_of_getLast? hlast)⟩

/-- A name with a number behind it is still a name. -/
theorem candidate (h : IsName name) (n : Nat) : IsName (candidate name n) := by
  cases n with
  | zero => exact h
  | succ n =>
    rw [candidate_succ]
    exact h.append (List.all_eq_true.mpr fun c hc => isAlphanum_of_isDigit (isDigit_of_mem_repr hc))

/-- A name that is made different from others is still a name. -/
theorem unique (h : IsName name) (taken : List String) : IsName (unique name taken) :=
  h.candidate _

/-- A name does not end in an underscore. -/
theorem ne_append_underscore (h : IsName name) (front : String) : name ≠ front ++ "_" := by
  rintro rfl
  obtain ⟨c, hlast, hc⟩ := h.last
  rw [getLast?_append_underscore, Option.some.injEq] at hlast
  subst hlast
  exact absurd hc (by decide)

/-- A name that is escaped is no other name, escaped or not. -/
theorem escape_inj (h : IsName name) (h' : IsName name') (heq : escape name = escape name') :
    name = name' := by
  -- where one of the names is escaped, the other one would end in the underscore
  rcases escape_cases name with hname | hname <;> rcases escape_cases name' with hname' | hname' <;>
    rw [hname, hname'] at heq
  · exact (String.append_left_inj "_").mp heq
  · exact absurd heq.symm (h'.ne_append_underscore name)
  · exact absurd heq (h.ne_append_underscore name')
  · exact heq

end IsName

/-- Only letters and digits are kept. -/
theorem isAlphanum_of_mem_camelTail {gap : Bool} {cs : List Char} {c : Char}
    (hc : c ∈ camelTail gap cs) : c.isAlphanum = true := by
  induction cs generalizing gap with
  | nil => cases hc
  | cons d cs ih =>
    rw [camelTail] at hc
    split at hc
    next hd =>
      rcases List.mem_cons.mp hc with rfl | hc
      · split
        · exact isAlphanum_toUpper hd
        · exact hd
      · exact ih hc
    next => exact ih hc

/-- What is read off a text is a name, unless the text has no letter or digit. -/
theorem isName_camel {cs : List Char} (h : camel cs ≠ []) : IsName (String.ofList (camel cs)) := by
  induction cs with
  | nil => exact absurd rfl h
  | cons c cs ih =>
    rw [camel] at h ⊢
    split
    next hc =>
      rw [String.ofList_append]
      refine IsName.append ?_ (List.all_eq_true.mpr fun d hd => ?_)
      · -- the first letter is made small, and the first digit is put behind an underscore
        cases hdigit : c.isDigit with
        | true =>
          exact ⟨by simp [isWordChar, hc], ⟨'_', [c], by simp, by decide⟩, ⟨c, by simp, hc⟩⟩
        | false =>
          have hlower := isLower_toLower hc hdigit
          have halphanum := isAlphanum_of_isLower hlower
          exact ⟨by simp [isWordChar, halphanum],
            ⟨c.toLower, [], by simp, by simp [isFirstChar, hlower]⟩,
            ⟨c.toLower, by simp, halphanum⟩⟩
      · rw [String.toList_ofList] at hd
        exact isAlphanum_of_mem_camelTail hd
    next hc =>
      rw [if_neg hc] at h
      exact ih h

/-- What is read off a text is a name, if it is anything. -/
theorem isName_ofText {raw : String} (h : (ofText raw).isEmpty ≠ true) : IsName (ofText raw) := by
  refine isName_camel fun hnil => h ?_
  rw [ofText, hnil]
  rfl

/-- Any text gives a name, with a name in reserve. -/
theorem isName_ofTextOr {default : String} (hdefault : IsName default) (raw : String) :
    IsName (ofTextOr default raw) := by
  unfold ofTextOr
  dsimp only
  split
  · exact hdefault
  next hraw => exact isName_ofText hraw

/-- What a layer calls its function is a name, whatever the layer is called. -/
theorem isName_base (text : String) : IsName (LayerName.parse text).base := by
  have hdefault : IsName LayerName.defaultBase :=
    ⟨by decide, ⟨'d', ['r', 'a', 'w'], rfl, rfl⟩, ⟨'w', rfl, rfl⟩⟩
  unfold LayerName.parse
  split <;> dsimp only <;> exact isName_ofTextOr hdefault _

/-- Nothing that is escaped is a reserved word. -/
theorem escape_not_mem_reservedWords (name : String) : escape name ∉ reservedWords := by
  -- what is escaped ends in an underscore
  have hwords : ∀ word ∈ reservedWords, word.toList.getLast? ≠ some '_' := by decide +kernel
  by_cases hname : name ∈ reservedWords
  · rw [escape_of_mem hname]
    exact fun hmem => hwords _ hmem (getLast?_append_underscore name)
  · rwa [escape_of_not_mem hname]

/-- A name that is escaped is no reserved word, and no word that begins in another way than names
do. -/
theorem IsName.escape_ne {name word : String} (h : IsName name)
    (hword : word ∈ reservedWords ∨ word.toList.head?.any isFirstChar = false) :
    escape name ≠ word := by
  rintro rfl
  rcases hword with hreserved | hcapital
  · exact escape_not_mem_reservedWords name hreserved
  · -- escaping leaves the first letter alone
    obtain ⟨c, cs, hchars, hc⟩ := h.first
    have hfirst : (escape name).toList.head? = some c := by
      rcases escape_cases name with hname | hname
      · rw [hname, String.toList_append, hchars]
        rfl
      · rw [hname, hchars]
        rfl
    rw [hfirst, Option.any_some, hc] at hcapital
    cases hcapital

end ArtCanvas.Identifier
