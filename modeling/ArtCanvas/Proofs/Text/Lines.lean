import ArtCanvas.Proofs.LayerName.Grammar
import ArtCanvas.Proofs.Text.Cleaning

/-!
# Lines of scripts and remarks

A remark in a script ends with its line. So text that goes on after a line end leaves the remark,
unless the next line is a remark of its own.

* `Text.scriptLines`: the lines of a script, ended as the language of scripts ends them.
* `Text.RemarksOnly`: nothing but remarks and blank lines.
* `Text.remarksOnly_lines_iff`: lines that are written as remarks are remarks only if they go on in
  remarks after each line end of their own.
* `Text.OneLine`: text without a line end. Names are on one line, and so is all that layer names are
  cut into, if they are themselves.
-/

namespace ArtCanvas

namespace Text

/-! ### Line ends -/

/-- The code points that end a line of a script: line feed, carriage return, and the two separators
of lines and paragraphs. -/
def lineEnds : List Nat := [0x0A, 0x0D, 0x2028, 0x2029]

/-- Whether a character ends a line. -/
def endsLine (c : Char) : Bool := lineEnds.contains c.toNat

/-- The lines of a script. What stands behind the last line end is a line as well. -/
def scriptLines (s : String) : List (List Char) := s.toList.splitOnP endsLine

/-- The line is blank, or a remark from its first character on. -/
def IsRemark (line : List Char) : Prop :=
  (∀ c ∈ line, isBlank c = true) ∨ ['/', '/'] <+: line

-- the tests go along the text, and not through all characters there are

/-- Whether a line is a remark is seen at its start. -/
instance (line : List Char) : Decidable (IsRemark line) :=
  decidable_of_iff ((line.all isBlank || ['/', '/'].isPrefixOf line) = true) (by simp [IsRemark])

/-- Nothing but remarks and blank lines. -/
def RemarksOnly (s : String) : Prop := ∀ line ∈ scriptLines s, IsRemark line

/-- After its first line the text is nothing but remarks and blank lines. -/
def GoesOnInRemarks (s : String) : Prop := ∀ line ∈ (scriptLines s).tail, IsRemark line

/-- Whether a text has remarks only is found out line by line. -/
instance (s : String) : Decidable (RemarksOnly s) :=
  decidable_of_iff ((scriptLines s).all (fun line => decide (IsRemark line)) = true)
    (by simp [RemarksOnly])

/-- Whether a text goes on in remarks is found out line by line. -/
instance (s : String) : Decidable (GoesOnInRemarks s) :=
  decidable_of_iff ((scriptLines s).tail.all (fun line => decide (IsRemark line)) = true)
    (by simp [GoesOnInRemarks])

/-- The text has no line end. -/
def OneLine (s : String) : Prop := ∀ c ∈ s.toList, endsLine c = false

/-- Whether a text is one line is found out character by character. -/
instance (s : String) : Decidable (OneLine s) :=
  decidable_of_iff (s.toList.all (fun c => !endsLine c) = true) (by simp [OneLine])

variable {s t : String}

/-- A text is one line if both its parts are. -/
@[simp]
theorem oneLine_append : OneLine (s ++ t) ↔ OneLine s ∧ OneLine t := by
  simp [OneLine, or_imp, forall_and]

/-- One line does not leave the remark that it is put into. -/
theorem OneLine.goesOnInRemarks (h : OneLine s) : GoesOnInRemarks s := by
  unfold GoesOnInRemarks scriptLines
  rw [List.splitOnP_eq_singleton h]
  simp

/-- A line feed between two texts is the end of a line. -/
theorem scriptLines_append_lineFeed (s t : String) :
    scriptLines (s ++ "\n" ++ t) = scriptLines s ++ scriptLines t := by
  unfold scriptLines
  rw [String.toList_append, String.toList_append, List.append_assoc]
  exact List.splitOnP_append_cons _ _ (by decide)

/-- Two texts with a line feed between them have remarks only if both have. -/
theorem remarksOnly_append_lineFeed :
    RemarksOnly (s ++ "\n" ++ t) ↔ RemarksOnly s ∧ RemarksOnly t := by
  unfold RemarksOnly
  rw [scriptLines_append_lineFeed]
  exact List.forall_mem_append

theorem remarksOnly_empty : RemarksOnly "" := by decide

/-- Text on one line in front of another text goes into its first line. -/
theorem scriptLines_append (h : OneLine s) (t : String) :
    scriptLines (s ++ t) = (scriptLines t).modifyHead (s.toList ++ ·) := by
  unfold OneLine at h
  unfold scriptLines
  rw [String.toList_append]
  generalize s.toList = front at h ⊢
  -- the characters in front go into the first line one by one, the last of them first
  induction front with
  | nil => exact congrFun List.modifyHead_id.symm _
  | cons c cs ih =>
    obtain ⟨hc, hcs⟩ := List.forall_mem_cons.mp h
    rw [List.cons_append, List.splitOnP_cons_eq_if_modifyHead, hc, ih hcs,
      if_neg Bool.false_ne_true, List.modifyHead_modifyHead]
    rfl

/-- Behind one line, it depends on the rest. -/
theorem goesOnInRemarks_append (h : OneLine s) :
    GoesOnInRemarks (s ++ t) ↔ GoesOnInRemarks t := by
  unfold GoesOnInRemarks
  rw [scriptLines_append h, List.tail_modifyHead]

/-- What is written as a remark is nothing but remarks if it goes on in remarks. -/
theorem remarksOnly_remark_iff : RemarksOnly ("// " ++ s) ↔ GoesOnInRemarks s := by
  have hfront : OneLine "// " := by decide
  unfold RemarksOnly GoesOnInRemarks
  rw [scriptLines_append hfront]
  -- the first line begins with the slashes, so only those behind it matter
  cases scriptLines s with
  | nil => simp
  | cons first later =>
    rw [List.modifyHead_cons, List.forall_mem_cons, List.tail_cons]
    exact and_iff_right (Or.inr ⟨' ' :: first, rfl⟩)

/-- Lines that are written as remarks, one after the other, are nothing but remarks if each of them
goes on in remarks. -/
theorem remarksOnly_lines_iff (lines : List String) :
    RemarksOnly (String.join (lines.map fun line => "// " ++ line ++ "\n")) ↔
      ∀ line ∈ lines, GoesOnInRemarks line := by
  induction lines with
  | nil => simpa using remarksOnly_empty
  | cons line lines ih =>
    rw [List.map_cons, String.join_cons, remarksOnly_append_lineFeed, remarksOnly_remark_iff, ih,
      List.forall_mem_cons]

/-! ### Text on one line -/

/-- A text made of the characters of one line is one line. -/
theorem OneLine.of_subset (h : OneLine s) (hsub : t.toList ⊆ s.toList) : OneLine t :=
  fun c hc => h c (hsub hc)

/-- Letters, digits and underscores end no line. -/
theorem endsLine_of_isWordChar {c : Char} (h : Identifier.isWordChar c = true) :
    endsLine c = false := by
  rcases (Bool.or_eq_true _ _).mp h with halphanum | hunderscore
  · exact Identifier.of_isAlphanum (p := fun c => endsLine c = false) (by decide +kernel) halphanum
  · rw [beq_iff_eq.mp hunderscore]
    decide

/-- A name is one line. -/
theorem oneLine_of_isName {name : String} (h : Identifier.IsName name) : OneLine name :=
  fun c hc => endsLine_of_isWordChar (List.all_eq_true.mp h.word c hc)

/-- A number is written on one line. -/
theorem oneLine_toString (n : Nat) : OneLine (toString n) := fun _ hc =>
  endsLine_of_isWordChar
    (Identifier.isWordChar_of_isAlphanum
      (Identifier.isAlphanum_of_isDigit (Identifier.isDigit_of_mem_repr hc)))

/-- Small letters end no more lines than capital ones. -/
theorem OneLine.lower (h : OneLine s) : OneLine (lower s) := by
  intro c hc
  rw [toList_lower] at hc
  obtain ⟨d, hd, rfl⟩ := List.mem_map.mp hc
  by_cases halphanum : d.isAlphanum = true
  · exact Identifier.of_isAlphanum (p := fun c => endsLine c.toLower = false) (by decide +kernel)
      halphanum
  · -- all else is kept
    rw [Identifier.toLower_eq_self halphanum]
    exact h d hd

/-! ### Parts of text -/

/-- Trimming adds no character. -/
theorem trimChars_subset (cs : List Char) : trimChars cs ⊆ cs :=
  (isInfix_stripChars isBlank cs).subset

/-- Nor does cleaning. -/
theorem cleanChars_subset (cs : List Char) : cleanChars cs ⊆ cs := (isInfix_cleanChars cs).subset

end Text

/-! ### Parts of layer names -/

namespace LayerName

open Text

/-- An option is a part of the layer name. -/
theorem subset_of_mem_options {name option : String} (h : option ∈ (parse name).options) :
    option.toList ⊆ name.toList := by
  unfold parse at h
  split at h
  next base list hcut =>
    obtain ⟨piece, hpiece, hoption⟩ := List.mem_filterMap.mp h
    obtain ⟨raw, hraw, rfl⟩ := List.mem_map.mp hpiece
    split at hoption
    · cases hoption
    · cases hoption
      rw [String.toList_ofList]
      -- cut out of the name, of the list in it, and of the piece between two semicolons
      obtain ⟨-, ending, -, hname⟩ := cutOptions_eq_some_iff.mp hcut
      have hlist : list ⊆ name.toList := by
        rw [hname]
        intro c hc
        simp [hc]
      exact List.Subset.trans (trimChars_subset raw)
        (List.Subset.trans (subset_of_mem_splitAt hraw) hlist)
  · cases h

end LayerName

/-- The key and the value of an option on one line are on one line. -/
theorem oneLine_of_splitOption {option key value : String} (h : Text.OneLine option)
    (hsplit : splitOption option = some (key, value)) : Text.OneLine key ∧ Text.OneLine value := by
  obtain ⟨name, raw, rfl, -, rfl, -, rfl⟩ := splitOption_eq_some_iff.mp hsplit
  refine ⟨Text.OneLine.lower (h.of_subset ?_), h.of_subset ?_⟩
  · rw [Text.toList_clean]
    intro c hc
    simp [Text.cleanChars_subset _ hc]
  · rw [Text.toList_clean]
    intro c hc
    simp [Text.cleanChars_subset _ hc]

end ArtCanvas
