import ArtCanvas.LayerName
import ArtCanvas.Proofs.Text.Pieces

/-!
# The grammar of layer names

A layer name may end in a list of options. The list stands between the last opening parenthesis of
the name and a closing one, behind which there is nothing but white space and at most one semicolon.
Reading a layer name takes these parts off one after the other, from the end; this module says which
names have such a list in terms of the whole text, and what is read off them.

* `LayerName.Carries`: the text of a layer name with an option list, put together from its parts.
* `LayerName.exists_dropEnding_append`, `LayerName.dropEnding_append`: what may stand behind the
  closing parenthesis is what is taken off first.
* `LayerName.cutOptions_eq_some_iff`: the parts that are found are those of the text.
* `LayerName.optionsOfList_intercalate`: the options of a list of pieces.
* `LayerName.parse_grammar`: which names have an option list, what is read off any name, and that a
  list of options can be written down and read.
-/

namespace ArtCanvas

open Text

namespace LayerName

/-- What may stand behind an option list: white space, with at most one semicolon in it. -/
def IsEnding (ending : List Char) : Prop :=
  (∀ c ∈ ending, isBlank c = true ∨ c = ';') ∧ ending.count ';' ≤ 1

/-- A layer name with an option list: the list stands behind the last opening parenthesis, and the
closing parenthesis behind the list ends the name, up to white space and one semicolon. -/
structure Carries (name base list ending : String) : Prop where
  text : name = base ++ "(" ++ list ++ ")" ++ ending
  list : '(' ∉ list.toList
  ending : IsEnding ending.toList

/-- What a text calls a function: its identifier, or `draw` if that is empty. -/
def calledBy (text : String) : String :=
  if Identifier.ofText text = "" then "draw" else Identifier.ofText text

/-- The pieces of a list between semicolons. -/
structure Pieces (list : String) (pieces : List String) : Prop where
  ne_nil : pieces ≠ []
  joined : ";".intercalate pieces = list
  whole : ∀ piece ∈ pieces, ';' ∉ piece.toList

section Ending

variable {before after : List Char}

/-- White space holds no semicolon. -/
theorem count_semicolon_of_blank (h : ∀ c ∈ before, isBlank c = true) : before.count ';' = 0 := by
  refine List.count_eq_zero.mpr fun hmem => ?_
  have hblank : isBlank ';' = true := h _ hmem
  exact absurd hblank (by decide)

theorem isEnding_of_blank (h : ∀ c ∈ before, isBlank c = true) : IsEnding before := by
  refine ⟨fun c hc => Or.inl (h c hc), ?_⟩
  have hcount := count_semicolon_of_blank h
  omega

theorem isEnding_semicolon (hbefore : ∀ c ∈ before, isBlank c = true)
    (hafter : ∀ c ∈ after, isBlank c = true) : IsEnding (before ++ ';' :: after) := by
  refine ⟨fun c hc => ?_, ?_⟩
  · rcases List.mem_append.mp hc with hc | hc
    · exact Or.inl (hbefore c hc)
    · rcases List.mem_cons.mp hc with rfl | hc
      · exact Or.inr rfl
      · exact Or.inl (hafter c hc)
  · -- the semicolon in the middle is the only one
    have hcountBefore := count_semicolon_of_blank hbefore
    have hcountAfter := count_semicolon_of_blank hafter
    rw [List.count_append, List.count_cons_self]
    omega

/-- An ending is white space, or a semicolon between white space. -/
theorem IsEnding.cases {ending : List Char} (h : IsEnding ending) :
    (∀ c ∈ ending, isBlank c = true) ∨ ∃ before after, ending = before ++ ';' :: after ∧
      (∀ c ∈ before, isBlank c = true) ∧ ∀ c ∈ after, isBlank c = true := by
  obtain ⟨hchars, hcount⟩ := h
  by_cases hmem : ';' ∈ ending
  · -- one semicolon is counted, so that there is none on either side of it
    obtain ⟨before, after, rfl⟩ := List.append_of_mem hmem
    rw [List.count_append, List.count_cons_self] at hcount
    have hbefore : ';' ∉ before := List.count_eq_zero.mp (by omega)
    have hafter : ';' ∉ after := List.count_eq_zero.mp (by omega)
    refine Or.inr ⟨before, after, rfl, fun c hc => ?_, fun c hc => ?_⟩
    · exact (hchars c (by simp [hc])).resolve_right fun heq => hbefore (heq ▸ hc)
    · exact (hchars c (by simp [hc])).resolve_right fun heq => hafter (heq ▸ hc)
  · exact Or.inl fun c hc => (hchars c hc).resolve_right fun heq => hmem (heq ▸ hc)

/-- What is taken off the end of a layer name is an ending. -/
theorem exists_dropEnding_append (cs : List Char) :
    ∃ ending, IsEnding ending ∧ cs = dropEnding cs ++ ending := by
  obtain ⟨after, hafter, hcs⟩ := exists_dropEnd_append isBlank cs
  rw [dropEnding]
  cases hlast : dropLast? ';' (dropEnd isBlank cs) with
  | none =>
    -- no semicolon: white space is taken off twice
    obtain ⟨before, hbefore, hbody⟩ := exists_dropEnd_append isBlank (dropEnd isBlank cs)
    refine ⟨before ++ after, isEnding_of_blank fun c hc => ?_, ?_⟩
    · exact (List.mem_append.mp hc).elim (hbefore c) (hafter c)
    · rw [Option.getD_none, ← List.append_assoc, ← hbody]
      exact hcs
  | some rest =>
    obtain ⟨before, hbefore, hrest⟩ := exists_dropEnd_append isBlank rest
    refine ⟨before ++ ';' :: after, isEnding_semicolon hbefore hafter, ?_⟩
    rw [Option.getD_some, ← List.append_assoc, ← hrest]
    rw [dropLast?_eq_some_iff.mp hlast, List.append_assoc] at hcs
    exact hcs

/-- A closing parenthesis is not taken off, and what may stand behind it is. -/
theorem dropEnding_append {ending : List Char} (h : IsEnding ending) (front : List Char) :
    dropEnding (front ++ [')'] ++ ending) = front ++ [')'] := by
  have hstays : dropEnd isBlank (front ++ [')']) = front ++ [')'] :=
    dropEnd_concat (by decide) front
  rw [dropEnding]
  rcases h.cases with hblank | ⟨before, after, rfl, hbefore, hafter⟩
  · have hlast : dropLast? ';' (front ++ [')']) = none := by simp [dropLast?]
    rw [dropEnd_append hblank, hstays, hlast, Option.getD_none, hstays]
  · have hparts : front ++ [')'] ++ (before ++ ';' :: after) =
        front ++ [')'] ++ before ++ [';'] ++ after := by simp
    rw [hparts, dropEnd_append hafter, dropEnd_concat (by decide), dropLast?_eq_some_iff.mpr rfl,
      Option.getD_some, dropEnd_append hbefore, hstays]

end Ending

/-- The text before an option list and the list, as they are found, are those that a layer name is
put together from. -/
theorem cutOptions_eq_some_iff {cs base list : List Char} :
    cutOptions cs = some (base, list) ↔
      '(' ∉ list ∧ ∃ ending, IsEnding ending ∧ cs = base ++ '(' :: list ++ [')'] ++ ending := by
  rw [cutOptions, Option.bind_eq_some_iff]
  constructor
  · rintro ⟨body, hbody, hcut⟩
    obtain ⟨rfl, hlist⟩ := cutLast_eq_some_iff.mp hcut
    obtain ⟨ending, hending, hcs⟩ := exists_dropEnding_append cs
    rw [dropLast?_eq_some_iff.mp hbody] at hcs
    exact ⟨hlist, ending, hending, hcs⟩
  · rintro ⟨hlist, ending, hending, rfl⟩
    refine ⟨base ++ '(' :: list, ?_, cutLast_eq_some_iff.mpr ⟨rfl, hlist⟩⟩
    rw [dropEnding_append hending, dropLast?_eq_some_iff]

section Options

variable {list : String} {pieces : List String}

/-- Every list has pieces. -/
theorem exists_pieces (list : String) : ∃ pieces, Pieces list pieces := by
  refine ⟨(splitAt ';' list.toList).map String.ofList, ?_, ?_, ?_⟩
  · exact mt List.map_eq_nil_iff.mp (splitAt_ne_nil ';' list.toList)
  · rw [← String.toList_inj, String.toList_intercalate, List.map_map]
    have hchars : String.toList ∘ String.ofList = id := funext fun _ => String.toList_ofList
    rw [hchars, List.map_id]
    exact intercalate_splitAt ';' list.toList
  · intro piece hpiece
    obtain ⟨cs, hcs, rfl⟩ := List.mem_map.mp hpiece
    rw [String.toList_ofList]
    exact not_mem_of_mem_splitAt hcs

/-- The options of a list are its pieces without white space around them, apart from the empty
ones. -/
theorem Pieces.optionsOfList_eq (h : Pieces list pieces) :
    optionsOfList list.toList = (pieces.map trim).filter (· ≠ "") := by
  have hsplit : splitAt ';' list.toList = pieces.map String.toList := by
    rw [← h.joined, String.toList_intercalate]
    exact splitAt_intercalate (mt List.map_eq_nil_iff.mp h.ne_nil) (List.forall_mem_map.mpr h.whole)
  rw [optionsOfList, hsplit, List.map_map]
  -- piece by piece, a piece is left out of either side exactly if it is white space
  clear h hsplit
  induction pieces with
  | nil => rfl
  | cons piece pieces ih =>
    rw [List.map_cons, List.map_cons, List.filterMap_cons, ih, Function.comp_apply, trim]
    by_cases hempty : trimChars piece.toList = []
    · simp [hempty]
    · simp [hempty]

/-- Options that are written down in a list are the options of the list. -/
theorem optionsOfList_intercalate {options : List String}
    (h : ∀ option ∈ options, option ≠ "" ∧ trim option = option ∧ ';' ∉ option.toList) :
    optionsOfList (";".intercalate options).toList = options := by
  by_cases hnil : options = []
  · rw [hnil]
    rfl
  · have hpieces : Pieces (";".intercalate options) options :=
      ⟨hnil, rfl, fun option hoption => (h option hoption).2.2⟩
    have htrim : options.map trim = options := by
      conv_rhs => rw [← List.map_id options]
      exact List.map_congr_left fun option hoption => (h option hoption).2.1
    rw [hpieces.optionsOfList_eq, htrim, List.filter_eq_self]
    exact fun option hoption => decide_eq_true (h option hoption).1

end Options

section Parts

variable {name base list ending : String}

theorem ofTextOr_defaultBase (text : String) :
    Identifier.ofTextOr defaultBase text = calledBy text := by
  rw [Identifier.ofTextOr, calledBy]
  simp only [String.isEmpty_iff]
  rfl

/-- A layer name has an option list exactly if its text is put together from one. -/
theorem cutOptions_toList_iff : cutOptions name.toList = some (base.toList, list.toList) ↔
    ∃ ending, Carries name base list ending := by
  rw [cutOptions_eq_some_iff]
  constructor
  · rintro ⟨hlist, ending, hending, hname⟩
    refine ⟨String.ofList ending, ?_, hlist, by rwa [String.toList_ofList]⟩
    rw [← String.toList_inj, hname]
    simp
  · rintro ⟨ending, rfl, hlist, hending⟩
    exact ⟨hlist, ending.toList, hending, by simp⟩

/-- What is read off a layer name with an option list. -/
theorem Carries.parse_eq (h : Carries name base list ending) :
    parse name = { base := calledBy base, options := optionsOfList list.toList
                   hasOptions := true } := by
  rw [parse, cutOptions_toList_iff.mpr ⟨ending, h⟩]
  dsimp only
  rw [String.ofList_toList, ofTextOr_defaultBase]

/-- What is read off any other layer name. -/
theorem parse_eq_of_not_carries (h : ¬ ∃ base list ending, Carries name base list ending) :
    parse name = { base := calledBy name, options := [], hasOptions := false } := by
  have hcut : cutOptions name.toList = none := by
    cases hcut : cutOptions name.toList with
    | none => rfl
    | some parts =>
      refine absurd ⟨String.ofList parts.1, String.ofList parts.2, ?_⟩ h
      rw [← cutOptions_toList_iff, String.toList_ofList, String.toList_ofList]
      exact hcut
  rw [parse, hcut]
  dsimp only
  rw [ofTextOr_defaultBase]

theorem hasOptions_iff : (parse name).hasOptions = true ↔
    ∃ base list ending, Carries name base list ending := by
  by_cases hcarries : ∃ base list ending, Carries name base list ending
  · obtain ⟨base, list, ending, h⟩ := hcarries
    rw [h.parse_eq]
    exact iff_of_true rfl ⟨base, list, ending, h⟩
  · rw [parse_eq_of_not_carries hcarries]
    exact iff_of_false Bool.false_ne_true hcarries

end Parts

/-- The layer names, and what is read off them. A name has an option list exactly if it is put
together from a text, a list in parentheses without an opening one, and an ending of white space and
at most one semicolon. Then the text says what the function is called, and the options are the
pieces of the list between semicolons, in their order, without white space around them and without
the empty ones. Otherwise the whole name says what the function is called, and there are no options.
So any options without white space around them, without opening parentheses and without semicolons
can be written behind any text, and are read again. -/
theorem parse_grammar :
    (∀ name, (parse name).hasOptions = true ↔ ∃ base list ending, Carries name base list ending) ∧
      (∀ name base list ending, Carries name base list ending →
        (parse name).base = calledBy base ∧ (∃ pieces, Pieces list pieces) ∧
          ∀ pieces, Pieces list pieces →
            (parse name).options = (pieces.map trim).filter (· ≠ "")) ∧
      (∀ name, (parse name).hasOptions = false →
        (parse name).base = calledBy name ∧ (parse name).options = []) ∧
      ∀ (base ending : String) (options : List String), IsEnding ending.toList →
        (∀ option ∈ options, option ≠ "" ∧ trim option = option ∧ '(' ∉ option.toList ∧
          ';' ∉ option.toList) →
        parse (base ++ "(" ++ ";".intercalate options ++ ")" ++ ending) =
          { base := calledBy base, options, hasOptions := true } := by
  refine ⟨fun _ => hasOptions_iff, ?_, ?_, ?_⟩
  · intro name base list ending h
    rw [h.parse_eq]
    exact ⟨rfl, exists_pieces list, fun pieces hpieces => hpieces.optionsOfList_eq⟩
  · intro name hnone
    have hcarries : ¬ ∃ base list ending, Carries name base list ending := by
      rw [← hasOptions_iff, hnone]
      exact Bool.false_ne_true
    rw [parse_eq_of_not_carries hcarries]
    exact ⟨rfl, rfl⟩
  · intro base ending options hending hoptions
    -- neither the options nor the semicolons between them open a parenthesis
    have hlist : '(' ∉ (";".intercalate options).toList := by
      rw [String.toList_intercalate]
      intro hmem
      obtain hbetween | ⟨part, hpart, hmem⟩ := mem_intercalate hmem
      · exact absurd hbetween (by decide)
      · obtain ⟨option, hoption, rfl⟩ := List.mem_map.mp hpart
        exact (hoptions option hoption).2.2.1 hmem
    have hcarries : Carries (base ++ "(" ++ ";".intercalate options ++ ")" ++ ending) base
        (";".intercalate options) ending := ⟨rfl, hlist, hending⟩
    rw [hcarries.parse_eq, optionsOfList_intercalate fun option hoption =>
      ⟨(hoptions option hoption).1, (hoptions option hoption).2.1, (hoptions option hoption).2.2.2⟩]

/-- A name with other parentheses in front of its list, an empty option, and a semicolon between
white space behind it is read as its parts. A name with two semicolons behind what could be a list
has no options. And a list is read off the name that it is written behind. -/
theorem parse_grammar_oldShape :
    Carries "shape (old) (crop:yes ;; t:a) ; " "shape (old) " "crop:yes ;; t:a" " ; " ∧
      Pieces "crop:yes ;; t:a" ["crop:yes ", "", " t:a"] ∧
      (parse "shape (old) (crop:yes ;; t:a) ; ").base = "shapeOld" ∧
      (parse "shape (old) (crop:yes ;; t:a) ; ").options = ["crop:yes", "t:a"] ∧
      (parse "ball(t:a);;").hasOptions = false ∧ (parse "ball(t:a);;").base = "ballTA" ∧
      parse ("9 lives" ++ "(" ++ ";".intercalate ["t:a", "x)y"] ++ ")" ++ ";\n") =
        { base := "_9Lives", options := ["t:a", "x)y"], hasOptions := true } := by
  obtain ⟨-, hparts, hnone, hwritten⟩ := parse_grammar
  have hcarries : Carries "shape (old) (crop:yes ;; t:a) ; " "shape (old) " "crop:yes ;; t:a"
      " ; " := ⟨by decide, by decide, by simp [isBlank, blankRanges], by decide⟩
  have hpieces : Pieces "crop:yes ;; t:a" ["crop:yes ", "", " t:a"] :=
    ⟨by decide, by decide, by simp⟩
  have htwo : (parse "ball(t:a);;").hasOptions = false := by decide +kernel
  obtain ⟨hbase, -, hoptions⟩ := hparts _ _ _ _ hcarries
  refine ⟨hcarries, hpieces, hbase.trans (by decide), (hoptions _ hpieces).trans (by decide), htwo,
    (hnone _ htwo).1.trans (by decide), ?_⟩
  exact hwritten "9 lives" ";\n" ["t:a", "x)y"] ⟨by simp [isBlank, blankRanges], by decide⟩
    (by simp [trim, trimChars, stripChars, dropEnd, isBlank, blankRanges])

end LayerName

end ArtCanvas
