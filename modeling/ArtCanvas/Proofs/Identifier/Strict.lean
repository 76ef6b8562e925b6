import ArtCanvas.Proofs.Identifier.Name

/-!
# Names of a strict module

Scripts are modules, and modules are always strict: besides the keywords and literals of the
language, they may not declare a few words that other scripts may. `escape` keeps names clear of
the words in `reservedWords`, but eight of the words of a strict module are not among these.

* `Identifier.IsStrictBinding`: a name that a strict module may declare.
* `Identifier.escape_mem_strictWords_iff`: when an escaped name is a word that it may not declare.
* `Identifier.isStrictBinding_iff`: the function of a layer has a name that a strict module may
  declare, unless the layer is called by one of the eight words and that is not taken yet.
-/

namespace ArtCanvas.Identifier

/-- Keywords and literals of the language, the word that it keeps for later editions, and four words
that are keywords in modules. -/
def keywords : List String :=
  ["break", "case", "catch", "class", "const", "continue", "debugger", "default", "delete", "do",
    "else", "enum", "export", "extends", "false", "finally", "for", "function", "if", "import",
    "in", "instanceof", "new", "null", "return", "super", "switch", "this", "throw", "true", "try",
    "typeof", "var", "void", "while", "with", "let", "static", "yield", "await"]

/-- The words of a strict module that names are not kept clear of: six that strict code keeps for
later editions, and two names that it may use but not declare. -/
def uncheckedWords : List String :=
  ["implements", "interface", "package", "private", "protected", "public", "eval", "arguments"]

/-- The words that a strict module may not declare. -/
def strictWords : List String := keywords ++ uncheckedWords

/-- A name of ASCII letters, digits and underscores that does not begin with a digit. -/
structure IsIdentifier (name : String) : Prop where
  first : ∃ c cs, name.toList = c :: cs ∧ (c.isAlpha || c == '_') = true
  word : name.toList.all isWordChar = true

/-- A name that a strict module may declare. -/
structure IsStrictBinding (name : String) : Prop where
  identifier : IsIdentifier name
  not_word : name ∉ strictWords

theorem keywords_prefix_reservedWords : keywords <+: reservedWords :=
  ⟨["bounds", "drawFrame", "drawPatterns", "render", "timing", "clocks", "updateClocks",
    "bounceOut", "inOut", "cubic", "cubicSlope", "document", "canvas"], rfl⟩

theorem mem_uncheckedWords_iff {word : String} :
    word ∈ uncheckedWords ↔ word ∈ strictWords ∧ word ∉ reservedWords := by
  have hfree : ∀ word ∈ uncheckedWords, word ∉ reservedWords := by
    simp [uncheckedWords, reservedWords]
  rw [strictWords, List.mem_append]
  constructor
  · exact fun h => ⟨Or.inr h, hfree word h⟩
  · rintro ⟨hkeyword | hunchecked, hreserved⟩
    · exact absurd (keywords_prefix_reservedWords.subset hkeyword) hreserved
    · exact hunchecked

/-- Neither a digit nor an underscore ends a word that is not checked. -/
theorem getLast?_uncheckedWord {word : String} (h : word ∈ uncheckedWords) :
    ∃ c, word.toList.getLast? = some c ∧ c.isDigit = false ∧ c ≠ '_' := by
  have hall : ∀ word ∈ uncheckedWords,
      ∃ c, word.toList.getLast? = some c ∧ c.isDigit = false ∧ c ≠ '_' := by
    simp [uncheckedWords]
  exact hall word h

/-- A name is an identifier, and stays one when it is escaped. -/
theorem IsName.isIdentifier_escape {name : String} (h : IsName name) :
    IsIdentifier (escape name) := by
  obtain ⟨c, cs, hchars, hc⟩ := h.first
  have hfirst : (c.isAlpha || c == '_') = true := by
    rw [isFirstChar, Bool.or_eq_true] at hc
    rcases hc with hlower | hunderscore
    · change ((c.isUpper || c.isLower) || c == '_') = true
      rw [hlower, Bool.or_true, Bool.true_or]
    · rw [hunderscore, Bool.or_true]
  rcases escape_cases name with hname | hname <;> rw [hname]
  · refine ⟨⟨c, cs ++ ['_'], by rw [String.toList_append, hchars]; rfl, hfirst⟩, ?_⟩
    rw [String.toList_append, List.all_append, h.word]
    rfl
  · exact ⟨⟨c, cs, hchars, hfirst⟩, h.word⟩

/-- A form with a number is not one of the words. -/
theorem candidate_succ_not_mem_uncheckedWords (base : String) (n : Nat) :
    candidate base (n + 1) ∉ uncheckedWords := by
  intro hmem
  obtain ⟨c, hlast, hdigit, -⟩ := getLast?_uncheckedWord hmem
  -- the number ends in a digit
  rw [candidate_succ, String.toList_append, List.getLast?_append_of_ne_nil _ ?_] at hlast
  · rw [isDigit_of_mem_repr (List.mem_of_getLast? hlast)] at hdigit
    cases hdigit
  · exact fun hnil => Nat.repr_ne_empty (String.toList_eq_nil_iff.mp hnil)

/-- A name that is made is one of the words only if it was asked for and is free. -/
theorem unique_mem_uncheckedWords_iff {base : String} {taken : List String} :
    unique base taken ∈ uncheckedWords ↔ base ∈ uncheckedWords ∧ base ∉ taken := by
  obtain ⟨n, heq, hfree, hbefore⟩ := exists_unique_eq_candidate base taken
  rw [heq]
  cases n with
  | zero => exact (and_iff_left hfree).symm
  | succ n =>
    refine iff_of_false (candidate_succ_not_mem_uncheckedWords base n) fun h => ?_
    exact h.2 (hbefore 0 n.succ_pos)

/-- An escaped name is a word of a strict module exactly if the name is one that is not checked. -/
theorem escape_mem_strictWords_iff {name : String} :
    escape name ∈ strictWords ↔ name ∈ uncheckedWords := by
  constructor
  · intro hmem
    have hunchecked := mem_uncheckedWords_iff.mpr ⟨hmem, escape_not_mem_reservedWords name⟩
    -- a word that is not checked does not end in the underscore of an escaped name
    obtain ⟨c, hlast, -, hc⟩ := getLast?_uncheckedWord hunchecked
    rcases escape_cases name with hname | hname
    · rw [hname, getLast?_append_underscore, Option.some.injEq] at hlast
      exact absurd hlast.symm hc
    · rwa [hname] at hunchecked
  · intro hmem
    obtain ⟨hstrict, hreserved⟩ := mem_uncheckedWords_iff.mp hmem
    rwa [escape_of_not_mem hreserved]

/-- Whatever text a layer has for a name and whatever names are taken, the function of the layer is
declared as an identifier, and as one that a strict module may declare, except in one case: the
layer is called by one of eight words, and no function has that name yet. -/
theorem isStrictBinding_iff (text : String) (taken : List String) :
    IsIdentifier (escape (unique (LayerName.parse text).base taken)) ∧
      (IsStrictBinding (escape (unique (LayerName.parse text).base taken)) ↔
        ¬((LayerName.parse text).base ∈ uncheckedWords ∧ (LayerName.parse text).base ∉ taken)) := by
  have hidentifier := ((isName_base text).unique taken).isIdentifier_escape
  refine ⟨hidentifier, ?_⟩
  rw [← unique_mem_uncheckedWords_iff, ← escape_mem_strictWords_iff]
  exact ⟨fun h => h.not_word, fun h => ⟨hidentifier, h⟩⟩

/-- A layer with such a name has a function that a strict module may not declare, though a layer
with a name that is kept clear of has one that it may. -/
theorem not_isStrictBinding_package :
    ¬IsStrictBinding (escape (unique (LayerName.parse "package").base [])) ∧
      escape (unique (LayerName.parse "static").base []) = "static_" := by
  have hbase : (LayerName.parse "package").base = "package" := by decide +kernel
  refine ⟨fun h => h.not_word ?_, by decide +kernel⟩
  rw [hbase]
  decide

end ArtCanvas.Identifier
