import ArtCanvas.Text.Blank

/-!
# Identifiers

Layer, symbol and function names are free text. `Identifier.ofText` turns such text into a
camel-cased ASCII identifier, `Identifier.unique` makes a name differ from a list of taken ones by a
numeric ending, and `Identifier.escape` keeps a name clear of the words a script reserves.
-/

namespace ArtCanvas.Identifier

/-- The letters and digits after the first one: a character that follows a gap is capitalised.
`gap` says whether separators stand just before `cs`. -/
def camelTail (gap : Bool) : List Char → List Char
  | [] => []
  | c :: cs =>
    if c.isAlphanum then (if gap then c.toUpper else c) :: camelTail false cs
    else camelTail true cs

/-- The camel-cased form of `cs`: separators before the first letter or digit are dropped, a first
letter is made small, and a first digit is preceded by an underscore. -/
def camel : List Char → List Char
  | [] => []
  | c :: cs =>
    if c.isAlphanum then
      (if c.isDigit then ['_', c] else [c.toLower]) ++ camelTail false cs
    else camel cs

/-- The identifier that `raw` stands for. It is empty if `raw` has no ASCII letter or digit. -/
def ofText (raw : String) : String :=
  String.ofList (camel raw.toList)

/-- `ofText raw`, or `default` where that is empty. -/
def ofTextOr (default raw : String) : String :=
  let name := ofText raw
  if name.isEmpty then default else name

/-- The `n`-th form of a name: the name itself, then the name followed by `1`, `2`, … -/
def candidate (base : String) : Nat → String
  | 0 => base
  | n + 1 => base ++ toString (n + 1)

/-- The first form of `base` that is not among `taken`. One of the first `taken.length + 1` forms is
free, because they are pairwise different. -/
def unique (base : String) (taken : List String) : String :=
  let free? := (List.range taken.length).find? fun n => !taken.contains (candidate base n)
  candidate base (free?.getD taken.length)

/-- Words that no declaration of a script module may use: those of the language, and the names that
the module itself declares or relies on. -/
def reservedWords : List String :=
  ["break", "case", "catch", "class", "const", "continue", "debugger", "default", "delete", "do",
    "else", "enum", "export", "extends", "false", "finally", "for", "function", "if", "import",
    "in", "instanceof", "new", "null", "return", "super", "switch", "this", "throw", "true", "try",
    "typeof", "var", "void", "while", "with", "let", "static", "yield", "await", "bounds",
    "drawFrame", "drawPatterns", "render", "timing", "clocks", "updateClocks", "bounceOut",
    "inOut", "cubic", "cubicSlope", "document", "canvas"]

/-- `name` as it is declared in a script: a reserved word gets a final underscore. -/
def escape (name : String) : String :=
  if reservedWords.contains name then name ++ "_" else name

theorem escape_of_mem {name : String} (h : name ∈ reservedWords) : escape name = name ++ "_" :=
  if_pos (List.contains_iff_mem.mpr h)

theorem escape_of_not_mem {name : String} (h : name ∉ reservedWords) : escape name = name :=
  if_neg fun hmem => h (List.contains_iff_mem.mp hmem)

/-- A name is escaped, or stays as it is. -/
theorem escape_cases (name : String) : escape name = name ++ "_" ∨ escape name = name := by
  by_cases h : name ∈ reservedWords
  · exact Or.inl (escape_of_mem h)
  · exact Or.inr (escape_of_not_mem h)

@[simp]
theorem toList_ofText (raw : String) : (ofText raw).toList = camel raw.toList := by
  simp [ofText]

@[simp]
theorem candidate_zero (base : String) : candidate base 0 = base := rfl

@[simp]
theorem unique_nil (base : String) : unique base [] = base := rfl

end ArtCanvas.Identifier
