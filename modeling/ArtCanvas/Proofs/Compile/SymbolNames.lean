import ArtCanvas.Proofs.Artwork.Walks
import ArtCanvas.Proofs.Compile.Drawn
import ArtCanvas.Proofs.Pattern.Calls
import ArtCanvas.Proofs.Scan.Uses

/-!
# Names of symbol functions are apart

Symbols get the names of their functions one after the other. While this goes on, some symbols have
new names and others still have old ones or none, and a name is new if none of these is the same.

* `TableStep`, `PatternTable.run`: uses of patterns and namings, in any order.
* `PatternTable.symbolsOnly_step`, `PatternTable.symbolsOnly_run`: no pattern but symbols ever has
  the name of a function.
* `PatternTable.nodup_functionNames_nameSymbolsFrom`: the names of the symbols that are done are
  different, and stay so with each symbol that is named.
* `PatternTable.NamesApart`: what a naming leads to.
* `Artwork.functionNames_apart`: this, whatever came before the naming, and for the patterns of a
  compiled document.
-/

namespace ArtCanvas

/-- An event in the life of a table of patterns. -/
inductive TableStep where
  /-- A node uses a pattern. -/
  | use (call : PatternCall)
  /-- The symbol functions are named, apart from names that are taken. -/
  | name (taken : List String)

namespace PatternTable

/-- The table after an event. -/
def step (t : PatternTable) : TableStep → PatternTable
  | .use call => (t.add call.1.handle call.1.role call.2).2
  | .name taken => t.nameSymbols taken

/-- The table after a run of events. -/
def run (t : PatternTable) (steps : List TableStep) : PatternTable := steps.foldl step t

/-- Only symbols have the names of functions. -/
def SymbolsOnly (patterns : List Pattern) : Prop :=
  ∀ p ∈ patterns, p.isSymbol = false → p.symbolFunction = none

section Steps

variable {t : PatternTable}

/-- One more pattern has no function yet. -/
theorem symbolsOnly_add (h : SymbolsOnly t.patterns) (handle : Nat) (role : PatternRole)
    (source : PatternSource) : SymbolsOnly (t.add handle role source).2.patterns :=
  forall_add role source h (fun _ _ hp => hp) fun _ => rfl

/-- Only symbols are given functions. -/
theorem symbolsOnly_nameSymbols (h : SymbolsOnly t.patterns) (taken : List String) :
    SymbolsOnly (t.nameSymbols taken).patterns := by
  intro q hq hplain
  obtain ⟨p, hp, hnamed⟩ := exists_of_mem_nameSymbols hq
  unfold Pattern.NamedAs at hnamed
  split at hnamed
  case isTrue hsymbol =>
    obtain ⟨n, rfl⟩ := hnamed
    rw [hsymbol] at hplain
    cases hplain
  case isFalse =>
    rw [hnamed] at hplain ⊢
    exact h p hp hplain

/-- No step gives a function to a pattern that is no symbol. -/
theorem symbolsOnly_step (h : SymbolsOnly t.patterns) (s : TableStep) :
    SymbolsOnly (t.step s).patterns := by
  cases s with
  | use call => exact symbolsOnly_add h call.1.handle call.1.role call.2
  | name taken => exact symbolsOnly_nameSymbols h taken

/-- Nor do any steps together. -/
theorem symbolsOnly_run (h : SymbolsOnly t.patterns) (steps : List TableStep) :
    SymbolsOnly (t.run steps).patterns := by
  induction steps generalizing t with
  | nil => exact h
  | cons s steps ih => exact ih (symbolsOnly_step h s)

end Steps

/-- What a naming of the symbol functions makes of a table, where the names in `taken` are those of
other functions. -/
structure NamesApart (t : PatternTable) (taken : List String) (t' : PatternTable) : Prop where
  /-- Each symbol has a function, and its name is not taken. -/
  named : ∀ q ∈ t'.patterns, q.isSymbol = true →
    ∃ name, q.symbolFunction = some name ∧ name ∉ taken
  /-- No two functions have the same name. -/
  distinct : (functionNames t'.patterns).Nodup
  /-- Nothing but the functions of symbols is changed. The number in a name is at most that of the
  names that are taken and of the patterns together. -/
  patterns : List.Forall₂ (Pattern.NamedApart taken (taken.length + t.patterns.length)) t.patterns
    t'.patterns
  /-- No canvas is added. -/
  canvases : t'.canvases = t.canvases

section Naming

variable {taken : List String}

/-- The functions of two lists of patterns follow each other. -/
@[simp]
theorem functionNames_append (ps qs : List Pattern) :
    functionNames (ps ++ qs) = functionNames ps ++ functionNames qs := List.filterMap_append

theorem functionNames_singleton (p : Pattern) :
    functionNames [p] = p.symbolFunction.toList := by
  cases hp : p.symbolFunction <;> simp [functionNames, hp]

/-- The names of the symbols that are done stay different while the rest is named: a new name is
none of theirs, and which names the rest has does not matter. -/
theorem nodup_functionNames_nameSymbolsFrom {done rest : List Pattern}
    (hdone : (functionNames done).Nodup) (hrest : SymbolsOnly rest) :
    (functionNames (nameSymbolsFrom taken done rest)).Nodup := by
  induction rest generalizing done with
  | nil => exact hdone
  | cons p rest ih =>
    rw [nameSymbolsFrom]
    refine ih ?_ fun q hq => hrest q (List.mem_cons_of_mem p hq)
    rw [functionNames_append, functionNames_singleton]
    cases hp : p.isSymbol with
    | true =>
      -- the new name differs from all that any symbol has at the moment, so from those in `done`
      have hfree := Identifier.unique_not_mem (symbolFunctionName p.name)
        (taken ++ functionNames (done ++ p :: rest))
      rw [functionNames_append, List.mem_append, List.mem_append, not_or, not_or] at hfree
      rw [if_pos rfl, functionNames_append]
      exact List.concat_eq_append ▸ hdone.concat hfree.2.1
    | false =>
      -- a pattern that is no symbol has no name to add
      rw [if_neg Bool.false_ne_true, hrest p List.mem_cons_self hp, Option.toList_none,
        List.append_nil]
      exact hdone

/-- A naming leads to names that are apart, whatever names there were before. -/
theorem namesApart_nameSymbols {t : PatternTable} (h : SymbolsOnly t.patterns)
    (taken : List String) : t.NamesApart taken (t.nameSymbols taken) where
  named _ hq hsymbol := exists_name_of_mem_nameSymbols hq hsymbol
  distinct := nodup_functionNames_nameSymbolsFrom List.nodup_nil h
  patterns := t.forall₂_namedApart taken
  canvases := rfl

/-- What counts is which names are taken, not how they are listed. -/
theorem nameSymbolsFrom_congr {taken' : List String} (h : ∀ name, name ∈ taken ↔ name ∈ taken')
    (done rest : List Pattern) :
    nameSymbolsFrom taken done rest = nameSymbolsFrom taken' done rest := by
  induction rest generalizing done with
  | nil => rfl
  | cons p rest ih =>
    -- both find the same name, so both go on from the same patterns that are done
    have hunique : Identifier.unique (symbolFunctionName p.name)
          (taken ++ functionNames (done ++ p :: rest)) =
        Identifier.unique (symbolFunctionName p.name)
          (taken' ++ functionNames (done ++ p :: rest)) :=
      Identifier.unique_congr _ fun name => by rw [List.mem_append, List.mem_append, h name]
    rw [nameSymbolsFrom, nameSymbolsFrom, hunique]
    exact ih _

/-- Names are chosen by which ones are taken, not by their order. -/
theorem nameSymbols_congr {taken' : List String} (h : ∀ name, name ∈ taken ↔ name ∈ taken')
    (t : PatternTable) : t.nameSymbols taken = t.nameSymbols taken' := by
  rw [nameSymbols, nameSymbols, nameSymbolsFrom_congr h]

end Naming

end PatternTable

namespace Artwork

/-- Whatever patterns were used and however often symbol functions were named, with any names taken
each time: one more naming leads to names that are apart, and all that counts for it is which names
are taken. So in a compiled document the names of symbol functions are different from each other and
from those of all functions. -/
theorem functionNames_apart [CurveLibrary] (steps : List TableStep) (taken : List String) :
    (({} : PatternTable).run steps).NamesApart taken
        ((({} : PatternTable).run steps).nameSymbols taken) ∧
      (∀ taken' : List String, (∀ name, name ∈ taken' ↔ name ∈ taken) →
        (({} : PatternTable).run steps).nameSymbols taken' =
          (({} : PatternTable).run steps).nameSymbols taken) ∧
      ∀ (art : Artwork) (options : CompileOptions) (c : Compiled), art.compile options = .ok c →
        (art.scan options.maxDepth).2.patterns.NamesApart c.functions.names c.patterns := by
  have hstart : PatternTable.SymbolsOnly ({} : PatternTable).patterns := fun p hp => by cases hp
  refine ⟨PatternTable.namesApart_nameSymbols (PatternTable.symbolsOnly_run hstart steps) taken,
    fun taken' h => PatternTable.nameSymbols_congr h _, fun art options c hc => ?_⟩
  -- a scan names no functions
  have hscan : PatternTable.SymbolsOnly (art.scan options.maxDepth).2.patterns.patterns :=
    fun p hp _ => (art.introduced_scan options.maxDepth).unnamed p hp
  rw [(comesFrom_of_compile hc).patterns]
  exact PatternTable.namesApart_nameSymbols hscan c.functions.names

end Artwork

namespace ArtDocument

/-- A symbol whose function would be called as that of the layer is. -/
def namesake : ArtDocument where
  layers := #[{ name := "dots symbol", art := some 0 }]
  nodes := #[{ bounds := unitBox, kind := .symbol, symbol := some 0 }, { bounds := unitBox }]
  patterns := #[{ name := "dots", content := some 1 }]

/-- Two symbols of nearly the same name, of which one is used only after a first naming, and a
paint. -/
def starSteps : List TableStep :=
  [.use (⟨0, .symbol⟩, ⟨"Star", none, unitBox⟩), .use (⟨1, .paint⟩, ⟨"Dots", none, unitBox⟩),
    .name ["starSymbol"], .use (⟨2, .symbol⟩, ⟨"star", none, unitBox⟩)]

/-- A naming passes over the names that are taken and over the one that the symbol has had so far,
and so does the compiler with the name of a function that draws a layer. -/
theorem functionNames_apart_namesake :
    (PatternTable.functionNames (({} : PatternTable).run starSteps).patterns = ["starSymbol1"] ∧
      PatternTable.functionNames
        ((({} : PatternTable).run starSteps).nameSymbols ["starSymbol", "starSymbol2"]).patterns =
          ["starSymbol3", "star1Symbol"] ∧
      (({} : PatternTable).run starSteps).NamesApart ["starSymbol", "starSymbol2"]
        ((({} : PatternTable).run starSteps).nameSymbols ["starSymbol", "starSymbol2"])) ∧
    namesake.Valid ∧ ∃ c, namesake.view.compile {} = .ok c ∧
      c.functions.names = ["dotsSymbol"] ∧
      PatternTable.functionNames c.patterns.patterns = ["dotsSymbol1"] ∧
      (namesake.view.scan 256).2.patterns.NamesApart c.functions.names c.patterns := by
  have hcompile : (namesake.view.compile {}).toOption.any (fun c =>
      decide (c.functions.names = ["dotsSymbol"] ∧
        PatternTable.functionNames c.patterns.patterns = ["dotsSymbol1"])) = true := by
    decide +kernel
  obtain ⟨c, hc, hnames⟩ := exists_ok_of_any hcompile
  obtain ⟨hfunctions, hsymbols⟩ := of_decide_eq_true hnames
  obtain ⟨hsteps, -, happart⟩ :=
    Artwork.functionNames_apart starSteps ["starSymbol", "starSymbol2"]
  exact ⟨⟨by decide +kernel, by decide +kernel, hsteps⟩, by decide +kernel, c, hc, hfunctions,
    hsymbols, happart namesake.view {} c hc⟩

end ArtDocument

end ArtCanvas
