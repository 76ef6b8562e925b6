import ArtCanvas.Proofs.Script.SymbolCalls
import Mathlib.Data.Fintype.Card
import Mathlib.Data.Set.Finite.List
import Mathlib.Logic.Relation

/-!
# Recursion of symbol functions

The function of a symbol calls the functions of the symbols that its art places, except its own. So
it does not call itself, but two symbols that place each other call each other without end.

* `acc_iff_of_finite`: with finitely many elements, all ways from one end exactly if none of them
  comes to a circle.
* `Compiled.Instantiates`: the art of a symbol places another pattern where it is painted.
* `Script.Calls`, `Script.Ends`: the calls of symbol functions, and the functions that come to an
  end.
* `Artwork.symbol_ends_iff`: a symbol function ends exactly if the symbols that it comes to do not
  place each other in a circle.
-/

namespace ArtCanvas

open Relation

section Finite

variable {α : Type} {r : α → α → Prop} {a b : α}

/-- What comes to an end is on no circle. -/
theorem not_transGen_of_acc (h : Acc (fun b a => r a b) a) : ¬ TransGen r a a := by
  induction h with
  | intro a _ ih =>
    intro hcircle
    -- the next element on the circle is on it as well
    obtain ⟨b, hab, hba⟩ := TransGen.head'_iff.mp hcircle
    exact ih b hab (TransGen.tail' hba hab)

/-- If only finitely many elements are related to others, all ways from an element end exactly if
none of them comes to a circle. -/
theorem acc_iff_of_finite (domain : List α) (hdomain : ∀ a b, r a b → a ∈ domain) :
    Acc (fun b a => r a b) a ↔ ∀ b, ReflTransGen r a b → ¬ TransGen r b b := by
  constructor
  · intro hacc b hab
    refine not_transGen_of_acc ?_
    induction hab with
    | refl => exact hacc
    | tail _ hbc ih => exact ih.inv hbc
  · intro hcircles
    -- the elements on the ways are finitely many, and ordered by the ways between them
    let Reached := { b : α // b ∈ domain ∧ ReflTransGen r a b }
    have : Finite Reached :=
      (domain.finite_toSet.subset (t := { b | b ∈ domain ∧ ReflTransGen r a b })
        fun _ hb => hb.1).to_subtype
    have : IsTrans Reached fun c b => TransGen r b.1 c.1 := ⟨fun _ _ _ hba hcb => hcb.trans hba⟩
    have : Std.Irrefl fun c b : Reached => TransGen r b.1 c.1 := ⟨fun b => hcircles b.1 b.2.2⟩
    have hwf := Finite.wellFounded_of_trans_of_irrefl fun c b : Reached => TransGen r b.1 c.1
    have hreached : ∀ b : Reached, Acc (fun b a => r a b) b.1 := by
      intro b
      induction b using hwf.induction with
      | h b ih =>
        refine .intro b.1 fun c hbc => ?_
        by_cases hc : c ∈ domain
        · exact ih ⟨c, hc, b.2.2.tail hbc⟩ (.single hbc)
        · exact .intro c fun d hcd => absurd (hdomain c d hcd) hc
    by_cases ha : a ∈ domain
    · exact hreached ⟨a, ha, .refl⟩
    · exact .intro a fun b hab => absurd (hdomain a b hab) ha

end Finite

namespace Script

/-- The symbol function that is declared under one name calls the one with another name. -/
def Calls (s : Script) (name callee : String) : Prop :=
  ∃ f ∈ s.symbols, Identifier.escape f.name = name ∧ .callSymbol callee ∈ f.scope.body

/-- Whether one symbol calls another is seen in its scope. -/
instance (s : Script) (name callee : String) : Decidable (s.Calls name callee) :=
  inferInstanceAs (Decidable (∃ f ∈ s.symbols,
    Identifier.escape f.name = name ∧ .callSymbol callee ∈ f.scope.body))

/-- The symbol function with the name comes to an end: so do all symbol functions that it calls. -/
def Ends (s : Script) (name : String) : Prop :=
  Acc (fun callee name => s.Calls name callee) name

end Script

namespace Compiled

/-- The art of a symbol places another pattern in use, where it is painted. -/
def Instantiates (c : Compiled) (art : Artwork) (p q : Pattern) : Prop :=
  p ∈ c.patterns.symbols ∧ q ∈ c.patterns.patterns ∧ p.handle ≠ q.handle ∧
    ∃ node ∈ art.paintTour c.outline.maxDepth p.content, art.Places node q.handle

end Compiled

namespace Artwork

variable {art : Artwork} {options : CompileOptions} {c : Compiled} {script : Script}
  (h : art.PatternsNamed options c.patterns) (hwritten : c.Written art script)

include h hwritten

/-- What calls is the function of a symbol. -/
theorem exists_symbol_of_calls {name callee : String} (hcalls : script.Calls name callee) :
    ∃ p ∈ c.patterns.symbols, p.functionName = name ∧
      .callSymbol callee ∈ c.paintFrom art p.bounds.contentTransform (some p.handle) p.content := by
  obtain ⟨f, hf, hname, hcall⟩ := hcalls
  rw [hwritten.symbols] at hf
  obtain ⟨p, hp, rfl⟩ := List.mem_map.mp hf
  exact ⟨p, hp, (h.functions p (List.mem_of_mem_filter hp)).escape.symm.trans hname, hcall⟩

/-- The function of a pattern calls the functions of the patterns that its art places, except its
own. -/
theorem calls_iff {p : Pattern} (hp : p ∈ c.patterns.patterns) {callee : String} :
    script.Calls p.functionName callee ↔
      ∃ q, c.Instantiates art p q ∧ q.functionName = callee := by
  constructor
  · intro hcalls
    obtain ⟨p', hp', hname, hcall⟩ := exists_symbol_of_calls h hwritten hcalls
    -- different patterns have functions of different names
    obtain rfl := h.functionName_inj (List.mem_of_mem_filter hp') hp hname
    obtain ⟨node, hnode, hown⟩ := Compiled.mem_paintFrom.mp hcall
    obtain ⟨handle, q, hplaces, hother, hfind, hcallee⟩ := Outline.callSymbol_mem_ownStmts.mp hown
    have hhandle := PatternTable.find?_handle hfind
    subst hhandle
    exact ⟨q, ⟨hp', List.mem_of_find?_eq_some hfind, fun heq => hother (congrArg some heq), node,
      hnode, hplaces⟩, hcallee⟩
  · rintro ⟨q, ⟨hsymbol, hq, hother, node, hnode, hplaces⟩, rfl⟩
    refine ⟨c.outlineSymbol art p, ?_, (h.functions p hp).escape, ?_⟩
    · rw [hwritten.symbols]
      exact List.mem_map.mpr ⟨p, hsymbol, rfl⟩
    · refine Compiled.mem_paintFrom.mpr ⟨node, hnode, Outline.callSymbol_mem_ownStmts.mpr ?_⟩
      exact ⟨q.handle, q, hplaces, fun heq => hother (Option.some.inj heq),
        PatternTable.find?_of_mem h.handles hq, rfl⟩

/-- A way of calls from the function of a pattern is a way from a pattern to what its art places. -/
theorem exists_transGen_of_calls {p : Pattern} (hp : p ∈ c.patterns.patterns) {name : String}
    (hcalls : TransGen script.Calls p.functionName name) :
    ∃ q ∈ c.patterns.patterns, q.functionName = name ∧ TransGen (c.Instantiates art) p q := by
  induction hcalls with
  | single hcall =>
    obtain ⟨q, hpq, hname⟩ := (calls_iff h hwritten hp).mp hcall
    exact ⟨q, hpq.2.1, hname, .single hpq⟩
  | tail _ hcall ih =>
    obtain ⟨q, hq, rfl, hpq⟩ := ih
    obtain ⟨q', hqq', hname⟩ := (calls_iff h hwritten hq).mp hcall
    exact ⟨q', hqq'.2.1, hname, hpq.tail hqq'⟩

/-- The calls have a circle exactly if symbols place each other in a circle. -/
theorem acyclic_calls_iff :
    (∀ name, ¬ TransGen script.Calls name name) ↔ ∀ p, ¬ TransGen (c.Instantiates art) p p := by
  constructor
  · intro hcalls p hcircle
    have hlift : TransGen script.Calls p.functionName p.functionName :=
      hcircle.lift Pattern.functionName fun p q hpq =>
        (calls_iff h hwritten (List.mem_of_mem_filter hpq.1)).mpr ⟨q, hpq, rfl⟩
    exact hcalls _ hlift
  · intro hinstantiates name hcircle
    -- what calls on a circle is the function of a symbol
    obtain ⟨callee, hcall, -⟩ := TransGen.head'_iff.mp hcircle
    obtain ⟨p, hp, rfl, -⟩ := exists_symbol_of_calls h hwritten hcall
    have hp := List.mem_of_mem_filter hp
    obtain ⟨q, hq, hname, hpq⟩ := exists_transGen_of_calls h hwritten hp hcircle
    obtain rfl := h.functionName_inj hq hp hname
    exact hinstantiates q hpq

/-- The function of a pattern ends exactly if all ways from the pattern to what is placed end. -/
theorem ends_iff_acc {p : Pattern} (hp : p ∈ c.patterns.patterns) :
    script.Ends p.functionName ↔ Acc (fun q p => c.Instantiates art p q) p := by
  constructor
  · intro hends
    generalize hname : p.functionName = name at hends
    induction hends generalizing p with
    | intro name _ ih =>
      subst hname
      exact .intro p fun q hpq =>
        ih q.functionName ((calls_iff h hwritten hp).mpr ⟨q, hpq, rfl⟩) hpq.2.1 rfl
  · intro hacc
    induction hacc with
    | intro p _ ih =>
      refine .intro _ fun callee hcall => ?_
      obtain ⟨q, hpq, rfl⟩ := (calls_iff h hwritten hp).mp hcall
      exact ih q hpq hpq.2.1

omit h hwritten

/-- Whatever art a host shows: if it can be compiled, a script is written for it, and the function
of a pattern calls exactly the functions of the other patterns that its art places where it is
painted. So no symbol function calls itself, but there is a circle of calls exactly if symbols place
each other in a circle, and a symbol function ends exactly if it does not come to such a circle. -/
theorem symbol_ends_iff [CurveLibrary] (art : Artwork) (options : CompileOptions) (c : Compiled)
    (hc : art.compile options = .ok c) :
    ∃ script, c.script art c.outline.renderer = .ok script ∧
      (∀ o : EmitOptions, c.emit art o = .ok (script.text o)) ∧
      (∀ p ∈ c.patterns.patterns, ∀ callee, script.Calls p.functionName callee ↔
        ∃ q, c.Instantiates art p q ∧ q.functionName = callee) ∧
      (∀ name, ¬ script.Calls name name) ∧
      ((∀ name, ¬ TransGen script.Calls name name) ↔
        ∀ p, ¬ TransGen (c.Instantiates art) p p) ∧
      ∀ p ∈ c.patterns.patterns, script.Ends p.functionName ↔
        ∀ q, ReflTransGen (c.Instantiates art) p q → ¬ TransGen (c.Instantiates art) q q := by
  have h := patternsNamed_of_compile hc
  obtain ⟨script, hscript, hwritten⟩ := c.exists_script art
  refine ⟨script, hscript, Compiled.emit_of_script hscript,
    fun p hp callee => calls_iff h hwritten hp, ?_, acyclic_calls_iff h hwritten, fun p hp => ?_⟩
  · intro name hcall
    obtain ⟨p, hp, rfl, -⟩ := exists_symbol_of_calls h hwritten hcall
    have hp := List.mem_of_mem_filter hp
    obtain ⟨q, ⟨-, hq, hother, -⟩, hname⟩ := (calls_iff h hwritten hp).mp hcall
    exact hother (congrArg Pattern.handle (h.functionName_inj hq hp hname)).symm
  · rw [ends_iff_acc h hwritten hp]
    exact acc_iff_of_finite c.patterns.symbols fun _ _ hpq => hpq.1

end Artwork

namespace ArtDocument

/-- Two symbols: the art of the left one places the right one, and the art of the right one places
`back`. -/
def symbolPair (back : Nat) : ArtDocument where
  layers := #[{ name := "a", art := some 0 }]
  nodes := #[{ bounds := unitBox, kind := .symbol, symbol := some 0 },
    { bounds := unitBox, kind := .symbol, symbol := some 1 },
    { bounds := unitBox, kind := .symbol, symbol := some back }]
  patterns := #[{ name := "left", content := some 1 }, { name := "right", content := some 2 }]

/-- Where the right symbol places itself, the left one calls it, and comes to an end. -/
theorem symbol_ends_placesItself :
    (symbolPair 1).Valid ∧ ∃ c script, (symbolPair 1).view.compile {} = .ok c ∧
      c.script (symbolPair 1).view c.outline.renderer = .ok script ∧
      script.Calls "leftSymbol" "rightSymbol" ∧ script.Ends "leftSymbol" := by
  have hvalid : (symbolPair 1).Valid := by decide +kernel
  have hcompile : ((symbolPair 1).view.compile {}).toOption.any (fun c =>
      decide (c.patterns.patterns.map (fun p => (p.handle, p.content, p.functionName)) =
        [(0, some 1, "leftSymbol"), (1, some 2, "rightSymbol")]) &&
      (c.script (symbolPair 1).view c.outline.renderer).toOption.any fun script =>
        script.Calls "leftSymbol" "rightSymbol") = true := by decide +kernel
  have hplaces : ∀ p ∈ [(0, some 1), (1, some 2)], ∀ q ∈ [0, 1], p.1 ≠ q →
      (∃ node ∈ (symbolPair 1).view.paintTour 256 p.2, (symbolPair 1).view.Places node q) →
        p.1 < q := by decide +kernel
  obtain ⟨c, hc, htests⟩ := exists_ok_of_any hcompile
  rw [Bool.and_eq_true, decide_eq_true_eq] at htests
  obtain ⟨hpatterns, hscript⟩ := htests
  obtain ⟨script, hscript, hcalls⟩ := exists_ok_of_any hscript
  refine ⟨hvalid, c, script, hc, hscript, of_decide_eq_true hcalls, ?_⟩
  obtain ⟨script', hscript', -, -, -, -, hends⟩ :=
    Artwork.symbol_ends_iff (symbolPair 1).view {} c hc
  cases hscript.symm.trans hscript'
  -- what is placed elsewhere comes later in the document, so there is no circle
  have hmem : ∀ p ∈ c.patterns.patterns,
      p.handle ∈ [0, 1] ∧ (p.handle, p.content) ∈ [(0, some 1), (1, some 2)] := by
    intro p hp
    have hentry := List.mem_map_of_mem (f := fun p : Pattern =>
      (p.handle, p.content, p.functionName)) hp
    rw [hpatterns] at hentry
    simp only [List.mem_cons, List.not_mem_nil, or_false, Prod.mk.injEq] at hentry
    rcases hentry with ⟨hhandle, hcontent, -⟩ | ⟨hhandle, hcontent, -⟩
    · simp [hhandle, hcontent]
    · simp [hhandle, hcontent]
  have hlater : ∀ p q, c.Instantiates (symbolPair 1).view p q → p.handle < q.handle := by
    rintro p q ⟨hp, hq, hother, hart⟩
    exact hplaces _ (hmem p (List.mem_of_mem_filter hp)).2 _ (hmem q hq).1 hother hart
  obtain ⟨p, hp, hentry⟩ : ∃ p ∈ c.patterns.patterns,
      (p.handle, p.content, p.functionName) = (0, some 1, "leftSymbol") :=
    List.mem_map.mp (by rw [hpatterns]; exact List.mem_cons_self)
  have hname : p.functionName = "leftSymbol" := by simpa using congrArg (·.2.2) hentry
  rw [← hname]
  refine (hends p hp).mpr fun q _ hcircle => lt_irrefl q.handle ?_
  have hlift := hcircle.lift Pattern.handle hlater
  rwa [transGen_eq_self] at hlift

/-- Where the right symbol places the left one, the two call each other without end. -/
theorem symbol_not_ends_placesLeft :
    (symbolPair 0).Valid ∧ ∃ c script, (symbolPair 0).view.compile {} = .ok c ∧
      c.script (symbolPair 0).view c.outline.renderer = .ok script ∧
      TransGen script.Calls "leftSymbol" "leftSymbol" ∧ ¬ script.Ends "leftSymbol" := by
  have hvalid : (symbolPair 0).Valid := by decide +kernel
  have hcompile : ((symbolPair 0).view.compile {}).toOption.any (fun c =>
      (c.script (symbolPair 0).view c.outline.renderer).toOption.any fun script =>
        script.Calls "leftSymbol" "rightSymbol" ∧ script.Calls "rightSymbol" "leftSymbol") =
      true := by decide +kernel
  obtain ⟨c, hc, hscript⟩ := exists_ok_of_any hcompile
  obtain ⟨script, hscript, hcalls⟩ := exists_ok_of_any hscript
  obtain ⟨hleft, hright⟩ := of_decide_eq_true hcalls
  have hcircle : TransGen script.Calls "leftSymbol" "leftSymbol" := .tail (.single hleft) hright
  exact ⟨hvalid, c, script, hc, hscript, hcircle, fun hends => not_transGen_of_acc hends hcircle⟩

end ArtDocument

end ArtCanvas
