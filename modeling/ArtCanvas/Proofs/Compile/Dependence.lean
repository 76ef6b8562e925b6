import ArtCanvas.Compile.Compiled
import Mathlib.Data.List.Basic

/-!
# What a compiled document depends on

Compiling looks at the art through two windows only: the scan, and the search for an outline in the
art of each scanned layer. Where two pieces of art, or two limits, show the same through both, they
are compiled to the same document.

* `Assembly.run_congr`: going through the layers looks at the outlines only.
* `Artwork.compile_congr`: the whole compiler.
-/

namespace ArtCanvas

namespace Assembly

variable {options options' : CompileOptions} {art art' : Artwork}

/-- A layer is given to its function by its name and by the first outline of its art. -/
theorem addLayer_congr [CurveLibrary] {layer : Layer}
    (hpath : art.findPath options.maxDepth layer.art = art'.findPath options'.maxDepth layer.art)
    (order : LayerOrder) (index : Nat) (a : Assembly) :
    a.addLayer options art order index layer = a.addLayer options' art' order index layer := by
  unfold addLayer addAnimation
  rw [hpath]

/-- Options are put into effect without a look at the art. -/
theorem setOption_congr (himages : options.imagesByFunction = options'.imagesByFunction)
    (id : Nat) : setOption options id = setOption options' id := by
  funext a option
  unfold setOption
  rw [himages]

theorem takeLayer_congr [CurveLibrary]
    (himages : options.imagesByFunction = options'.imagesByFunction) {layer : Layer}
    (hpath : art.findPath options.maxDepth layer.art = art'.findPath options'.maxDepth layer.art)
    (index : Nat) (a : Assembly) :
    takeLayer options art a (layer, index) = takeLayer options' art' a (layer, index) := by
  unfold takeLayer
  dsimp only
  rw [addLayer_congr hpath, setOption_congr himages]

theorem run_congr [CurveLibrary] (himages : options.imagesByFunction = options'.imagesByFunction)
    {layers : List Layer}
    (hpaths : ∀ layer ∈ layers,
      art.findPath options.maxDepth layer.art = art'.findPath options'.maxDepth layer.art) :
    run options art layers = run options' art' layers := by
  refine List.foldl_ext _ _ _ fun a entry hentry => ?_
  exact takeLayer_congr himages (hpaths entry.1 (List.fst_mem_of_mem_zipIdx hentry)) entry.2 a

end Assembly

/-- Art that is scanned alike, and in whose scanned layers the same outlines are found, is compiled
to the same document, or fails with the same error. -/
theorem Artwork.compile_congr [CurveLibrary] {options options' : CompileOptions}
    {art art' : Artwork} (himages : options.imagesByFunction = options'.imagesByFunction)
    (hscan : art.scan options.maxDepth = art'.scan options'.maxDepth)
    (hpaths : ∀ layer ∈ (art.scan options.maxDepth).1,
      art.findPath options.maxDepth layer.art = art'.findPath options'.maxDepth layer.art) :
    art.compile options = art'.compile options' := by
  have hrun := Assembly.run_congr himages hpaths
  -- behind the scan and the assembly, neither the art nor the limit is looked at
  unfold compile
  rw [← hscan]
  generalize art.scan options.maxDepth = result at hrun
  obtain ⟨scanned, scan⟩ := result
  dsimp only at hrun ⊢
  rw [hrun]

end ArtCanvas
