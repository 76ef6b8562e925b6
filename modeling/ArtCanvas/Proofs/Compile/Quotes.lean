import ArtCanvas.Proofs.Compile.Warnings
import ArtCanvas.Proofs.Text.Lines

/-!
# What warnings quote

The text of a warning quotes names and parts of layer names. Names have a shape of their own and are
on one line, wherever they come from. Options are quoted as they stand in a layer name, line ends
and all, and so is the name of a layer that cuts the page.

* `ArtFunction.RefersByName`: a function refers to others by names only, with a lemma for each way
  to change it.
* `Assembly.Quotes`: the warnings about options have no line end, unless a layer name has one.
* `Warning.quotesArt`: the kinds of warnings that quote the artwork.
* `Artwork.oneLine_of_not_quotesArt`: all other warnings are on one line.
* `Artwork.oneLine_of_layerNames`: so are all warnings, if all layer names are.
-/

namespace ArtCanvas

open Identifier (IsName)

/-! ### The text of a warning -/

namespace Warning

/-- The names and the parts of layer names that the text of the warning quotes. -/
def quoted : Warning → List String
  | .shapelessOption function option => [function, option]
  | .unusableValue function key value => [function, key, value]
  | .unknownOption function key => [function, key]
  | .missingAnimation function animation => [function, animation]
  | .missingSource function source _ => [function, source]
  | .tooDeep _ => []
  | .emptyCrop layer => [layer]

/-- All line ends in the text of a warning are in what it quotes. -/
theorem oneLine_text {w : Warning} (h : ∀ part ∈ w.quoted, Text.OneLine part) :
    Text.OneLine w.text := by
  -- a message is put together from fixed texts and what it quotes
  cases w with
  | shapelessOption function option =>
    change Text.OneLine (function ++ ": " ++ ("option '" ++ option ++
      "' is not of the form key:value"))
    simp only [quoted, List.forall_mem_cons] at h
    simp only [Text.oneLine_append, h, and_true, true_and]
    decide +kernel
  | unusableValue function key value =>
    change Text.OneLine (function ++ ": " ++ ("value '" ++ value ++ "' for option '" ++ key ++
      "' is not usable"))
    simp only [quoted, List.forall_mem_cons] at h
    simp only [Text.oneLine_append, h, and_true, true_and]
    decide +kernel
  | unknownOption function key =>
    change Text.OneLine (function ++ ": " ++ ("unknown option '" ++ key ++ "'"))
    simp only [quoted, List.forall_mem_cons] at h
    simp only [Text.oneLine_append, h, and_true, true_and]
    decide +kernel
  | missingAnimation function animation =>
    change Text.OneLine (function ++ ": " ++ ("animation function '" ++ animation ++
      "' does not exist"))
    simp only [quoted, List.forall_mem_cons] at h
    simp only [Text.oneLine_append, h, and_true, true_and]
    decide +kernel
  | missingSource function source clock =>
    have hclock : Text.OneLine clock.clockName := by cases clock <;> decide +kernel
    change Text.OneLine (function ++ ": " ++ ("trigger source '" ++ source ++ "." ++
      clock.clockName ++ "' does not exist"))
    simp only [quoted, List.forall_mem_cons] at h
    simp only [Text.oneLine_append, h, hclock, and_true, true_and]
    decide +kernel
  | tooDeep levels =>
    change Text.OneLine ("art nesting deeper than " ++ toString levels ++ " levels was skipped")
    simp only [Text.oneLine_append, Text.oneLine_toString, and_true]
    decide +kernel
  | emptyCrop layer =>
    change Text.OneLine (layer ++ ": " ++
      "crop layer has no visible art and does not size the document")
    simp only [quoted, List.forall_mem_cons] at h
    simp only [Text.oneLine_append, h, true_and]
    decide +kernel

end Warning

/-! ### Names that functions refer to -/

/-- An option that names an animation function gives the name. -/
theorem DrawSetting.isName_of_parse {key value name : String}
    (h : DrawSetting.parse key value = .setting (.animation name)) : IsName name := by
  -- keys that name a clock set clocks and triggers, and no animation
  have hclock : DrawSetting.parseClock key value ≠ .setting (.animation name) := by
    intro h
    obtain ⟨key, rest, target, -, -, -, ⟨-, t, -, heq⟩ | ⟨-, setting, -, heq⟩⟩ :=
      cases_of_parseClock h
    · cases heq
    · cases heq
  have hanimation : ∀ other, parseAnimation? value = some other → IsName other := by
    intro other hother
    unfold parseAnimation? at hother
    dsimp only at hother
    split at hother
    · cases hother
    next hempty =>
      cases hother
      exact Identifier.isName_ofText hempty
  unfold parse at h
  split at h
  -- the last case is for the keys that name a clock
  case h_13 => exact absurd h hclock
  all_goals
    obtain ⟨a, ha, heq⟩ := Reading.ofOption_map_eq_setting_iff.mp h
    cases heq
  all_goals exact hanimation _ ha

namespace ArtFunction

/-- The name of the animation function that the function is to follow. -/
def followed? : ArtFunction → Option String
  | .draw f => f.animationName
  | .animation _ => none

/-- All that the function is called and refers to are names. -/
structure RefersByName (f : ArtFunction) : Prop where
  name : IsName f.name
  requested : IsName f.requested
  followed : ∀ name, f.followed? = some name → IsName name
  sources : ∀ t ∈ f.triggers, IsName t.sourceFunction

namespace RefersByName

theorem setDraw {f : DrawFunction} (h : (ArtFunction.draw f).RefersByName) (byFunction : Bool)
    (key value : String) (layers : List Layer) :
    (ArtFunction.draw (f.set byFunction key value layers).2.1).RefersByName := by
  refine DrawFunction.set_induction
    (P := fun state : DrawFunction × List Layer => (ArtFunction.draw state.1).RefersByName) h
    fun s hparse => ?_
  cases s with
  | origin anchor => cases anchor <;> exact ⟨h.name, h.requested, h.followed, h.sources⟩
  | clock kind setting => cases kind <;> exact ⟨h.name, h.requested, h.followed, h.sources⟩
  | animation name =>
    refine ⟨h.name, h.requested, fun other hother => ?_, h.sources⟩
    cases hother
    exact DrawSetting.isName_of_parse hparse
  | trigger trigger =>
    refine ⟨h.name, h.requested, h.followed, fun t ht => ?_⟩
    rcases List.mem_append.mp ht with ht | ht
    · exact h.sources t ht
    · obtain ⟨target, -, hparse⟩ := DrawSetting.exists_target_of_parse hparse
      rw [List.mem_singleton.mp ht]
      exact (Trigger.of_parse? hparse).2
  | _ => exact ⟨h.name, h.requested, h.followed, h.sources⟩

theorem setAnimation {f : MotionFunction} (h : (ArtFunction.animation f).RefersByName)
    (key value : String) : (ArtFunction.animation (f.set key value).2).RefersByName := by
  refine MotionFunction.set_induction (P := fun g => (ArtFunction.animation g).RefersByName) h
    fun s hparse => ?_
  cases s with
  | kind kind => exact h
  | clock setting => exact ⟨h.name, h.requested, h.followed, h.sources⟩
  | trigger trigger =>
    refine ⟨h.name, h.requested, h.followed, fun t ht => ?_⟩
    rcases List.mem_append.mp ht with ht | ht
    · exact h.sources t ht
    · rw [List.mem_singleton.mp ht]
      exact (Trigger.of_parse? (MotionSetting.trigger_of_parse hparse)).2

/-- Layers and options keep functions that refer to others by names. -/
theorem keptByAssembly [CurveLibrary] : KeptByAssembly RefersByName where
  newDraw hname hrequested := ⟨hname, hrequested, by simp [followed?], by simp [triggers]⟩
  newAnimation hname hrequested := ⟨hname, hrequested, by simp [followed?], by simp [triggers]⟩
  addLayer _ _ h := ⟨h.name, h.requested, h.followed, h.sources⟩
  place _ _ h := ⟨h.name, h.requested, h.followed, h.sources⟩
  setPath _ h := ⟨h.name, h.requested, h.followed, h.sources⟩
  setDraw byFunction key value layers h := h.setDraw byFunction key value layers
  setAnimation key value h := h.setAnimation key value

/-- Finding what a function refers to changes none of the names. -/
theorem bindFunction {f : ArtFunction} (h : f.RefersByName) (t : FunctionTable) :
    (t.bindFunction f).RefersByName := by
  have hsources : ∀ trigger ∈ f.triggers.map t.bindAnimations.2.bindTrigger,
      IsName trigger.sourceFunction := by
    intro trigger htrigger
    obtain ⟨trigger', htrigger', rfl⟩ := List.mem_map.mp htrigger
    exact h.sources trigger' htrigger'
  cases f with
  | animation f => exact ⟨h.name, h.requested, h.followed, hsources⟩
  | draw f =>
    obtain ⟨animation, hbound⟩ := t.exists_bindDraw_eq f
    have hfunction : t.bindFunction (.draw f) =
        .draw { f with animation, triggers := f.triggers.map t.bindAnimations.2.bindTrigger } := by
      rw [FunctionTable.bindFunction, FunctionTable.bindAnimation_draw, hbound]
      rfl
    rw [hfunction]
    exact ⟨h.name, h.requested, h.followed, hsources⟩

/-- The warnings about what a function refers to quote names only. -/
theorem oneLine_missing {f : ArtFunction} (h : f.RefersByName) {w : Warning}
    (hw : f.missingAnimation? = some w ∨ w ∈ f.missingSources) : Text.OneLine w.text := by
  have hown : Text.OneLine f.name := Text.oneLine_of_isName h.name
  refine Warning.oneLine_text ?_
  rcases hw with hw | hw
  · cases f with
    | animation f => cases hw
    | draw f =>
      unfold missingAnimation? at hw
      dsimp only at hw
      split at hw
      next name hname _ =>
        cases hw
        have hother := Text.oneLine_of_isName (h.followed name hname)
        exact List.forall_mem_cons.mpr ⟨hown, List.forall_mem_singleton.mpr hother⟩
      next => cases hw
  · obtain ⟨t, ht, rfl⟩ := List.mem_map.mp hw
    have hother := Text.oneLine_of_isName (h.sources t (List.mem_filter.mp ht).1)
    exact List.forall_mem_cons.mpr ⟨hown, List.forall_mem_singleton.mpr hother⟩

end RefersByName

end ArtFunction

/-! ### Warnings about options -/

/-- What is said about an option on one line is on one line. -/
theorem Outcome.oneLine_warning {function key value : String} (hfunction : IsName function)
    (hkey : Text.OneLine key) (hvalue : Text.OneLine value) (outcome : Outcome) :
    ∀ w ∈ (outcome.warning? function key value).toList, Text.OneLine w.text := by
  have hfunction := Text.oneLine_of_isName hfunction
  intro w hw
  refine Warning.oneLine_text ?_
  cases outcome with
  | applied => cases hw
  | unknown =>
    rw [List.mem_singleton.mp hw]
    simp [Warning.quoted, hfunction, hkey]
  | malformed =>
    rw [List.mem_singleton.mp hw]
    simp [Warning.quoted, hfunction, hkey, hvalue]

/-- The options in a layer name on one line are on one line, with and without a key and a value. -/
theorem LayerOrder.oneLine_parse (name : String) (h : Text.OneLine name) :
    (∀ option ∈ (parse name).shapeless, Text.OneLine option) ∧
      ∀ option ∈ (parse name).options, Text.OneLine option.1 ∧ Text.OneLine option.2 := by
  have hwritten : ∀ option ∈ (LayerName.parse name).options, Text.OneLine option :=
    fun option hoption => h.of_subset (LayerName.subset_of_mem_options hoption)
  rw [LayerOrder.parse]
  constructor
  · exact fun option hoption => hwritten option (List.mem_filter.mp hoption).1
  · intro option hoption
    obtain ⟨written, hmem, hsplit⟩ := List.mem_filterMap.mp hoption
    exact oneLine_of_splitOption (hwritten written hmem) hsplit

namespace Assembly

/-- The functions refer to others by names, and the warnings are on one line if the layer names are.
-/
structure Quotes (a : Assembly) (names : List String) : Prop where
  functions : ∀ f ∈ a.functions.functions, f.RefersByName
  warnings : (∀ name ∈ names, Text.OneLine name) → ∀ w ∈ a.warnings, Text.OneLine w.text

variable [CurveLibrary] {a : Assembly} {names : List String}

theorem Quotes.addLayer (h : a.Quotes names) (options : CompileOptions) (art : Artwork)
    {order : LayerOrder} (hbase : IsName order.base) (index : Nat) (layer : Layer) :
    (a.addLayer options art order index layer).2.Quotes names where
  functions := forall_mem_addLayer ArtFunction.RefersByName.keptByAssembly h.functions art hbase
    index layer
  warnings := by
    rw [(hasKind_addLayer options art order index layer a).2]
    exact h.warnings

theorem Quotes.setOption (h : a.Quotes names) (options : CompileOptions) (id : Nat)
    {option : String × String}
    (hoption : (∀ name ∈ names, Text.OneLine name) →
      Text.OneLine option.1 ∧ Text.OneLine option.2) :
    (a.setOption options id option).Quotes names where
  functions := forall_mem_setOption ArtFunction.RefersByName.keptByAssembly h.functions id option
  warnings := by
    intro hnames
    obtain ⟨hkey, hvalue⟩ := hoption hnames
    -- whatever becomes of the option, the function that is warned about has a name
    have hwarnings : ∀ f, a.functions.functions[id]? = some f → ∀ outcome : Outcome,
        ∀ w ∈ a.warnings ++ (outcome.warning? f.name option.1 option.2).toList,
          Text.OneLine w.text := fun f hf outcome =>
      List.forall_mem_append.mpr ⟨h.warnings hnames,
        outcome.oneLine_warning (h.functions f (List.mem_of_getElem? hf)).name hkey hvalue⟩
    exact setOption_induction (motive := fun b => ∀ w ∈ b.warnings, Text.OneLine w.text)
      (fun _ => h.warnings hnames) (fun f hf => hwarnings _ hf _) fun f hf => hwarnings _ hf _

/-- Going through a layer quotes its name only. -/
theorem Quotes.takeLayer (h : a.Quotes names) (options : CompileOptions) (art : Artwork)
    {layer : Layer} (hlayer : layer.name ∈ names) (index : Nat) :
    (a.takeLayer options art (layer, index)).Quotes names := by
  have hbase := LayerOrder.isName_base layer.name
  have hparts := LayerOrder.oneLine_parse layer.name
  unfold Assembly.takeLayer
  dsimp only
  generalize LayerOrder.parse layer.name = order at hbase hparts ⊢
  have hshapeless : (a.warn (order.shapeless.map (.shapelessOption order.base))).Quotes names := by
    refine ⟨h.functions, fun hnames => List.forall_mem_append.mpr ⟨h.warnings hnames, ?_⟩⟩
    intro w hw
    obtain ⟨option, hoption, rfl⟩ := List.mem_map.mp hw
    have hone := (hparts (hnames _ hlayer)).1 option hoption
    refine Warning.oneLine_text ?_
    simp [Warning.quoted, Text.oneLine_of_isName hbase, hone]
  exact List.foldlRecOn (motive := fun a : Assembly => a.Quotes names) _ _
    (hshapeless.addLayer options art hbase index layer)
    fun a ha option hoption => ha.setOption options _ fun hnames =>
      (hparts (hnames _ hlayer)).2 option hoption

/-- Going through all layers quotes no more than their names. -/
theorem quotes_run (options : CompileOptions) (art : Artwork) (layers : List Layer) :
    (run options art layers).Quotes (layers.map Layer.name) := by
  have hstart : ({ layers } : Assembly).Quotes (layers.map Layer.name) := ⟨by simp, by simp⟩
  exact foldl_zipIdx_induction (motive := fun _ (a : Assembly) => a.Quotes (layers.map Layer.name))
    (f := takeLayer options art) layers { layers } hstart fun i layer a hlayer h =>
      h.takeLayer options art (List.mem_map_of_mem (List.mem_of_getElem? hlayer)) i

end Assembly

/-! ### The warnings of a compiled document -/

/-- Whether the warning quotes the artwork: an option, or the name of a layer. -/
def Warning.quotesArt : Warning → Bool
  | .shapelessOption _ _ | .unusableValue _ _ _ | .unknownOption _ _ | .emptyCrop _ => true
  | .missingAnimation _ _ | .missingSource _ _ _ | .tooDeep _ => false

namespace Artwork

variable {art : Artwork} {options : CompileOptions} {c : Compiled}

/-- The functions of a compiled document refer to others by names. -/
theorem refersByName_of_compile [CurveLibrary] (hc : art.compile options = .ok c) :
    ∀ f ∈ c.functions.functions, f.RefersByName := by
  have hquotes := Assembly.quotes_run options art (art.scan options.maxDepth).1
  intro f hf
  rw [(comesFrom_of_compile hc).functions, FunctionTable.functions_bind] at hf
  obtain ⟨f', hf', rfl⟩ := List.mem_map.mp hf
  exact (hquotes.functions f' hf').bindFunction _

/-- The names of the layers of a compiled document are those of the visible layers. -/
theorem layerNames_of_compile [CurveLibrary] (hc : art.compile options = .ok c) :
    c.layers.map Layer.name = art.visibleLayers.map art.layerName := by
  have huncut := congrArg (List.map Layer.name) (drawn_of_compile hc).1
  rw [List.map_map, List.map_map, scan_fst, List.map_map] at huncut
  exact huncut

/-- The warnings of a scan are about its limit, and quote nothing. -/
theorem oneLine_of_mem_scan {w : Warning} {maxDepth : Nat}
    (hw : w ∈ (art.scan maxDepth).2.warnings) : Text.OneLine w.text := by
  obtain ⟨regs, heffect⟩ := art.effect_scan maxDepth
  rw [heffect.warnings] at hw
  rw [List.eq_of_mem_replicate hw]
  exact Warning.oneLine_text (by simp [Warning.quoted])

variable [CurveLibrary]

/-- Of the warnings of a compiled document, those of the scan and those about references are on one
line in any case, and the others if the names of the visible layers are. -/
theorem cases_of_mem_warnings (hc : art.compile options = .ok c) {w : Warning}
    (hw : w ∈ c.warnings) :
    Text.OneLine w.text ∨ w.quotesArt = true ∧
      ((∀ layer ∈ art.visibleLayers, Text.OneLine (art.layerName layer)) →
        Text.OneLine w.text) := by
  have hoptions := Assembly.optionWarnings_run options art (art.scan options.maxDepth).1
  have hquotes := Assembly.quotes_run options art (art.scan options.maxDepth).1
  have hfunctions := refersByName_of_compile hc
  rw [warnings_of_compile hc, List.mem_append, List.mem_append, List.mem_append,
    List.mem_append] at hw
  -- the parts of the list: limit, options, animations, trigger sources, cropping
  rcases hw with (((hscan | hoption) | hanimation) | hsource) | hcrop
  · exact Or.inl (oneLine_of_mem_scan hscan)
  · have habout := hoptions.about w hoption
    refine Or.inr ⟨?_, fun hnames => hquotes.warnings (fun name hname => ?_) w hoption⟩
    · cases w <;> simp_all [Warning.aboutOption, Warning.kindName, Warning.quotesArt]
    · rw [scan_fst, List.map_map] at hname
      obtain ⟨layer, hlayer, rfl⟩ := List.mem_map.mp hname
      exact hnames layer hlayer
  · obtain ⟨f, hf, hw⟩ := List.mem_filterMap.mp hanimation
    exact Or.inl ((hfunctions f hf).oneLine_missing (Or.inl hw))
  · obtain ⟨f, hf, hw⟩ := List.mem_flatMap.mp hsource
    exact Or.inl ((hfunctions f hf).oneLine_missing (Or.inr hw))
  · obtain ⟨l, hl, rfl⟩ := List.mem_map.mp hcrop
    refine Or.inr ⟨rfl, fun hnames => Warning.oneLine_text ?_⟩
    have hname := List.mem_map_of_mem (f := Layer.name) (List.mem_filter.mp hl).1
    rw [layerNames_of_compile hc] at hname
    obtain ⟨layer, hlayer, hname⟩ := List.mem_map.mp hname
    simp [Warning.quoted, ← hname, hnames layer hlayer]

/-- A warning that does not quote the artwork is on one line. -/
theorem oneLine_of_not_quotesArt (hc : art.compile options = .ok c) {w : Warning}
    (hw : w ∈ c.warnings) (hquotes : w.quotesArt ≠ true) : Text.OneLine w.text :=
  (cases_of_mem_warnings hc hw).resolve_right fun h => hquotes h.1

/-- If the names of the visible layers have no line ends, the warnings have none. -/
theorem oneLine_of_layerNames (hc : art.compile options = .ok c)
    (hnames : ∀ layer ∈ art.visibleLayers, Text.OneLine (art.layerName layer)) {w : Warning}
    (hw : w ∈ c.warnings) : Text.OneLine w.text :=
  (cases_of_mem_warnings hc hw).elim id fun h => h.2 hnames

end Artwork

end ArtCanvas
