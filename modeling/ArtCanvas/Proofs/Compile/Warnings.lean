import ArtCanvas.Proofs.Compile.Functions
import ArtCanvas.Proofs.Scan.LeftOut

/-!
# Every problem has its warning

A compile adds warnings in five places: where the scan stops, where options are read, where
functions and triggers look for what they refer to, and where the page is sized. What these places
see changes from one to the next, but the problems can all be read off the layer names and the
compiled document.

* `LayerName.refused`: the options in a layer name that have no effect.
* `Assembly.optionWarnings_run`: going through the layers adds one warning for each of them.
* `FunctionTable.warnings_bind`: looking for references adds the warnings that can be read off the
  functions afterwards.
* `Compiled.Accounts`: the warnings of a compiled document, kind by kind.
* `ArtDocument.warnings_account`: they are those of the problems that there are, and no others.
-/

namespace ArtCanvas

/-- What becomes of an option of a function of the kind. -/
def FunctionKind.outcome (key value : String) : FunctionKind → Outcome
  | .draw => (DrawSetting.parse key value).outcome
  | .animation => (MotionSetting.parse key value).outcome

/-- What becomes of an option depends on its text only, not on the draw function. -/
theorem DrawFunction.outcome_set (byFunction : Bool) (key value : String) (f : DrawFunction)
    (layers : List Layer) :
    (f.set byFunction key value layers).1 = FunctionKind.draw.outcome key value :=
  congrArg Prod.fst (set_eq byFunction key value f layers)

/-- Nor does it depend on the animation function. -/
theorem MotionFunction.outcome_set (key value : String) (f : MotionFunction) :
    (f.set key value).1 = FunctionKind.animation.outcome key value :=
  congrArg Prod.fst (set_eq key value f)

/-- Whether an option has no effect on a function of the kind: it has no key or no colon, its key is
not known, or its value cannot be used. -/
def FunctionKind.refuses (kind : FunctionKind) (option : String) : Bool :=
  match splitOption option with
  | none => true
  | some (key, value) => kind.outcome key value != .applied

/-- The options in a layer name that have no effect. -/
def LayerName.refused (name : String) : List String :=
  (LayerName.parse name).options.filter (LayerOrder.parse name).kind.refuses

/-- An option has an effect if it has a key and a value that are put into effect. -/
theorem FunctionKind.refuses_eq_false_iff {kind : FunctionKind} {option : String} :
    kind.refuses option = false ↔
      ∃ key value, splitOption option = some (key, value) ∧ kind.outcome key value = .applied := by
  unfold refuses
  cases splitOption option with
  | none => simp
  | some entry =>
    obtain ⟨key, value⟩ := entry
    simp

/-- Whether the warning is about an option. -/
def Warning.aboutOption (w : Warning) : Bool :=
  w.kindName == "malformed_option" || w.kindName == "unknown_option"

/-- The warnings are about options, one for each of `n` options. -/
structure OptionWarnings (ws : List Warning) (n : Nat) : Prop where
  length : ws.length = n
  about : ∀ w ∈ ws, w.aboutOption = true

namespace OptionWarnings

/-- No warnings account for no options. -/
theorem nil : OptionWarnings [] 0 := ⟨rfl, by simp⟩

/-- Accounts can be put together. -/
theorem append {ws ws' : List Warning} {n n' : Nat} (h : OptionWarnings ws n)
    (h' : OptionWarnings ws' n') : OptionWarnings (ws ++ ws') (n + n') where
  length := by rw [List.length_append, h.length, h'.length]
  about := by
    intro w hw
    rcases List.mem_append.mp hw with hw | hw
    · exact h.about w hw
    · exact h'.about w hw

/-- Each of the warnings is of one of two kinds. -/
theorem length_filter {ws : List Warning} {n : Nat} (h : OptionWarnings ws n) :
    (ws.filter fun w => w.kindName == "malformed_option").length +
      (ws.filter fun w => w.kindName == "unknown_option").length = n := by
  -- about options, a warning is of the second kind exactly if it is not of the first
  have hother : (ws.filter fun w => w.kindName == "unknown_option") =
      ws.filter fun w => !(w.kindName == "malformed_option") := by
    refine List.filter_congr fun w hw => ?_
    have habout := h.about w hw
    cases w <;> simp_all [Warning.aboutOption, Warning.kindName]
  rw [hother, ← List.length_eq_length_filter_add, h.length]

/-- None of the warnings is of another kind. -/
theorem filter_eq_nil {ws : List Warning} {n : Nat} (h : OptionWarnings ws n) {kind : String}
    (hmalformed : kind ≠ "malformed_option") (hunknown : kind ≠ "unknown_option") :
    (ws.filter fun w => w.kindName == kind) = [] := by
  refine List.filter_eq_nil_iff.mpr fun w hw hkind => ?_
  have habout := h.about w hw
  rw [beq_iff_eq] at hkind
  simp [Warning.aboutOption, hkind, hmalformed, hunknown] at habout

end OptionWarnings

/-- An option is warned about unless it was put into effect. -/
theorem Outcome.optionWarnings (function key value : String) (outcome : Outcome) :
    OptionWarnings (outcome.warning? function key value).toList
      (if outcome != .applied then 1 else 0) := by
  cases outcome <;> exact ⟨rfl, by simp [warning?, Warning.aboutOption, Warning.kindName]⟩

/-- Options that have no effect are those without a key or a colon, and those with both that are not
put into effect. -/
theorem FunctionKind.length_filter_refuses (kind : FunctionKind) (written : List String) :
    (written.filter kind.refuses).length =
      (written.filter fun option => (splitOption option).isNone).length +
        ((written.filterMap splitOption).filter fun option =>
          kind.outcome option.1 option.2 != .applied).length := by
  induction written with
  | nil => rfl
  | cons option written ih =>
    rw [List.filter_cons, List.filter_cons, List.filterMap_cons, refuses]
    cases hoption : splitOption option with
    | none =>
      simp only [Option.isNone_none, if_true, List.length_cons, ih]
      omega
    | some entry =>
      obtain ⟨key, value⟩ := entry
      -- an option with a key counts on both sides, or on none
      by_cases happlied : kind.outcome key value = .applied
      · simpa [happlied] using ih
      · simp only [bne_iff_ne, ne_eq, happlied, not_false_eq_true, if_true, Option.isNone_some,
          Bool.false_eq_true, if_false, List.filter_cons_of_pos, List.length_cons, ih]
        omega

/-- The refused options of a layer are those without a shape and those that are not applied. -/
theorem LayerOrder.length_refused (name : String) :
    (LayerName.refused name).length = (LayerOrder.parse name).shapeless.length +
      ((LayerOrder.parse name).options.filter fun option =>
        (LayerOrder.parse name).kind.outcome option.1 option.2 != .applied).length := by
  rw [LayerName.refused, FunctionKind.length_filter_refuses, LayerOrder.parse]

namespace Assembly

variable {a : Assembly} {id : Nat} {kind : FunctionKind}

/-- The function at a position is of a kind. -/
def HasKind (a : Assembly) (id : Nat) (kind : FunctionKind) : Prop :=
  ∃ f, a.functions.functions[id]? = some f ∧ f.kind = kind

/-- A change that keeps the kind of one function keeps all kinds. -/
theorem HasKind.modify {t : FunctionTable} {f : ArtFunction} (hf : t.functions[id]? = some f)
    {g : ArtFunction → ArtFunction} (hg : (g f).kind = f.kind) :
    ∃ f', (t.modify id g).functions[id]? = some f' ∧ f'.kind = f.kind := by
  refine ⟨g f, ?_, hg⟩
  rw [FunctionTable.modify, List.getElem?_modify_eq, hf]
  rfl

/-- A layer is given to a function of the kind that its name asks for, without a warning. -/
theorem hasKind_addLayer [CurveLibrary] (options : CompileOptions) (art : Artwork)
    (order : LayerOrder) (index : Nat) (layer : Layer) (a : Assembly) :
    (a.addLayer options art order index layer).2.HasKind
        (a.addLayer options art order index layer).1 order.kind ∧
      (a.addLayer options art order index layer).2.warnings = a.warnings := by
  unfold Assembly.addLayer
  cases order.kind with
  | draw =>
    refine ⟨?_, rfl⟩
    change (a.addDraw order.base index layer).2.HasKind (a.addDraw order.base index layer).1 _
    -- the table answers with a draw function, and only its layers change
    obtain ⟨f, hf, hanswers⟩ := a.functions.exists_getElem?_answer (.draw order.base)
    have hkind : f.kind = .draw := by
      cases f with
      | draw f => rfl
      | animation f => cases hanswers
    rw [← hkind]
    exact HasKind.modify hf (by cases f <;> rfl)
  | animation =>
    refine ⟨?_, rfl⟩
    change (a.addAnimation options art order.base index layer).2.HasKind
      (a.addAnimation options art order.base index layer).1 _
    obtain ⟨f, hf, hkind, -⟩ := a.functions.exists_getElem?_answer (.animation order.base)
    rw [← hkind]
    exact HasKind.modify hf (by cases f <;> rfl)

/-- An option of a function leaves its kind alone, and is warned about unless it is put into effect.
-/
theorem HasKind.setOption (h : a.HasKind id kind) (options : CompileOptions)
    (option : String × String) :
    (a.setOption options id option).HasKind id kind ∧
      ∃ ws, (a.setOption options id option).warnings = a.warnings ++ ws ∧
        OptionWarnings ws (if kind.outcome option.1 option.2 != .applied then 1 else 0) := by
  obtain ⟨f, hf, rfl⟩ := h
  unfold Assembly.setOption
  dsimp only
  rw [hf]
  cases f with
  | draw f =>
    refine ⟨HasKind.modify hf rfl, _, rfl, ?_⟩
    rw [DrawFunction.outcome_set]
    exact Outcome.optionWarnings _ _ _ _
  | animation f =>
    refine ⟨HasKind.modify hf rfl, _, rfl, ?_⟩
    rw [MotionFunction.outcome_set]
    exact Outcome.optionWarnings _ _ _ _

/-- Of the options of a function those are warned about that are not put into effect. -/
theorem HasKind.foldl_setOption (h : a.HasKind id kind) (options : CompileOptions)
    (entries : List (String × String)) :
    ∃ ws, (entries.foldl (Assembly.setOption options id) a).warnings = a.warnings ++ ws ∧
      OptionWarnings ws
        (entries.filter fun option => kind.outcome option.1 option.2 != .applied).length := by
  induction entries generalizing a with
  | nil => exact ⟨[], (List.append_nil _).symm, .nil⟩
  | cons option entries ih =>
    obtain ⟨hkind, ws, hfirst, hws⟩ := h.setOption options option
    obtain ⟨ws', hlater, hws'⟩ := ih hkind
    refine ⟨ws ++ ws', by rw [List.foldl_cons, hlater, hfirst, List.append_assoc], ?_⟩
    have hboth := hws.append hws'
    rw [List.filter_cons]
    split
    next hrefused => simpa [hrefused, Nat.add_comm] using hboth
    next happlied => simpa [happlied] using hboth

/-- Going through a layer adds one warning for each option in its name that has no effect. -/
theorem exists_optionWarnings_takeLayer [CurveLibrary] (options : CompileOptions) (art : Artwork)
    (a : Assembly) (layer : Layer) (index : Nat) :
    ∃ ws, (a.takeLayer options art (layer, index)).warnings = a.warnings ++ ws ∧
      OptionWarnings ws (LayerName.refused layer.name).length := by
  unfold Assembly.takeLayer
  dsimp only
  generalize hshapeless : (LayerOrder.parse layer.name).shapeless.map
    (Warning.shapelessOption (LayerOrder.parse layer.name).base) = shapeless
  have hws : OptionWarnings shapeless (LayerOrder.parse layer.name).shapeless.length := by
    subst hshapeless
    exact ⟨List.length_map _, by simp [Warning.aboutOption, Warning.kindName]⟩
  -- the options without a key come first, and then those that the function is asked to take
  obtain ⟨hkind, hsame⟩ := hasKind_addLayer options art (LayerOrder.parse layer.name) index layer
    (a.warn shapeless)
  obtain ⟨ws', hentries, hws'⟩ :=
    hkind.foldl_setOption options (LayerOrder.parse layer.name).options
  refine ⟨shapeless ++ ws', ?_, ?_⟩
  · rw [hentries, hsame, ← List.append_assoc]
    rfl
  · rw [LayerOrder.length_refused]
    exact hws.append hws'

/-- Going through all layers adds one warning for each option in their names that has no effect. -/
theorem optionWarnings_run [CurveLibrary] (options : CompileOptions) (art : Artwork)
    (layers : List Layer) :
    OptionWarnings (run options art layers).warnings
      (layers.flatMap fun layer => LayerName.refused layer.name).length := by
  have hrun := foldl_zipIdx_induction (motive := fun n (a : Assembly) =>
    OptionWarnings a.warnings
      ((layers.take n).flatMap fun layer => LayerName.refused layer.name).length)
    (f := takeLayer options art) layers { layers } .nil fun i layer a hlayer h => by
      obtain ⟨ws, hwarnings, hws⟩ := exists_optionWarnings_takeLayer options art a layer i
      rw [hwarnings, List.take_add_one, hlayer, List.flatMap_append, List.length_append]
      simpa using h.append hws
  rwa [List.take_length] at hrun

end Assembly

namespace ArtFunction

/-- The warning about the animation function that a function is to follow, if there is none. -/
def missingAnimation? : ArtFunction → Option Warning
  | .draw f =>
    match f.animationName, f.animation with
    | some name, none => some (.missingAnimation f.header.name name)
    | _, _ => none
  | .animation _ => none

/-- The warnings about the triggers of a function that listen to nothing. -/
def missingSources (f : ArtFunction) : List Warning :=
  (f.triggers.filter fun trigger => trigger.source.isNone).map fun trigger =>
    .missingSource f.name trigger.sourceFunction trigger.sourceClock

/-- Nothing is missing if the animation function that is named was found. -/
theorem missingAnimation?_draw_eq_none_iff {f : DrawFunction} :
    (ArtFunction.draw f).missingAnimation? = none ↔
      ∀ name, f.animationName = some name → ∃ i, f.animation = some i := by
  unfold missingAnimation?
  dsimp only
  cases f.animationName <;> cases f.animation <;> simp

/-- No source is missing if each trigger has one. -/
theorem missingSources_eq_nil_iff {f : ArtFunction} :
    f.missingSources = [] ↔ ∀ trigger ∈ f.triggers, ∃ i, trigger.source = some i := by
  simp [missingSources, Option.ne_none_iff_exists']

end ArtFunction

namespace FunctionTable

/-- The warning about what a function follows can be read off the function that is bound. -/
theorem missingAnimation?_bindFunction (t : FunctionTable) (f : ArtFunction) :
    (t.bindFunction f).missingAnimation? = (t.bindAnimation f).2 := by
  cases f with
  | animation f => rfl
  | draw f =>
    have hbound : (t.bindFunction (.draw f)).missingAnimation? =
        (ArtFunction.draw (t.bindDraw f).1).missingAnimation? := rfl
    rw [hbound, bindAnimation]
    unfold bindDraw
    cases hname : f.animationName with
    | none => simp [ArtFunction.missingAnimation?, hname]
    | some name =>
      dsimp only
      cases t.find? name (some .animation) <;> simp [ArtFunction.missingAnimation?]

/-- Looking for references adds the warnings that can be read off the functions afterwards. -/
theorem warnings_bind (t : FunctionTable) :
    t.bindAnimations.1 =
        t.bindAnimations.2.bindTriggers.2.functions.filterMap ArtFunction.missingAnimation? ∧
      t.bindAnimations.2.bindTriggers.1 =
        t.bindAnimations.2.bindTriggers.2.functions.flatMap ArtFunction.missingSources := by
  constructor
  · rw [functions_bind, List.filterMap_map]
    simp only [bindAnimations_eq, List.filterMap_map]
    exact List.filterMap_congr fun f _ => (t.missingAnimation?_bindFunction f).symm
  · generalize t.bindAnimations.2 = t
    simp only [bindTriggers_eq, List.flatMap_map]
    refine List.flatMap_congr fun f _ => ?_
    have hbound : (f.setTriggers (f.triggers.map t.bindTrigger)).name = f.name ∧
        (f.setTriggers (f.triggers.map t.bindTrigger)).triggers =
          f.triggers.map t.bindTrigger := by
      cases f <;> exact ⟨rfl, rfl⟩
    rw [ArtFunction.missingSources, hbound.1, hbound.2, triggerWarnings]
    -- a bound trigger differs from the trigger in its source alone
    induction f.triggers with
    | nil => rfl
    | cons trigger triggers ih =>
      rw [List.filterMap_cons, List.map_cons, List.filter_cons, ih, bindTrigger]
      cases t.triggerSource trigger <;> rfl

end FunctionTable

namespace Compiled

variable (c : Compiled) (art : Artwork) (settings : CompileOptions)

/-- The warnings of one kind. -/
def warningsOf (kind : String) : List Warning := c.warnings.filter fun w => w.kindName == kind

/-- The warnings of a compiled document are those of the problems that there are, kind by kind. -/
structure Accounts : Prop where
  /-- There is one for each option in the name of a visible layer that has no effect. -/
  options : (c.warningsOf "malformed_option").length + (c.warningsOf "unknown_option").length =
    (art.visibleLayers.flatMap fun layer => LayerName.refused (art.layerName layer)).length
  /-- There is one for each draw function that is to follow an animation function and follows none.
  -/
  animations : c.warningsOf "unresolved_animation" =
    c.functions.functions.filterMap ArtFunction.missingAnimation?
  /-- There is one for each trigger without a source. -/
  triggers : c.warningsOf "unresolved_trigger" =
    c.functions.functions.flatMap ArtFunction.missingSources
  /-- There is one for each layer without art that asks for the page to be cut to it. -/
  crops : c.warningsOf "empty_crop" =
    (c.layers.filter fun l => l.crop && l.bounds.isEmpty).map fun l => .emptyCrop l.name
  /-- There is one for each piece of art that the scan leaves out. -/
  limit : ∃ heads : List Nat, heads.Nodup ∧
    (∀ head, head ∈ heads ↔
      art.LeftOut settings.maxDepth (art.scan settings.maxDepth).2.firstUses head) ∧
    c.warningsOf "depth_limit" = List.replicate heads.length (.tooDeep settings.maxDepth)

/-- Nothing is wrong with a compiled document: all options are in effect, all references are bound,
every layer that cuts the page has art, and no art is left out. -/
structure Faultless : Prop where
  options : ∀ layer ∈ art.visibleLayers,
    ∀ option ∈ (LayerName.parse (art.layerName layer)).options,
      ∃ key value, splitOption option = some (key, value) ∧
        (LayerOrder.parse (art.layerName layer)).kind.outcome key value = .applied
  animations : ∀ f, .draw f ∈ c.functions.functions → ∀ name, f.animationName = some name →
    ∃ i, f.animation = some i
  triggers : ∀ f ∈ c.functions.functions, ∀ trigger ∈ f.triggers, ∃ i, trigger.source = some i
  crops : ∀ l ∈ c.layers, l.crop = true → l.bounds.isEmpty = false
  limit : ∀ head, ¬ art.LeftOut settings.maxDepth (art.scan settings.maxDepth).2.firstUses head

variable {c art settings}

/-- The warnings of one kind are some of all. -/
theorem mem_warningsOf {kind : String} {w : Warning} :
    w ∈ c.warningsOf kind ↔ w ∈ c.warnings ∧ w.kindName = kind := by
  simp [warningsOf]

/-- A document without warnings has none of any kind. -/
theorem warnings_eq_nil_iff_kinds :
    c.warnings = [] ↔
      (c.warningsOf "malformed_option").length + (c.warningsOf "unknown_option").length = 0 ∧
        c.warningsOf "unresolved_animation" = [] ∧ c.warningsOf "unresolved_trigger" = [] ∧
        c.warningsOf "empty_crop" = [] ∧ c.warningsOf "depth_limit" = [] := by
  constructor
  · intro hnone
    simp [warningsOf, hnone]
  · rintro ⟨hoptions, hanimations, htriggers, hcrops, hlimit⟩
    obtain ⟨hmalformed, hunknown⟩ := Nat.add_eq_zero_iff.mp hoptions
    rw [List.length_eq_zero_iff] at hmalformed hunknown
    -- a warning would be one of its own kind
    refine List.eq_nil_iff_forall_not_mem.mpr fun w hw => ?_
    have hkind : c.warningsOf w.kindName ≠ [] :=
      List.ne_nil_of_mem (mem_warningsOf.mpr ⟨hw, rfl⟩)
    cases w with
    | shapelessOption => exact hkind hmalformed
    | unusableValue => exact hkind hmalformed
    | unknownOption => exact hkind hunknown
    | missingAnimation => exact hkind hanimations
    | missingSource => exact hkind htriggers
    | tooDeep => exact hkind hlimit
    | emptyCrop => exact hkind hcrops

/-- A compiled document has no warnings exactly if nothing is wrong with it. -/
theorem Accounts.warnings_eq_nil_iff (h : c.Accounts art settings) :
    c.warnings = [] ↔ c.Faultless art settings := by
  obtain ⟨heads, -, hheads, hlimit⟩ := h.limit
  have hoptions : (art.visibleLayers.flatMap fun layer =>
        LayerName.refused (art.layerName layer)) = [] ↔
      ∀ layer ∈ art.visibleLayers, ∀ option ∈ (LayerName.parse (art.layerName layer)).options,
        ∃ key value, splitOption option = some (key, value) ∧
          (LayerOrder.parse (art.layerName layer)).kind.outcome key value = .applied := by
    simp only [List.flatMap_eq_nil_iff, LayerName.refused, List.filter_eq_nil_iff,
      Bool.not_eq_true, FunctionKind.refuses_eq_false_iff]
  have hnone : heads = [] ↔
      ∀ head, ¬ art.LeftOut settings.maxDepth (art.scan settings.maxDepth).2.firstUses head := by
    simp only [List.eq_nil_iff_forall_not_mem, hheads]
  -- kind by kind, there is no warning exactly if there is nothing to warn of
  rw [warnings_eq_nil_iff_kinds, h.options, h.animations, h.triggers, h.crops, hlimit,
    List.length_eq_zero_iff, hoptions, List.replicate_eq_nil_iff, List.length_eq_zero_iff, hnone,
    List.filterMap_eq_nil_iff, List.flatMap_eq_nil_iff, List.map_eq_nil_iff,
    List.filter_eq_nil_iff]
  constructor
  · rintro ⟨happlied, hanimations, htriggers, hcrops, hdepth⟩
    exact
      { options := happlied
        animations := fun f hf => ArtFunction.missingAnimation?_draw_eq_none_iff.mp
          (hanimations _ hf)
        triggers := fun f hf => ArtFunction.missingSources_eq_nil_iff.mp (htriggers f hf)
        crops := fun l hl hcrop => by simpa [hcrop] using hcrops l hl
        limit := hdepth }
  · intro hfaultless
    refine ⟨hfaultless.options, fun f hf => ?_, fun f hf =>
      ArtFunction.missingSources_eq_nil_iff.mpr (hfaultless.triggers f hf), fun l hl => ?_,
      hfaultless.limit⟩
    · cases f with
      | draw f =>
        exact ArtFunction.missingAnimation?_draw_eq_none_iff.mpr (hfaultless.animations f hf)
      | animation f => rfl
    · cases hcrop : l.crop with
      | false => simp
      | true => simp [hfaultless.crops l hl hcrop]

end Compiled

/-- The warnings of a compiled document, in the order in which they are added: of the scan, of
reading options, of looking for references, and about layers that cut the page. -/
theorem Artwork.warnings_of_compile [CurveLibrary] {art : Artwork} {options : CompileOptions}
    {c : Compiled} (hc : art.compile options = .ok c) :
    c.warnings = (art.scan options.maxDepth).2.warnings ++
      (Assembly.run options art (art.scan options.maxDepth).1).warnings ++
      c.functions.functions.filterMap ArtFunction.missingAnimation? ++
      c.functions.functions.flatMap ArtFunction.missingSources ++
      Compiled.cropWarnings c.layers := by
  have hparts := comesFrom_of_compile hc
  rw [hparts.warnings, hparts.functions, (FunctionTable.warnings_bind _).1,
    (FunctionTable.warnings_bind _).2]

/-- The second part of the warnings is about options, one for each that has no effect. -/
theorem Artwork.exists_warnings_of_compile [CurveLibrary] {art : Artwork} {options : CompileOptions}
    {c : Compiled} (hc : art.compile options = .ok c) :
    ∃ ws, OptionWarnings ws
        (art.visibleLayers.flatMap fun layer => LayerName.refused (art.layerName layer)).length ∧
      c.warnings = (art.scan options.maxDepth).2.warnings ++ ws ++
        c.functions.functions.filterMap ArtFunction.missingAnimation? ++
        c.functions.functions.flatMap ArtFunction.missingSources ++
        Compiled.cropWarnings c.layers := by
  refine ⟨_, ?_, warnings_of_compile hc⟩
  have hnames : ((art.scan options.maxDepth).1.flatMap fun l => LayerName.refused l.name) =
      art.visibleLayers.flatMap fun layer => LayerName.refused (art.layerName layer) := by
    rw [scan_fst, List.flatMap_map]
    rfl
  rw [← hnames]
  exact Assembly.optionWarnings_run _ _ _

namespace Warning

/-- Warnings of one kind are picked out of a list as a whole or not at all. -/
theorem filter_kindName {ws : List Warning} {kind : String} (h : ∀ w ∈ ws, w.kindName = kind)
    (kind' : String) :
    (ws.filter fun w => w.kindName == kind') = if kind = kind' then ws else [] := by
  split
  next heq => exact List.filter_eq_self.mpr fun w hw => by simp [h w hw, heq]
  next hne => exact List.filter_eq_nil_iff.mpr fun w hw => by simp [h w hw, hne]

/-- Missing animation functions have a kind of their own. -/
theorem kindName_of_mem_missingAnimation {w : Warning} {functions : List ArtFunction}
    (h : w ∈ functions.filterMap ArtFunction.missingAnimation?) :
    w.kindName = "unresolved_animation" := by
  obtain ⟨f, -, hf⟩ := List.mem_filterMap.mp h
  unfold ArtFunction.missingAnimation? at hf
  split at hf
  · split at hf <;> cases hf
    rfl
  · cases hf

/-- So have missing sources. -/
theorem kindName_of_mem_missingSources {w : Warning} {functions : List ArtFunction}
    (h : w ∈ functions.flatMap ArtFunction.missingSources) :
    w.kindName = "unresolved_trigger" := by
  obtain ⟨f, -, hf⟩ := List.mem_flatMap.mp h
  obtain ⟨trigger, -, rfl⟩ := List.mem_map.mp hf
  rfl

/-- So have empty layers that the page should be cut to. -/
theorem kindName_of_mem_cropWarnings {w : Warning} {layers : List Layer}
    (h : w ∈ Compiled.cropWarnings layers) : w.kindName = "empty_crop" := by
  obtain ⟨l, -, rfl⟩ := List.mem_map.mp h
  rfl

end Warning

/-- The warnings of a compiled document account for its problems. -/
theorem ArtDocument.WellLinked.accounts [CurveLibrary] {doc : ArtDocument} (h : doc.WellLinked)
    {options : CompileOptions} {c : Compiled} (hc : doc.view.compile options = .ok c) :
    c.Accounts doc.view options := by
  obtain ⟨heads, hnodup, hheads, hscan⟩ := h.exists_leftOut options.maxDepth
  obtain ⟨ws, hws, hwarnings⟩ := Artwork.exists_warnings_of_compile hc
  have hdepth : ∀ w ∈ (doc.view.scan options.maxDepth).2.warnings, w.kindName = "depth_limit" := by
    rw [hscan]
    intro w hw
    rw [List.eq_of_mem_replicate hw]
    rfl
  -- of each kind, one part of the warnings is left as a whole
  have hkinds : ∀ kind, c.warningsOf kind =
      (if "depth_limit" = kind then (doc.view.scan options.maxDepth).2.warnings else []) ++
        (ws.filter fun w => w.kindName == kind) ++
        (if "unresolved_animation" = kind then
          c.functions.functions.filterMap ArtFunction.missingAnimation? else []) ++
        (if "unresolved_trigger" = kind then
          c.functions.functions.flatMap ArtFunction.missingSources else []) ++
        (if "empty_crop" = kind then Compiled.cropWarnings c.layers else []) := by
    intro kind
    rw [Compiled.warningsOf, hwarnings, List.filter_append, List.filter_append,
      List.filter_append, List.filter_append, Warning.filter_kindName hdepth,
      Warning.filter_kindName fun _ => Warning.kindName_of_mem_missingAnimation,
      Warning.filter_kindName fun _ => Warning.kindName_of_mem_missingSources,
      Warning.filter_kindName fun _ => Warning.kindName_of_mem_cropWarnings]
  constructor
  case options =>
    rw [hkinds, hkinds]
    simpa using hws.length_filter
  case animations =>
    rw [hkinds, hws.filter_eq_nil (by decide) (by decide)]
    simp
  case triggers =>
    rw [hkinds, hws.filter_eq_nil (by decide) (by decide)]
    simp
  case crops =>
    rw [hkinds, hws.filter_eq_nil (by decide) (by decide)]
    simp [Compiled.cropWarnings]
  case limit =>
    refine ⟨heads, hnodup, hheads, ?_⟩
    rw [hkinds, hws.filter_eq_nil (by decide) (by decide), hscan]
    simp

namespace ArtDocument

/-- A layer with options of all sorts, of which some have no effect and some refer to nothing, with
art on two levels, and a layer without art that asks for the page to be cut to it. -/
def flawedLayers : ArtDocument where
  layers := #[
    { name := "a(big; size: 2; rotate-delay: -1; origin: c; anim: b; rotate-trigger: c.alpha.start)"
      art := some 0 },
    { name := "b(crop: yes)" }]
  nodes := #[{ bounds := unitBox, firstChild := some 1 }, { bounds := unitBox }]

/-- For every document that passes the check and can be compiled, each problem has its warning and
each warning its problem, and there are no warnings exactly if nothing is wrong. -/
theorem warnings_account [CurveLibrary] (doc : ArtDocument) (hvalid : doc.Valid)
    (options : CompileOptions) (c : Compiled) (hc : doc.view.compile options = .ok c) :
    c.Accounts doc.view options ∧ (c.warnings = [] ↔ c.Faultless doc.view options) :=
  have haccounts := hvalid.wellLinked.accounts hc
  ⟨haccounts, haccounts.warnings_eq_nil_iff⟩

/-- With one level `flawedLayers` has warnings of all kinds: three options have no effect, there is
no animation function `b` and no function `c`, the child is left out, and the second layer has no
art. -/
theorem warnings_account_flawedLayers :
    flawedLayers.Valid ∧
      (flawedLayers.view.visibleLayers.flatMap fun layer =>
        LayerName.refused (flawedLayers.view.layerName layer)) =
          ["big", "size: 2", "rotate-delay: -1"] ∧
      ∃ c, flawedLayers.view.compile { maxDepth := 1 } = .ok c ∧
        c.warnings = [.tooDeep 1, .shapelessOption "a" "big", .unknownOption "a" "size",
          .unusableValue "a" "rotate-delay" "-1", .missingAnimation "a" "b",
          .missingSource "a" "c" .alpha, .emptyCrop "b(crop: yes)"] ∧
        c.Accounts flawedLayers.view { maxDepth := 1 } ∧
        ¬ c.Faultless flawedLayers.view { maxDepth := 1 } := by
  have hvalid : flawedLayers.Valid := by decide +kernel
  have hcompile : (flawedLayers.view.compile { maxDepth := 1 }).toOption.any (fun c =>
      decide (c.warnings = [.tooDeep 1, .shapelessOption "a" "big", .unknownOption "a" "size",
        .unusableValue "a" "rotate-delay" "-1", .missingAnimation "a" "b",
        .missingSource "a" "c" .alpha, .emptyCrop "b(crop: yes)"])) = true := by decide +kernel
  obtain ⟨c, hc, hwarnings⟩ := exists_ok_of_any hcompile
  have hwarnings := of_decide_eq_true hwarnings
  obtain ⟨haccounts, hfaultless⟩ :=
    warnings_account flawedLayers hvalid { maxDepth := 1 } c hc
  refine ⟨hvalid, by decide +kernel, c, hc, hwarnings, haccounts, fun h => ?_⟩
  rw [hfaultless.mpr h] at hwarnings
  cases hwarnings

end ArtDocument

end ArtCanvas
