import ArtCanvas.Proofs.Compile.Functions
import ArtCanvas.Proofs.Identifier.Reading
import ArtCanvas.Proofs.Text.Cleaning
import ArtCanvas.Proofs.Trigger.Text

/-!
# References by name

Options refer to functions by name: a draw function is told which animation function to follow, and
a clock which other one to listen to. A name reaches a function only if it comes through the reading
of the option as it is, and if no other function answers to it.

* `Assembly.author`: one step in which functions are asked for or given options.
* `Assembly.Named`: functions have different names, and names read as themselves; each step keeps
  this.
* `Assembly.references_reach`: whatever was done before, every function can be reached by its name.
-/

namespace ArtCanvas

open Identifier (IsRead)
open Text

section Options

/-- An option that is put together from a key and a value is cut into these. -/
theorem splitOption_append {key value : String} (hkey : ':' ∉ key.toList)
    (hclean : lower (String.ofList (cleanChars key.toList)) = key) (hne : key.isEmpty = false)
    (hvalue : cleanChars value.toList = value.toList) :
    splitOption (key ++ ":" ++ value) = some (key, value) := by
  refine splitOption_eq_some_iff.mpr ⟨key, value, rfl, hkey, hclean.symm, ?_, ?_⟩
  · simpa using hne
  · rw [clean, hvalue, String.ofList_toList]

/-- The key of an option that gives a trigger to the clock of a word. -/
def ClockKind.triggerKey (word : String) : String := word ++ "-trigger"

theorem ClockKind.splitOption_triggerKey {word value : String} {kind : ClockKind}
    (hword : parse? word = some kind) (hvalue : cleanChars value.toList = value.toList) :
    splitOption (triggerKey word ++ ":" ++ value) = some (triggerKey word, value) := by
  unfold parse? at hword
  split at hword <;> first
    | (cases hword; exact splitOption_append (by decide) (by decide) (by decide) hvalue)
    | cases hword

/-- The key of a trigger has a hyphen, so it is no key of another option. -/
theorem ClockKind.hyphen_mem_triggerKey (word : String) : '-' ∈ (triggerKey word).toList := by
  simp [triggerKey]

/-- A key with a hyphen names a clock. -/
theorem DrawSetting.parse_eq_parseClock {key : String} (h : '-' ∈ key.toList) (value : String) :
    parse key value = parseClock key value := by
  unfold parse
  split <;> first | rfl | exact absurd h (by decide)

/-- A draw function reads the option of a trigger with all its spellings. -/
theorem DrawSetting.parse_triggerKey (value : String) {word : String} {kind : ClockKind}
    (hword : ClockKind.parse? word = some kind) (hkind : kind ≠ .path) :
    parse (ClockKind.triggerKey word) value =
      .ofOption ((Trigger.parse? kind value).map .trigger) := by
  have hhyphen : '-' ∉ word.toList := fun hmem => absurd
    (List.all_eq_true.mp (ClockKind.all_isAlphanum_of_parse? hword) _ hmem) (by decide)
  have hcut : cutFirst '-' (ClockKind.triggerKey word).toList =
      some (word.toList, "trigger".toList) := by
    rw [ClockKind.triggerKey, String.toList_append]
    exact cutFirst_append hhyphen _
  rw [parse_eq_parseClock (ClockKind.hyphen_mem_triggerKey word), parseClock, hcut]
  simp only [String.ofList_toList, hword]
  cases kind with
  | path => exact absurd rfl hkind
  | _ => rfl

/-- So does an animation function. -/
theorem MotionSetting.parse_triggerKey (value : String) {word : String}
    (hword : ClockKind.parse? word = some .path) :
    parse (ClockKind.triggerKey word) value =
      .ofOption ((Trigger.parse? .path value).map .trigger) := by
  have hkey : clockKey (ClockKind.triggerKey word) = "trigger" := by
    unfold ClockKind.parse? at hword
    split at hword <;> first | (cases hword; done) | decide
  have hhyphen := ClockKind.hyphen_mem_triggerKey word
  generalize ClockKind.triggerKey word = key at hkey hhyphen ⊢
  unfold parse
  split
  · exact absurd hhyphen (by decide)
  · exact absurd hhyphen (by decide)
  · exact if_pos hkey

end Options

/-- What happens to functions while layers are gone through. -/
inductive AuthoringStep where
  /-- A layer asks for a function of a kind by its own name. -/
  | layer (kind : FunctionKind) (name : String)
  /-- The function at a position gets an option, as it is written. -/
  | option (position : Nat) (text : String)
  deriving DecidableEq, Repr

/-- What a layer asks for. -/
def FunctionRequest.ofLayer (kind : FunctionKind) (name : String) : FunctionRequest :=
  match kind with
  | .draw => .draw (LayerName.parse name).base
  | .animation => .animation (LayerName.parse name).base

/-- What a layer calls a function reads as itself. -/
theorem LayerName.isRead_base (name : String) : IsRead (parse name).base.toList := by
  have hdefault : IsRead defaultBase.toList :=
    (.letter (by decide) (by decide) : IsRead ['d', 'r', 'a', 'w'])
  unfold parse
  split <;> dsimp only <;> exact Identifier.isRead_ofTextOr hdefault _

/-- A function that answers a layer is called by what the layer asks for, or was asked for by it. -/
theorem FunctionRequest.name_or_requested_of_answers {f : ArtFunction} {kind : FunctionKind}
    {name : String} (h : f.Answers (.ofLayer kind name)) :
    f.name = (LayerName.parse name).base ∨ f.requested = (LayerName.parse name).base := by
  cases kind with
  | draw =>
    have hdraws : ArtFunction.drawsFor _ f = true := h
    simp only [ArtFunction.drawsFor, Bool.and_eq_true, Bool.or_eq_true, beq_iff_eq] at hdraws
    exact hdraws.2
  | animation => exact Or.inr h.2

namespace Assembly

variable (options : CompileOptions)

/-- Gives an option to the function at a position, if the option has a key. -/
def giveOption (position : Nat) (a : Assembly) (text : String) : Assembly :=
  (splitOption text).elim a (a.setOption options position)

/-- The assembly after one step. -/
def author (a : Assembly) : AuthoringStep → Assembly
  | .layer kind name => { a with functions := (a.functions.answer (.ofLayer kind name)).2 }
  | .option position text => a.giveOption options position text

/-- The functions have different names, and each name reads as itself. -/
structure Named (a : Assembly) : Prop where
  names : a.functions.names.Nodup
  read : ∀ name ∈ a.functions.names, IsRead name.toList

variable {options} {a : Assembly}

/-- An option changes no name. -/
theorem names_giveOption (position : Nat) (text : String) :
    (a.giveOption options position text).functions.names = a.functions.names := by
  unfold giveOption
  cases splitOption text with
  | none => rfl
  | some option => exact names_setOption a options position option

/-- A new layer keeps names apart. -/
theorem Named.layer (h : a.Named) (kind : FunctionKind) (name : String) :
    (a.author options (.layer kind name)).Named where
  names := FunctionTable.nodup_names_answer h.names _
  read := by
    intro known hknown
    obtain ⟨f, hf, rfl⟩ := List.mem_map.mp hknown
    rcases a.functions.answer_cases (.ofLayer kind name) with
      ⟨g, hsame, -⟩ | ⟨g, hnew, -, hanswers, hname⟩
    · rw [author, hsame] at hf
      exact h.read _ (List.mem_map_of_mem hf)
    · rw [author, hnew, List.mem_append, List.mem_singleton] at hf
      rcases hf with hf | rfl
      · exact h.read _ (List.mem_map_of_mem hf)
      · -- the new name is what was asked for, or that with a number behind it
        rcases FunctionRequest.name_or_requested_of_answers hanswers with heq | heq
        · rw [heq]
          exact LayerName.isRead_base name
        · rw [hname, heq]
          exact (LayerName.isRead_base name).unique _

/-- An option keeps names apart. -/
theorem Named.giveOption (h : a.Named) (options : CompileOptions) (position : Nat)
    (text : String) :
    (a.giveOption options position text).Named where
  names := by
    rw [names_giveOption]
    exact h.names
  read := by
    rw [names_giveOption]
    exact h.read

/-- Each step of an author keeps names apart. -/
theorem Named.author (h : a.Named) (step : AuthoringStep) : (a.author options step).Named := by
  cases step with
  | layer kind name => exact h.layer kind name
  | option position text => exact h.giveOption options position text

/-- After any steps, names are apart. -/
theorem named_foldl_author (options : CompileOptions) (layers : List Layer)
    (steps : List AuthoringStep) :
    (steps.foldl (Assembly.author options) { layers }).Named := by
  have hstart : ({ layers } : Assembly).Named := ⟨List.nodup_nil, by simp [FunctionTable.names]⟩
  exact List.foldlRecOn steps _ hstart fun _ h step _ => h.author step

/-- Giving a function an option that is read as a key and a value sets the option. -/
theorem giveOption_of_splitOption {position : Nat} {text key value : String}
    (h : splitOption text = some (key, value)) :
    a.giveOption options position text = a.setOption options position (key, value) := by
  rw [giveOption, h]
  rfl

/-- The option that names an animation function gives the name to a draw function. -/
theorem functions_giveOption_animation (options : CompileOptions) {position : Nat}
    {d : DrawFunction} {name : String}
    (hd : a.functions.functions[position]? = some (.draw d)) (hname : IsRead name.toList) :
    (a.giveOption options position ("animation:" ++ name)).functions =
      a.functions.modify position fun _ => .draw { d with animationName := some name } := by
  have htext : "animation:" ++ name = "animation" ++ ":" ++ name := rfl
  have hclean : cleanChars name.toList = name.toList := cleanChars_word hname.all_isWordChar
  have hne : ¬ name.isEmpty = true := fun hempty =>
    hname.ne_nil (by rw [String.isEmpty_iff.mp hempty]; rfl)
  have hread : DrawSetting.parse "animation" name = .setting (.animation name) := by
    have hparse : DrawSetting.parse "animation" name =
        .ofOption ((DrawSetting.parseAnimation? name).map .animation) := rfl
    rw [hparse, DrawSetting.parseAnimation?, hname.ofText]
    simp [hne, Reading.ofOption]
  rw [htext, giveOption_of_splitOption
    (splitOption_append (by decide) (by decide) (by decide) hclean), setOption, hd]
  simp only [DrawFunction.set_eq, hread]
  rfl

/-- The option that gives a trigger to a clock of a function adds it behind the others. -/
theorem functions_giveOption_trigger (options : CompileOptions) {position : Nat} {g : ArtFunction}
    {target : ClockKind} {word value : String} {trigger : Trigger}
    (hg : a.functions.functions[position]? = some g) (hword : ClockKind.parse? word = some target)
    (howns : g.owns target = true) (hvalue : cleanChars value.toList = value.toList)
    (htrigger : Trigger.parse? target value = some trigger) :
    (a.giveOption options position (ClockKind.triggerKey word ++ ":" ++ value)).functions =
      a.functions.modify position fun _ => g.setTriggers (g.triggers ++ [trigger]) := by
  rw [giveOption_of_splitOption (ClockKind.splitOption_triggerKey hword hvalue), setOption, hg]
  cases g with
  | draw d =>
    have hread := DrawSetting.parse_triggerKey value hword (bne_iff_ne.mp howns)
    simp only [DrawFunction.set_eq, hread, htrigger]
    rfl
  | animation m =>
    obtain rfl := beq_iff_eq.mp howns
    have hread := MotionSetting.parse_triggerKey value hword
    simp only [MotionFunction.set_eq, hread, htrigger]
    rfl

end Assembly

/-- Triggers are all that is changed by other triggers. -/
theorem ArtFunction.setTriggers_frame (f : ArtFunction) (triggers : List Trigger) :
    (f.setTriggers triggers).triggers = triggers ∧ (f.setTriggers triggers).kind = f.kind ∧
      (f.setTriggers triggers).name = f.name := by
  cases f <;> exact ⟨rfl, rfl, rfl⟩

namespace FunctionTable

variable {t : FunctionTable}

/-- The function at a position after it is replaced, and the functions at other positions. -/
theorem getElem?_modify_const {j : Nat} {g : ArtFunction} (hg : t.functions[j]? = some g)
    (g' : ArtFunction) : (t.modify j fun _ => g').functions[j]? = some g' ∧
      ∀ i ≠ j, (t.modify j fun _ => g').functions[i]? = t.functions[i]? := by
  unfold modify
  refine ⟨by simp [hg], fun i hne => ?_⟩
  simp [hne.symm]

/-- Where a function is changed that keeps its kind and its name, all functions do. -/
theorem exists_getElem?_modify {i j : Nat} {f g g' : ArtFunction} (hf : t.functions[i]? = some f)
    (hg : t.functions[j]? = some g) (hkind : g'.kind = g.kind) (hname : g'.name = g.name) :
    ∃ f', (t.modify j fun _ => g').functions[i]? = some f' ∧ f'.kind = f.kind ∧
      f'.name = f.name := by
  obtain ⟨hself, hother⟩ := getElem?_modify_const hg g'
  by_cases hij : i = j
  · subst hij
    obtain rfl := Option.some.inj (hf.symm.trans hg)
    exact ⟨g', hself, hkind, hname⟩
  · exact ⟨f, (hother i hij).trans hf, rfl, rfl⟩

/-- Where names are different, a draw function that is to follow an animation function by name is
bound to it. -/
theorem getElem?_bindAnimations (h : t.names.Nodup) {i j : Nat} {m : MotionFunction}
    {d : DrawFunction} (hm : t.functions[i]? = some (.animation m))
    (hd : t.functions[j]? = some (.draw d)) (hname : d.animationName = some m.header.name) :
    t.bindAnimations.2.functions[j]? = some (.draw { d with animation := some i }) := by
  have hfind : t.find? m.header.name (some .animation) = some i :=
    (find?_eq_some_iff_of_kind h).mpr ⟨.animation m, hm, rfl, rfl⟩
  simp only [functions_bindAnimations, List.getElem?_map, hd, Option.map_some, bindAnimation,
    bindDraw, hname, hfind]

/-- Binding gives each trigger of a function its source. -/
theorem getElem?_bindTriggers {j : Nat} {g : ArtFunction} (hg : t.functions[j]? = some g) :
    t.bindTriggers.2.functions[j]? = some (g.setTriggers (g.triggers.map t.bindTrigger)) := by
  simp only [functions_bindTriggers, List.getElem?_map, hg, Option.map_some]

/-- Where names are different, a trigger that listens to a function by name is bound to the function
if that has the clock, and else to none. -/
theorem triggerSource_of_name (h : t.names.Nodup) {i : Nat} {f : ArtFunction}
    (hf : t.functions[i]? = some f) {trigger : Trigger} (hname : trigger.sourceFunction = f.name) :
    t.triggerSource trigger = if f.owns trigger.sourceClock then some i else none := by
  have hfind : t.find? trigger.sourceFunction none = some i :=
    (find?_eq_some_iff h).mpr ⟨f, hf, hname.symm⟩
  simp [triggerSource, hfind, hf, Option.filter]

end FunctionTable

namespace Assembly.Named

variable {options : CompileOptions} {a : Assembly} (h : a.Named)

include h

/-- The name of a function is read as it is written. -/
theorem isRead {i : Nat} {f : ArtFunction} (hf : a.functions.functions[i]? = some f) :
    IsRead f.name.toList :=
  h.read _ (List.mem_map_of_mem (List.mem_of_getElem? hf))

/-- A draw function that is given the name of an animation function follows that function. -/
theorem follows {i j : Nat} {m : MotionFunction} {d : DrawFunction}
    (hm : a.functions.functions[i]? = some (.animation m))
    (hd : a.functions.functions[j]? = some (.draw d)) :
    (a.giveOption options j
        ("animation:" ++ m.header.name)).functions.bindAnimations.2.functions[j]? =
      some (.draw { d with animationName := some m.header.name, animation := some i }) := by
  have hgiven := (h.giveOption options j ("animation:" ++ m.header.name)).names
  have hread : IsRead m.header.name.toList := h.isRead hm
  have hoption := functions_giveOption_animation options hd hread
  -- the animation function is another one than the draw function, so it is as before
  have hne : i ≠ j := by
    rintro rfl
    exact absurd (hd.symm.trans hm) nofun
  rw [hoption] at hgiven ⊢
  obtain ⟨hself, hother⟩ := FunctionTable.getElem?_modify_const hd
    (.draw { d with animationName := some m.header.name })
  exact FunctionTable.getElem?_bindAnimations hgiven ((hother i hne).trans hm) hself rfl

/-- A trigger that is given with the name of a function listens to the function, if that has the
clock. -/
theorem listens {i j : Nat} {f g : ArtFunction} {target kind : ClockKind} {heard : ClockEvent}
    {word clock event : String} (hf : a.functions.functions[i]? = some f)
    (hg : a.functions.functions[j]? = some g) (hword : ClockKind.parse? word = some target)
    (howns : g.owns target = true)
    (hclock : Trigger.parseClock? (clock.toList.map Char.toLower) = some kind)
    (hevent : ClockEvent.parse? (lower event) = some heard) :
    ∃ g', (a.giveOption options j (ClockKind.triggerKey word ++ ":" ++
        Trigger.reference f.name clock event)).functions.bindTriggers.2.functions[j]? = some g' ∧
      g'.triggers.getLast? = some { Trigger.starting target f.name kind heard with
        source := if f.owns kind then some i else none } := by
  have hrefers : Trigger.Refers f.name clock event kind heard := ⟨h.isRead hf, hclock, hevent⟩
  have hoption := functions_giveOption_trigger options hg hword howns
    hrefers.cleanChars_reference (hrefers.parse?_reference target)
  have hgiven := (h.giveOption options j (ClockKind.triggerKey word ++ ":" ++
    Trigger.reference f.name clock event)).names
  rw [hoption] at hgiven ⊢
  -- the function that is listened to may be the one that gets the trigger
  obtain ⟨htriggers, hkind, hname⟩ :=
    g.setTriggers_frame (g.triggers ++ [Trigger.starting target f.name kind heard])
  obtain ⟨f', hf', hkind', hname'⟩ := FunctionTable.exists_getElem?_modify hf hg hkind hname
  have hsource : FunctionTable.triggerSource _ (Trigger.starting target f.name kind heard) =
      if f'.owns kind then some i else none :=
    FunctionTable.triggerSource_of_name hgiven hf' hname'.symm
  refine ⟨_, FunctionTable.getElem?_bindTriggers (FunctionTable.getElem?_modify_const hg _).1, ?_⟩
  rw [(ArtFunction.setTriggers_frame _ _).1, htriggers, List.map_append, List.map_singleton,
    List.getLast?_concat, FunctionTable.bindTrigger, hsource, ArtFunction.owns_congr hkind']

end Assembly.Named

/-- Whatever layers ask for functions by their names, and whatever options the functions are given:
the name of each function reads as itself. So an option that names an animation function binds a
draw function to it and to no other one. And a trigger that names a function, with any words for
one of its clocks and for an event, is bound to that function, and to none if the clock is not one
of its own. -/
theorem Assembly.references_reach (options : CompileOptions) (layers : List Layer)
    (steps : List AuthoringStep) :
    let a := steps.foldl (Assembly.author options) { layers }
    (∀ f ∈ a.functions.functions, Identifier.ofText f.name = f.name) ∧
      (∀ i j m d, a.functions.functions[i]? = some (.animation m) →
        a.functions.functions[j]? = some (.draw d) →
          (a.giveOption options j
              ("animation:" ++ m.header.name)).functions.bindAnimations.2.functions[j]? =
            some (.draw { d with animationName := some m.header.name, animation := some i })) ∧
      ∀ i j f g, a.functions.functions[i]? = some f → a.functions.functions[j]? = some g →
        ∀ target word clock event kind heard, ClockKind.parse? word = some target →
          g.owns target = true →
          Trigger.parseClock? (clock.toList.map Char.toLower) = some kind →
          ClockEvent.parse? (lower event) = some heard →
            ∃ g', (a.giveOption options j (ClockKind.triggerKey word ++ ":" ++
                Trigger.reference f.name clock event)).functions.bindTriggers.2.functions[j]? =
                some g' ∧
              g'.triggers.getLast? = some { Trigger.starting target f.name kind heard with
                source := if f.owns kind then some i else none } := by
  intro a
  -- whatever the author did, names are apart and read as they are written
  have hnamed : a.Named := named_foldl_author options layers steps
  refine ⟨fun f hf => (hnamed.read _ (List.mem_map_of_mem hf)).ofText, ?_, ?_⟩
  · exact fun i j m d hm hd => hnamed.follows hm hd
  · exact fun i j f g hf hg target word clock event kind heard hword howns hclock hevent =>
      hnamed.listens hf hg hword howns hclock hevent

namespace Assembly

/-- Functions whose names had to be made: from a name with a digit in front, twice from the same
one, and from none at all. -/
def nineLives : Assembly :=
  [.layer .draw "9 lives", .layer .animation "9 lives", .layer .draw "",
    .layer .draw "9 lives"].foldl (Assembly.author {}) { layers := [] }

/-- All of these can be reached: the animation function is followed, a clock of the last draw
function is listened to, and a clock that it does not have is not. -/
theorem references_reach_nineLives :
    nineLives.functions.names = ["_9Lives", "_9Lives1", "draw", "_9Lives2"] ∧
      (∀ f ∈ nineLives.functions.functions, Identifier.ofText f.name = f.name) ∧
      (∃ d, (nineLives.giveOption {} 2
          "animation:_9Lives1").functions.bindAnimations.2.functions[2]? = some (.draw d) ∧
        d.animation = some 1) ∧
      (∃ g, (nineLives.giveOption {} 1
          "path-trigger:_9Lives2.rotateClock.Finished").functions.bindTriggers.2.functions[1]? =
            some g ∧ g.triggers.getLast?.map Trigger.source = some (some 3)) ∧
      ∃ g, (nineLives.giveOption {} 1
          "path-trigger:_9Lives2.path.Finished").functions.bindTriggers.2.functions[1]? =
            some g ∧ g.triggers.getLast?.map Trigger.source = some none := by
  have hkinds : nineLives.functions.functions.map (fun f => (f.kind, f.name)) =
      [(.draw, "_9Lives"), (.animation, "_9Lives1"), (.draw, "draw"), (.draw, "_9Lives2")] := by
    decide +kernel
  have hnames := congrArg (List.map Prod.snd) hkinds
  rw [List.map_map] at hnames
  -- the functions at the positions that are given options, and of the one that is listened to
  have hentry : ∀ {i : Nat} {entry : FunctionKind × String},
      (nineLives.functions.functions.map fun f => (f.kind, f.name))[i]? = some entry →
        ∃ f, nineLives.functions.functions[i]? = some f ∧ (f.kind, f.name) = entry := by
    intro i entry hentry
    rwa [List.getElem?_map, Option.map_eq_some_iff] at hentry
  obtain ⟨f₁, hf₁, hentry₁⟩ := hentry (i := 1) (by rw [hkinds]; rfl)
  obtain ⟨f₂, hf₂, hentry₂⟩ := hentry (i := 2) (by rw [hkinds]; rfl)
  obtain ⟨f₃, hf₃, hentry₃⟩ := hentry (i := 3) (by rw [hkinds]; rfl)
  obtain ⟨hread, hfollows, hlistens⟩ := references_reach {} [] [.layer .draw "9 lives",
    .layer .animation "9 lives", .layer .draw "", .layer .draw "9 lives"]
  cases f₁ with
  | draw d => cases hentry₁
  | animation m =>
    cases f₂ with
    | animation m => cases hentry₂
    | draw d =>
      have hname : m.header.name = "_9Lives1" := congrArg Prod.snd hentry₁
      have hname₃ : f₃.name = "_9Lives2" := congrArg Prod.snd hentry₃
      have howns : ∀ kind, f₃.owns kind = (ArtFunction.draw d).owns kind := fun kind =>
        ArtFunction.owns_congr (congrArg Prod.fst hentry₃)
      have hbound := hfollows 1 2 m d hf₁ hf₂
      have hheard := hlistens 3 1 f₃ _ hf₃ hf₁ .path "path" "rotateClock" "Finished" .rotate
        .finished rfl rfl (by decide) (by decide)
      have hunheard := hlistens 3 1 f₃ _ hf₃ hf₁ .path "path" "path" "Finished" .path
        .finished rfl rfl (by decide) (by decide)
      rw [hname] at hbound
      rw [hname₃, howns] at hheard hunheard
      refine ⟨hnames, hread, ⟨_, hbound, rfl⟩, ?_, ?_⟩
      · obtain ⟨g, hg, hlast⟩ := hheard
        exact ⟨g, hg, by rw [hlast]; rfl⟩
      · obtain ⟨g, hg, hlast⟩ := hunheard
        exact ⟨g, hg, by rw [hlast]; rfl⟩

end Assembly

end ArtCanvas
