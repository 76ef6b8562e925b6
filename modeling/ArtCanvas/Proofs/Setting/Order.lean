import ArtCanvas.Proofs.Function.Settings
import ArtCanvas.Proofs.Setting.Sequence
import Mathlib.Data.List.Pairwise
import Mathlib.Data.List.Perm.Basic

/-!
# The order of options

A key addresses a part of a function, under any of its other spellings too: it may be short or long,
and a clock may go by another name or, for an animation function, by none. Options that address
different parts can come in any order. What becomes of each of them is told by its reading alone,
and their settings can change places.

* `DrawPart.ofKey?`, `MotionPart.ofKey?`: the part that a key addresses.
* `Setter.Apart`: no two options address the same part.
* `Setter.SameEffect`: options in two orders come to the same.
* `Setter.Reads.sameEffect`: this is so for any setter whose settings can change places.
* `Setter.sameEffect_of_perm`: it is so for draw functions and animation functions.
-/

namespace ArtCanvas

namespace DrawPart

open Text

/-- The part of a clock that a key addresses, or the triggers. -/
def ofClockKey? (key : String) : Option DrawPart :=
  match cutFirst '-' key.toList with
  | none => none
  | some (name, rest) =>
    match ClockKind.parse? (String.ofList name) with
    | none | some .path => none
    | some target =>
      let rest := String.ofList rest
      if rest = "trigger" then some .triggers else (ClockField.ofKey? rest).map (.clock target)

theorem ofClockKey?_eq {key : String} {name rest : List Char} {target : ClockKind}
    (hcut : cutFirst '-' key.toList = some (name, rest))
    (hkind : ClockKind.parse? (String.ofList name) = some target) (hpath : target ≠ .path) :
    ofClockKey? key =
      if String.ofList rest = "trigger" then some .triggers
      else (ClockField.ofKey? (String.ofList rest)).map (.clock target) := by
  unfold ofClockKey?
  rw [hcut]
  dsimp only
  rw [hkind]
  cases target with
  | path => exact absurd rfl hpath
  | _ => rfl

/-- The part that a key addresses. -/
def ofKey? : String → Option DrawPart
  | "type" | "t" => some .kind
  | "origin" | "o" => some .origin
  | "rasterize" | "rast" => some .image
  | "crop" | "c" => some .crop
  | "animation" | "anim" => some .animation
  | "orientation" | "orient" => some .orientation
  | key => ofClockKey? key

end DrawPart

/-- The part that a key addresses. -/
def MotionPart.ofKey? : String → Option MotionPart
  | "type" | "t" => some .kind
  | key =>
    let key := MotionSetting.clockKey key
    if key = "trigger" then some .triggers else (ClockField.ofKey? key).map .clock

/-! ### Options set what their keys address -/

theorem ClockSetting.ofKey?_of_parse {key value : String} {s : ClockSetting}
    (h : parse key value = .setting s) : ClockField.ofKey? key = some s.field := by
  obtain ⟨field, hkey, hread⟩ := parse_eq_setting_iff.mp h
  rw [hkey, field_of_read? hread]

theorem DrawSetting.ofClockKey?_of_parse {key value : String} {s : DrawSetting}
    (h : parseClock key value = .setting s) : DrawPart.ofClockKey? key = some s.part := by
  obtain ⟨name, rest, target, hcut, hkind, hpath, hs⟩ := cases_of_parseClock h
  rw [DrawPart.ofClockKey?_eq hcut hkind hpath]
  rcases hs with ⟨hrest, t, -, rfl⟩ | ⟨hrest, setting, hsetting, rfl⟩
  · rw [if_pos hrest, part]
  · rw [if_neg hrest, ClockSetting.ofKey?_of_parse hsetting, Option.map_some, part]

/-- An option of a draw function sets the part that its key addresses. -/
theorem DrawSetting.ofKey?_of_parse {key value : String} {s : DrawSetting}
    (h : parse key value = .setting s) : DrawPart.ofKey? key = some s.part := by
  unfold parse at h
  split at h
  -- the last case is for the keys that name a clock
  case h_13 => rw [DrawPart.ofKey?, ofClockKey?_of_parse h] <;> assumption
  all_goals
    obtain ⟨a, -, rfl⟩ := Reading.ofOption_map_eq_setting_iff.mp h
    rfl

/-- An option of an animation function sets the part that its key addresses. -/
theorem MotionSetting.ofKey?_of_parse {key value : String} {s : MotionSetting}
    (h : parse key value = .setting s) : MotionPart.ofKey? key = some s.part := by
  unfold parse at h
  split at h
  case h_3 htype ht =>
    -- no other key is left, so the key is for the clock or for a trigger
    have hkey : MotionPart.ofKey? key =
        if clockKey key = "trigger" then some .triggers
        else (ClockField.ofKey? (clockKey key)).map .clock := by
      rw [MotionPart.ofKey?] <;> assumption
    rw [hkey]
    dsimp only at h
    split at h
    next htrigger =>
      obtain ⟨t, -, rfl⟩ := Reading.ofOption_map_eq_setting_iff.mp h
      rw [if_pos htrigger, part]
    next htrigger =>
      obtain ⟨setting, hsetting, rfl⟩ := Reading.map_eq_setting_iff.mp h
      rw [if_neg htrigger, ClockSetting.ofKey?_of_parse hsetting, Option.map_some, part]
  all_goals
    obtain ⟨kind, -, rfl⟩ := Reading.ofOption_map_eq_setting_iff.mp h
    rfl

/-! ### Options in another order -/

namespace Setter

variable {σ α π : Type} {set : Setter σ} {read : String × String → Reading α} {apply : α → σ → σ}
  {options options' : List (String × String)}

/-- No two options address the same part. Of the options that address nothing there may be any
number. -/
def Apart (address : String → Option π) (options : List (String × String)) : Prop :=
  (options.filterMap fun option => address option.1).Nodup

/-- Whether options are apart is found out by comparing their parts. -/
instance [DecidableEq π] (address : String → Option π) (options : List (String × String)) :
    Decidable (Apart address options) := by
  unfold Apart
  infer_instance

/-- Options in two orders come to the same. -/
structure SameEffect (set : Setter σ) (options options' : List (String × String)) (s : σ) :
    Prop where
  /-- They lead to the same object. -/
  object : (set.setAll options s).2 = (set.setAll options' s).2
  /-- The same becomes of each option. -/
  outcomes : (set.setAll options s).1.Perm (set.setAll options' s).1

/-- Where options set the parts that their keys address, and settings of different parts can change
places, options that address different parts can come in any order. -/
theorem Reads.sameEffect (h : set.Reads read apply) {address : String → Option π} {part : α → π}
    (haddress : ∀ option a, read option = .setting a → address option.1 = some (part a))
    (hcomm : ∀ a b s, part a ≠ part b → apply a (apply b s) = apply b (apply a s))
    (hperm : options.Perm options') (hapart : Apart address options) (s : σ) :
    set.SameEffect options options' s := by
  have hread : ∀ option a, (read option).setting? = some a → address option.1 = some (part a) :=
    fun option a ha => haddress option a (Reading.setting?_eq_some_iff.mp ha)
  -- the settings are of different parts, as the keys address different ones
  have hparts : (options.filterMap fun option => (read option).setting?).Pairwise
      fun a b => part a ≠ part b := by
    rw [Apart, List.Nodup, List.pairwise_filterMap] at hapart
    rw [List.pairwise_filterMap]
    exact hapart.imp fun hne a ha b hb => hne _ (hread _ a ha) _ (hread _ b hb)
  have : Std.Symm fun a b : α => part a ≠ part b := ⟨fun _ _ hne => hne.symm⟩
  constructor
  case object =>
    rw [h.setAll_eq, h.setAll_eq]
    refine (hperm.filterMap _).foldl_eq' (fun a ha b hb s => ?_) s
    -- the same setting twice commutes with itself; only different ones need different parts
    by_cases hab : a = b
    · rw [hab]
    · exact (hcomm a b s (hparts.forall ha hb hab)).symm
  case outcomes =>
    rw [h.setAll_eq, h.setAll_eq]
    exact hperm.map _

/-- The order of options does not matter as long as no two of them address the same part, under any
spelling of the keys, and at most one is a trigger: for draw functions with the layers that they may
mark, and for animation functions, whatever state these are in. -/
theorem sameEffect_of_perm (hperm : options.Perm options') :
    (Apart DrawPart.ofKey? options → ∀ byFunction f layers,
        (DrawFunction.setter byFunction).SameEffect options options' (f, layers)) ∧
      (Apart MotionPart.ofKey? options → ∀ f,
        MotionFunction.setter.SameEffect options options' f) := by
  constructor
  · intro hapart byFunction f layers
    exact (reads_drawFunction byFunction).sameEffect
      (fun _ _ h => DrawSetting.ofKey?_of_parse h)
      (fun _ _ _ hne =>
        Prod.ext (DrawFunction.apply_comm hne) (DrawFunction.applyToLayers_comm hne))
      hperm hapart (f, layers)
  · intro hapart f
    exact reads_motionFunction.sameEffect
      (fun _ _ h => MotionSetting.ofKey?_of_parse h)
      (fun _ _ f hne => MotionFunction.apply_comm hne f) hperm hapart f

/-- Options for both kinds of functions. One of them gives a clock the direction that it has
already, which keeps others from waking it, and two of them address nothing. -/
def mixedOptions : List (String × String) :=
  [("rotate-duration", "2"), ("rotation-dir", "none"), ("fade-dur", "3"), ("crop", "yes"),
    ("o", "center"), ("scale-trigger", "b.path.finished"), ("path-dir", "none"), ("duration", "4"),
    ("colour", "red"), ("colour", "blue")]

/-- It does not matter whether `mixedOptions` are read from the first or from the last, on a
function with one layer that is not marked yet and on a path. -/
theorem sameEffect_of_perm_mixedOptions :
    Apart DrawPart.ofKey? mixedOptions ∧ Apart MotionPart.ofKey? mixedOptions ∧
      (DrawFunction.setter false).SameEffect mixedOptions mixedOptions.reverse
        ({ header := { name := "a", requested := "a" }, layers := [0] },
          [Layer.ofMeasure "a" none {}]) ∧
      MotionFunction.setter.SameEffect mixedOptions mixedOptions.reverse
        { header := { name := "b", requested := "b" } } := by
  have hdraw : Apart DrawPart.ofKey? mixedOptions := by decide +kernel
  have hmotion : Apart MotionPart.ofKey? mixedOptions := by decide +kernel
  obtain ⟨hsameDraw, hsameMotion⟩ := sameEffect_of_perm (List.reverse_perm mixedOptions).symm
  exact ⟨hdraw, hmotion, hsameDraw hdraw false _ _, hsameMotion hmotion _⟩

end Setter

end ArtCanvas
