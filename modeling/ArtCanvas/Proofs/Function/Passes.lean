import ArtCanvas.Function.Table
import Mathlib.Data.List.Basic
import Mathlib.Data.List.Induction

/-!
# What scans and passes over a table come to

A table is scanned from its end for draw functions, with a flag for those that were passed, and
references are found in two passes: all are looked for first, and what was found is then written to
the places where it belongs. This module says in closed form what comes out of that.

* `FunctionTable.findDraw?_eq`: the scan finds the last draw function that is known by the name, and
  the flag says whether it is the last of all.
* `foldl_inPlace`: entries that are written one after the other, each in its own place.
* `FunctionTable.bindAnimations_eq`, `FunctionTable.bindTriggers_eq`: the passes change each
  function by itself, and tell what was not found in the order of the functions.
-/

namespace ArtCanvas

section Last

variable {α : Type} {p : α → Bool}

/-- A search from the end looks at the last element first. -/
theorem lastIdx?_concat (l : List α) (a : α) :
    lastIdx? p (l ++ [a]) = if p a then some l.length else lastIdx? p l := by
  induction l with
  | nil => rfl
  | cons b l ih =>
    rw [List.cons_append, lastIdx?, ih]
    cases hp : p a <;> simp [lastIdx?]

/-- A position that is found is one of the list. -/
theorem lt_of_lastIdx?_eq_some {l : List α} {i : Nat} (h : lastIdx? p l = some i) :
    i < l.length := by
  induction l using List.reverseRecOn with
  | nil => cases h
  | append_singleton l a ih =>
    rw [lastIdx?_concat] at h
    rw [List.length_append, List.length_singleton]
    split at h
    · obtain rfl := Option.some.inj h
      exact Nat.lt_succ_self _
    · exact Nat.lt_succ_of_lt (ih h)

end Last

/-- Entries that are written one after the other, each in the place of its element. Where the
entries of an element make a new one of it and tell something, all entries make new elements of all,
and tell all of this in order. -/
theorem foldl_inPlace {α β ε σ : Type} (entries : α × Nat → List ε) (write : σ → ε → σ)
    (put : List β → List α → σ) (g : α → α) (out : α → List β)
    (h : ∀ done a rest told, (entries (a, done.length)).foldl write (put told (done ++ a :: rest)) =
      put (told ++ out a) (done ++ g a :: rest)) (todo done : List α) (told : List β) :
    ((todo.zipIdx done.length).flatMap entries).foldl write (put told (done ++ todo)) =
      put (told ++ todo.flatMap out) (done ++ todo.map g) := by
  -- what is done grows by one element with each step
  induction todo generalizing done told with
  | nil => simp
  | cons a todo ih =>
    have hdone := ih (done ++ [g a]) (told ++ out a)
    rw [List.length_append, List.length_singleton] at hdone
    rw [List.zipIdx_cons, List.flatMap_cons, List.foldl_append, h, List.append_cons, hdone]
    simp

theorem getElem?_length {α : Type} (before after : List α) (a : α) :
    (before ++ a :: after)[before.length]? = some a := by
  rw [List.getElem?_append_right Nat.le.refl, Nat.sub_self, List.getElem?_cons_zero]

theorem modify_length {α : Type} (before after : List α) (a : α) (g : α → α) :
    (before ++ a :: after).modify before.length g = before ++ g a :: after := by
  induction before with
  | nil => rfl
  | cons b before ih => exact congrArg (b :: ·) ih

namespace FunctionTable

section Scan

/-- A draw function that was passed before the scan is not the last one that the scan finds. -/
theorem scanDraw_reverse (name : String) (passed : Bool) (functions : List ArtFunction) :
    scanDraw name passed functions.zipIdx.reverse =
      (lastIdx? (ArtFunction.drawsFor name) functions).map fun i =>
        (i, !passed && lastIdx? ArtFunction.isDraw functions == some i) := by
  induction functions using List.reverseRecOn generalizing passed with
  | nil => rfl
  | append_singleton functions f ih =>
    rw [List.zipIdx_append, List.reverse_append, lastIdx?_concat, lastIdx?_concat, Nat.zero_add]
    cases f with
    | animation m =>
      -- an animation function is passed without notice
      exact ih passed
    | draw f =>
      change (if f.header.name == name || f.header.requested == name then
        some (functions.length, !passed) else scanDraw name true functions.zipIdx.reverse) = _
      by_cases hknown : (ArtFunction.draw f).drawsFor name = true
      · have hname : (f.header.name == name || f.header.requested == name) = true := hknown
        simp [hname, hknown, ArtFunction.isDraw, ArtFunction.kind]
      · have hname : ¬ (f.header.name == name || f.header.requested == name) = true := hknown
        rw [if_neg hname, if_neg hknown, ih]
        -- what is found further back stands before the function that was passed
        refine Option.map_congr fun i hi => ?_
        have hne := Nat.ne_of_gt (lt_of_lastIdx?_eq_some hi)
        simp [ArtFunction.isDraw, ArtFunction.kind, hne]

/-- The scan finds the last draw function that is known by the name, and says whether it is the last
draw function of all. -/
theorem findDraw?_eq (t : FunctionTable) (name : String) :
    t.findDraw? name = (lastIdx? (ArtFunction.drawsFor name) t.functions).map fun i =>
      (i, lastIdx? ArtFunction.isDraw t.functions == some i) :=
  scanDraw_reverse name false t.functions

end Scan

section Bind

variable (t : FunctionTable)

/-- A draw function with the animation function that it follows, and the warning if there is no
such function. -/
def bindDraw (f : DrawFunction) : DrawFunction × Option Warning :=
  match f.animationName with
  | none => (f, none)
  | some name =>
    match t.find? name (some .animation) with
    | some i => ({ f with animation := some i }, none)
    | none => ({ f with animation := none }, some (.missingAnimation f.header.name name))

/-- A function with the animation function that it follows. -/
def bindAnimation : ArtFunction → ArtFunction × Option Warning
  | .draw f => ((.draw (t.bindDraw f).1), (t.bindDraw f).2)
  | .animation f => (.animation f, none)

/-- A trigger with the function that it listens to. -/
def bindTrigger (trigger : Trigger) : Trigger := { trigger with source := t.triggerSource trigger }

/-- The warnings about the triggers of a function. -/
def triggerWarnings (f : ArtFunction) : List Warning :=
  f.triggers.filterMap fun trigger =>
    if (t.triggerSource trigger).isNone then
      some (.missingSource f.name trigger.sourceFunction trigger.sourceClock)
    else none

theorem foundAnimations_eq : t.foundAnimations = t.functions.zipIdx.flatMap fun (f, i) =>
    (f.asDraw?.bind fun d => d.animationName.map fun name =>
      (i, name, t.find? name (some .animation))).toList := by
  rw [foundAnimations, draws, List.filterMap_filterMap, List.filterMap_eq_flatMap_toList]
  refine List.flatMap_congr fun entry _ => ?_
  obtain ⟨f, i⟩ := entry
  cases f <;> rfl

/-- What was found for a draw function is written to it. -/
theorem writeAnimation_at (done rest : List ArtFunction) (d : DrawFunction) (name : String)
    (found : Option Nat) (told : List Warning) :
    writeAnimation (told, { t with functions := done ++ .draw d :: rest })
        (done.length, name, found) =
      (told ++ if found.isNone then [.missingAnimation d.header.name name] else [],
        { t with functions := done ++ .draw { d with animation := found } :: rest }) := by
  simp only [writeAnimation, getElem?_length, Option.bind_some, ArtFunction.asDraw?, modify,
    modify_length]
  cases found <;> simp

/-- Both passes together give each draw function what it asks for, and tell what was not found. -/
theorem bindAnimations_eq : t.bindAnimations =
    ((t.functions.map t.bindAnimation).filterMap Prod.snd,
      { t with functions := (t.functions.map t.bindAnimation).map Prod.fst }) := by
  -- each draw function has at most one entry, and it is written to that function
  have hpasses := foldl_inPlace
    (fun (f, i) => (f.asDraw?.bind fun d => d.animationName.map fun name =>
      (i, name, t.find? name (some .animation))).toList)
    writeAnimation
    (fun told functions => (told, { t with functions }))
    (fun f => (t.bindAnimation f).1)
    (fun f => (t.bindAnimation f).2.toList)
    (fun done f rest told => ?_) t.functions [] []
  case refine_1 =>
    cases f with
    | animation m => simp [ArtFunction.asDraw?, bindAnimation]
    | draw d =>
      cases hname : d.animationName with
      | none => simp [ArtFunction.asDraw?, bindAnimation, bindDraw, hname]
      | some name =>
        simp only [ArtFunction.asDraw?, Option.bind_some, hname, Option.map_some,
          Option.toList_some, List.foldl_cons, List.foldl_nil, writeAnimation_at, bindAnimation,
          bindDraw]
        cases t.find? name (some .animation) <;> rfl
  rw [bindAnimations, foundAnimations_eq]
  refine hpasses.trans ?_
  rw [List.filterMap_map, List.map_map, List.filterMap_eq_flatMap_toList]
  rfl

/-- What was found for a trigger is written to it. -/
theorem writeSource_at (done rest : List ArtFunction) (f : ArtFunction)
    (before after : List Trigger) (trigger : Trigger) (found : Option Nat) (told : List Warning) :
    writeSource (told, { t with
          functions := done ++ f.setTriggers (before ++ trigger :: after) :: rest })
        (done.length, before.length, found) =
      (told ++ if found.isNone then
          [.missingSource f.name trigger.sourceFunction trigger.sourceClock] else [],
        { t with functions := done ++
          f.setTriggers (before ++ { trigger with source := found } :: after) :: rest }) := by
  have htriggers : ∀ triggers, (f.setTriggers triggers).triggers = triggers := by
    intro triggers
    cases f <;> rfl
  have hname : ∀ triggers, (f.setTriggers triggers).name = f.name := by
    intro triggers
    cases f <;> rfl
  have hagain : ∀ triggers triggers',
      (f.setTriggers triggers).setTriggers triggers' = f.setTriggers triggers' := by
    intro triggers triggers'
    cases f <;> rfl
  -- only the trigger at the position is looked at and changed
  simp only [writeSource, getElem?_length, htriggers, hname, hagain, modify, modify_length]
  cases found <;> simp

/-- Both passes together give each trigger its source, and tell what was not found. -/
theorem bindTriggers_eq : t.bindTriggers =
    (t.functions.flatMap t.triggerWarnings, { t with
      functions := t.functions.map fun f => f.setTriggers (f.triggers.map t.bindTrigger) }) := by
  have hpasses := foldl_inPlace
    (fun entry => entry.1.triggers.zipIdx.map fun place =>
      (entry.2, place.2, t.triggerSource place.1))
    writeSource
    (fun told functions => (told, { t with functions }))
    (fun f => f.setTriggers (f.triggers.map t.bindTrigger))
    t.triggerWarnings
    (fun done f rest told => ?_) t.functions [] []
  case refine_1 =>
    -- within a function its triggers are written in the same way
    have hslots := foldl_inPlace
      (fun place => [(done.length, place.2, t.triggerSource place.1)])
      writeSource
      (fun told triggers => (told, { t with functions := done ++ f.setTriggers triggers :: rest }))
      t.bindTrigger
      (fun trigger => if (t.triggerSource trigger).isNone then
        [.missingSource f.name trigger.sourceFunction trigger.sourceClock] else [])
      (fun before trigger after told => t.writeSource_at done rest f before after trigger _ told)
      f.triggers [] told
    have hsame : f.setTriggers f.triggers = f := by cases f <;> rfl
    simp only [List.nil_append, List.length_nil, hsame] at hslots
    rw [← List.map_eq_flatMap] at hslots
    refine hslots.trans ?_
    rw [triggerWarnings, List.filterMap_eq_flatMap_toList]
    congr 2
    refine List.flatMap_congr fun trigger _ => ?_
    split <;> rfl
  rw [bindTriggers, foundSources]
  exact hpasses

theorem functions_bindAnimations :
    t.bindAnimations.2.functions = t.functions.map fun f => (t.bindAnimation f).1 := by
  rw [bindAnimations_eq, List.map_map]
  rfl

theorem functions_bindTriggers : t.bindTriggers.2.functions =
    t.functions.map fun f => f.setTriggers (f.triggers.map t.bindTrigger) := by
  rw [bindTriggers_eq]

/-- Neither of the passes asks for a function. -/
theorem hasDraw_bind :
    t.bindAnimations.2.hasDraw = t.hasDraw ∧ t.bindTriggers.2.hasDraw = t.hasDraw := by
  rw [bindAnimations_eq, bindTriggers_eq]
  exact ⟨rfl, rfl⟩

end Bind

end FunctionTable

end ArtCanvas
