import ArtCanvas.Proofs.Function.Registration

/-!
# Sharing draw functions

Layers that are neighbours in the order of painting share a draw function if they ask for it by one
name. A draw function in between ends that: an earlier one of the same name is never taken up again,
because its layers would be painted too early. Animation functions paint nothing and do not count.

* `FunctionTable.IsLastDraw`, `FunctionTable.Shares`: the last draw function of a table, and whether
  a name takes it up.
* `FunctionTable.addDraw_of_shares`, `FunctionTable.addDraw_of_not_shares`: what asking for a draw
  function does in the one case and in the other.
* `FunctionTable.MarksDraws`: the mark of a table tells whether there is a draw function.
* `FunctionTable.registered_grows`: all of this for every table that requests lead to.
-/

namespace ArtCanvas

theorem ArtFunction.isDraw_eq_false_iff {f : ArtFunction} :
    f.isDraw = false ↔ f.kind = .animation := by
  cases f <;> simp [ArtFunction.isDraw, ArtFunction.kind]

theorem ArtFunction.drawsFor_draw_iff {d : DrawFunction} {name : String} :
    (ArtFunction.draw d).drawsFor name = true ↔
      d.header.name = name ∨ d.header.requested = name := by
  change (true && (d.header.name == name || d.header.requested == name)) = true ↔ _
  simp

namespace FunctionTable

variable {t : FunctionTable} {name : String} {i : Nat} {d : DrawFunction}

/-- At the position stands a draw function, and behind it there are animation functions at most. -/
structure IsLastDraw (t : FunctionTable) (i : Nat) (d : DrawFunction) : Prop where
  getElem? : t.functions[i]? = some (.draw d)
  kind_of_lt : ∀ j f, i < j → t.functions[j]? = some f → f.kind = .animation

/-- At the position stands the last draw function, and it is known by the name: as its own name or
as the one that it was asked for by. -/
def Shares (t : FunctionTable) (name : String) (i : Nat) : Prop :=
  ∃ d, t.IsLastDraw i d ∧ (d.header.name = name ∨ d.header.requested = name)

/-- The last draw function splits the table: behind it nothing is drawn. -/
theorem isLastDraw_iff :
    t.IsLastDraw i d ↔ ∃ before after, t.functions = before ++ .draw d :: after ∧
      before.length = i ∧ ∀ f ∈ after, f.isDraw = false := by
  constructor
  · -- the table is split at the position
    intro h
    obtain ⟨hi, hget⟩ := List.getElem?_eq_some_iff.mp h.getElem?
    refine ⟨t.functions.take i, t.functions.drop (i + 1), ?_, ?_, fun f hf => ?_⟩
    · rw [← hget, ← List.drop_eq_getElem_cons hi, List.take_append_drop]
    · rw [List.length_take, Nat.min_eq_left hi.le]
    · obtain ⟨j, hj⟩ := List.mem_iff_getElem?.mp hf
      rw [List.getElem?_drop] at hj
      exact ArtFunction.isDraw_eq_false_iff.mpr (h.kind_of_lt _ f (by omega) hj)
  · rintro ⟨before, after, heq, rfl, hafter⟩
    refine ⟨by rw [heq, List.getElem?_append_right le_rfl, Nat.sub_self]; rfl, fun j f hj hf => ?_⟩
    obtain ⟨k, rfl⟩ := Nat.exists_eq_add_of_lt hj
    rw [heq, List.getElem?_append_right (by omega), Nat.add_assoc, Nat.add_sub_cancel_left,
      List.getElem?_cons_succ] at hf
    exact ArtFunction.isDraw_eq_false_iff.mp (hafter f (List.mem_of_getElem? hf))

/-- A layer gets the last draw function if the name takes that up, and no function changes. -/
theorem addDraw_of_shares (h : t.Shares name i) :
    t.addDraw name = (i, { t with hasDraw := true }) := by
  obtain ⟨d, hlast, hname⟩ := h
  obtain ⟨before, after, heq, rfl, hafter⟩ := isLastDraw_iff.mp hlast
  have hnone : ∀ f ∈ after, f.drawsFor name = false := fun f hf => by
    rw [ArtFunction.drawsFor, hafter f hf, Bool.false_and]
  -- the search by name and the search for any draw function come to the same position
  unfold addDraw
  dsimp only
  rw [findDraw?_eq]
  dsimp only
  rw [heq, lastIdx?_append_cons (ArtFunction.drawsFor_draw_iff.mpr hname) hnone,
    lastIdx?_append_cons rfl hafter, Option.map_some, beq_self_eq_true]

/-- A layer gets a new function behind all others if the name does not take up the last one. -/
theorem addDraw_of_not_shares (h : ¬∃ i, t.Shares name i) :
    t.addDraw name = (t.functions.length,
      { functions := t.functions ++ [.draw { header := t.newHeader name }], hasDraw := true }) := by
  rcases t.addDraw_cases name with ⟨before, d, after, heq, hafter, hknown, -⟩ | hnew
  · exact absurd ⟨before.length, d, isLastDraw_iff.mpr ⟨before, after, heq, rfl, hafter⟩,
      ArtFunction.drawsFor_draw_iff.mp hknown⟩ h
  · exact hnew

/-- The table is marked exactly if it has a draw function. -/
def MarksDraws (t : FunctionTable) : Prop :=
  t.hasDraw = true ↔ ∃ d, ArtFunction.draw d ∈ t.functions

theorem MarksDraws.answer (h : t.MarksDraws) (request : FunctionRequest) :
    (t.answer request).2.MarksDraws := by
  cases request with
  | animation name =>
    -- the new function is none that draws, and the mark stays
    have hsame : (∃ d, ArtFunction.draw d ∈ (t.addAnimation name).2.functions) ↔
        ∃ d, ArtFunction.draw d ∈ t.functions := by
      simp [addAnimation, push]
    exact Iff.trans h hsame.symm
  | draw name =>
    rw [MarksDraws, FunctionTable.answer]
    rcases t.addDraw_cases name with ⟨before, d, after, heq, -, -, hadd⟩ | hadd
    · rw [hadd]
      exact iff_of_true rfl ⟨d, by rw [heq]; exact List.mem_append_right _ List.mem_cons_self⟩
    · rw [hadd]
      exact iff_of_true rfl ⟨_, List.mem_append_right _ (List.mem_singleton_self _)⟩

theorem MarksDraws.answerAll (h : t.MarksDraws) (requests : List FunctionRequest) :
    (t.answerAll requests).2.MarksDraws := by
  induction requests generalizing t with
  | nil => exact h
  | cons request requests ih => exact ih (h.answer request)

/-- Where a function is shared the mark is set already, so the table stays as a whole. -/
theorem MarksDraws.addDraw_of_shares (hmarks : t.MarksDraws) (h : t.Shares name i) :
    t.addDraw name = (i, t) := by
  obtain ⟨d, hlast, -⟩ := id h
  rw [FunctionTable.addDraw_of_shares h, ← hmarks.mpr ⟨d, List.mem_of_getElem? hlast.getElem?⟩]

/-- The table that requests lead to from an empty one. -/
def registered (requests : List FunctionRequest) : FunctionTable :=
  (answerAll {} requests).2

theorem marksDraws_registered (requests : List FunctionRequest) :
    (registered requests).MarksDraws :=
  MarksDraws.answerAll (by simp [MarksDraws]) requests

/-- How any table that requests lead to answers the next one. A layer gets the last draw function
exactly if that is known by the name, and then the table stays as it is; exactly otherwise one draw
function is put behind all others, under the first form of the name that no function has. An
animation function is always a new one. The table tells whether there is a draw function. -/
theorem registered_grows (requests : List FunctionRequest) (name : String) :
    (∀ i, (registered requests).addDraw name = (i, registered requests) ↔
        (registered requests).Shares name i) ∧
      ((registered requests).addDraw name = ((registered requests).functions.length,
          { functions := (registered requests).functions ++ [.draw
              { header := { name := (registered requests).uniqueName name, requested := name } }]
            hasDraw := true }) ↔
        ¬∃ i, (registered requests).Shares name i) ∧
      (registered requests).addAnimation name = ((registered requests).functions.length,
        { registered requests with
          functions := (registered requests).functions ++ [.animation
            { header := { name := (registered requests).uniqueName name, requested := name } }] }) ∧
      (∃ n, (registered requests).uniqueName name = Identifier.candidate name n ∧
        Identifier.candidate name n ∉ (registered requests).names ∧
        ∀ m < n, Identifier.candidate name m ∈ (registered requests).names) ∧
      ((registered requests).hasDraw = true ↔
        ∃ d, ArtFunction.draw d ∈ (registered requests).functions) := by
  have hmarks := marksDraws_registered requests
  generalize registered requests = t at hmarks ⊢
  -- a table that gets a function is another one
  have hlonger : ∀ {f : ArtFunction} {i}, (i, t) ≠ (t.functions.length,
      { functions := t.functions ++ [f], hasDraw := true }) := by
    intro f i h
    have hlength := congrArg (fun answer => answer.2.functions.length) h
    simp at hlength
  refine ⟨fun i => ⟨fun hsame => ?_, hmarks.addDraw_of_shares⟩, ⟨?_, addDraw_of_not_shares⟩, rfl,
    Identifier.exists_unique_eq_candidate name t.names, hmarks⟩
  · by_contra hnot
    by_cases hany : ∃ j, t.Shares name j
    · obtain ⟨j, hj⟩ := hany
      have hij : j = i := congrArg Prod.fst ((hmarks.addDraw_of_shares hj).symm.trans hsame)
      exact hnot (hij ▸ hj)
    · exact hlonger (hsame.symm.trans (addDraw_of_not_shares hany))
  · rintro hnew ⟨i, hi⟩
    exact hlonger ((hmarks.addDraw_of_shares hi).symm.trans hnew)

/-- A function is shared over animation functions, by either of its names, but not over another draw
function. -/
example :
    ((registered [.draw "a", .draw "b", .draw "a", .animation "a", .animation "b"]).addDraw "a").1
        = 2 ∧
      ((registered [.draw "a", .draw "b", .draw "a", .animation "a"]).addDraw "a1").1 = 2 ∧
      ((registered [.draw "a", .draw "b"]).addDraw "a").1 = 2 := by
  decide

end FunctionTable

end ArtCanvas
