import ArtCanvas.Proofs.Function.Passes
import ArtCanvas.Proofs.Identifier.Unique
import Mathlib.Data.List.Forall2
import Mathlib.Data.List.Infix

/-!
# Asking a table for functions

Layers ask a table for functions by name. A layer that is drawn may get a function that is there
already; all others get a new one. Names that are asked for may look like names that were made by a
numeric ending.

* `exists_of_lastIdx?_eq_some`, `lastIdx?_append_cons`: what a search from the end finds.
* `FunctionTable.addDraw_cases`: a layer that is drawn gets the last draw function, or a new one.
* `FunctionTable.answer_cases`: what one request does to a table, whatever it asks for.
* `FunctionTable.answerAll_denotes`: over any requests, names stay different, positions keep their
  functions, and a name finds its function.
-/

namespace ArtCanvas

section Last

variable {α : Type} {p : α → Bool} {l : List α}

theorem lastIdx?_eq_none_iff : lastIdx? p l = none ↔ ∀ a ∈ l, p a = false := by
  induction l with
  | nil => simp [lastIdx?]
  | cons a l ih =>
    rw [lastIdx?, List.forall_mem_cons, ← ih]
    cases lastIdx? p l <;> simp

/-- What is looked for in the images of elements is looked for in the elements. -/
theorem lastIdx?_map {β : Type} (g : β → α) (l : List β) :
    lastIdx? p (l.map g) = lastIdx? (p ∘ g) l := by
  induction l with
  | nil => rfl
  | cons b l ih =>
    rw [List.map_cons, lastIdx?, lastIdx?, ih]
    rfl

/-- A search from the end finds the element after which the property holds of none. -/
theorem lastIdx?_append_cons {a : α} {before after : List α} (ha : p a = true)
    (hafter : ∀ b ∈ after, p b = false) :
    lastIdx? p (before ++ a :: after) = some before.length := by
  induction before with
  | nil =>
    rw [List.nil_append, lastIdx?, lastIdx?_eq_none_iff.mpr hafter]
    exact if_pos ha
  | cons b before ih =>
    rw [List.cons_append, lastIdx?, ih]
    rfl

theorem exists_of_lastIdx?_eq_some {i : Nat} (h : lastIdx? p l = some i) :
    ∃ before a after, l = before ++ a :: after ∧ before.length = i ∧ p a = true ∧
      ∀ b ∈ after, p b = false := by
  induction l generalizing i with
  | nil => cases h
  | cons b l ih =>
    rw [lastIdx?] at h
    -- what is found further on comes before the element at hand
    cases hlast : lastIdx? p l with
    | some j =>
      rw [hlast] at h
      obtain ⟨before, a, after, rfl, rfl, ha, hafter⟩ := ih hlast
      exact ⟨b :: before, a, after, rfl, Option.some.inj h, ha, hafter⟩
    | none =>
      simp only [hlast, Option.ite_none_right_eq_some, Option.some.injEq] at h
      exact ⟨[], b, l, rfl, h.2, h.1, lastIdx?_eq_none_iff.mp hlast⟩

end Last

/-- What a layer asks a table for. -/
inductive FunctionRequest where
  /-- A function that paints the layer. -/
  | draw (name : String)
  /-- A function that is followed along the layer. -/
  | animation (name : String)
  deriving DecidableEq, Repr

/-- The function is of the kind that is asked for, and is known by the name that is asked for. -/
def ArtFunction.Answers (f : ArtFunction) : FunctionRequest → Prop
  | .draw name => f.drawsFor name = true
  | .animation name => f.kind = .animation ∧ f.requested = name

namespace FunctionTable

variable (t : FunctionTable)

/-- Gives the function that is asked for, as a position. -/
def answer : FunctionRequest → Nat × FunctionTable
  | .draw name => t.addDraw name
  | .animation name => t.addAnimation name

/-- Answers one request after the other. -/
def answerAll : FunctionTable → List FunctionRequest → List Nat × FunctionTable
  | t, [] => ([], t)
  | t, request :: requests =>
    let (id, t) := t.answer request
    let (ids, t) := answerAll t requests
    (id :: ids, t)

variable {t}

theorem answerAll_cons (t : FunctionTable) (request : FunctionRequest)
    (requests : List FunctionRequest) :
    t.answerAll (request :: requests) =
      ((t.answer request).1 :: ((t.answer request).2.answerAll requests).1,
        ((t.answer request).2.answerAll requests).2) := rfl

/-- A layer that is drawn gets the last draw function of the table if that is known by the name, and
else a new function after all others. -/
theorem addDraw_cases (t : FunctionTable) (name : String) :
    (∃ before f after, t.functions = before ++ .draw f :: after ∧
      (∀ g ∈ after, g.isDraw = false) ∧ (ArtFunction.draw f).drawsFor name = true ∧
      t.addDraw name = (before.length, { t with hasDraw := true })) ∨
    t.addDraw name = (t.functions.length,
      { functions := t.functions ++ [.draw { header := t.newHeader name }], hasDraw := true }) := by
  unfold addDraw
  dsimp only
  split
  next i hfind =>
    refine Or.inl ?_
    simp only [findDraw?_eq, Option.map_eq_some_iff, Prod.mk.injEq, beq_iff_eq] at hfind
    obtain ⟨j, hknown, rfl, hlast⟩ := hfind
    -- both searches come to the same position, so both properties hold of the function there
    obtain ⟨before, f, after, heq, rfl, hknown, -⟩ := exists_of_lastIdx?_eq_some hknown
    obtain ⟨before', f', after', heq', hlength, hdraw, hafter⟩ := exists_of_lastIdx?_eq_some hlast
    rw [heq] at heq'
    obtain ⟨rfl, htail⟩ := List.append_inj heq' hlength.symm
    obtain ⟨rfl, rfl⟩ := List.cons.inj htail
    cases f with
    | animation f => cases hdraw
    | draw f => exact ⟨before, f, after, heq, hafter, hknown, rfl⟩
  next => exact Or.inr rfl

/-- What one request does to a table: either a function is there already that answers it, and the
functions stay, or a function that answers it is put after the others under a free name. -/
theorem answer_cases (t : FunctionTable) (request : FunctionRequest) :
    (∃ f, (t.answer request).2.functions = t.functions ∧
      t.functions[(t.answer request).1]? = some f ∧ f.Answers request) ∨
    (∃ f, (t.answer request).2.functions = t.functions ++ [f] ∧
      (t.answer request).1 = t.functions.length ∧ f.Answers request ∧
      f.name = t.uniqueName f.requested) := by
  cases request with
  | animation name => exact Or.inr ⟨_, rfl, rfl, ⟨rfl, rfl⟩, rfl⟩
  | draw name =>
    rw [answer]
    rcases t.addDraw_cases name with ⟨before, f, after, heq, -, hknown, hadd⟩ | hadd
    · refine Or.inl ⟨.draw f, by rw [hadd], ?_, hknown⟩
      rw [hadd, heq, List.getElem?_append_right le_rfl, Nat.sub_self]
      rfl
    · rw [hadd]
      exact Or.inr ⟨_, rfl, rfl, by simp [ArtFunction.Answers, ArtFunction.drawsFor,
        ArtFunction.isDraw, ArtFunction.kind, ArtFunction.requested, ArtFunction.header, newHeader],
        rfl⟩

/-- The function that is given answers the request. -/
theorem exists_getElem?_answer (t : FunctionTable) (request : FunctionRequest) :
    ∃ f, (t.answer request).2.functions[(t.answer request).1]? = some f ∧ f.Answers request := by
  rcases t.answer_cases request with ⟨f, hsame, hget, hanswers⟩ | ⟨f, hnew, hid, hanswers, -⟩
  · exact ⟨f, by rw [hsame, hget], hanswers⟩
  · exact ⟨f, by rw [hnew, hid, List.getElem?_concat_length], hanswers⟩

/-- A request takes no function away, and moves none. -/
theorem functions_prefix_answer (t : FunctionTable) (request : FunctionRequest) :
    t.functions <+: (t.answer request).2.functions := by
  rcases t.answer_cases request with ⟨f, hsame, -⟩ | ⟨f, hnew, -⟩
  · rw [hsame]
  · rw [hnew]
    exact List.prefix_append _ _

theorem functions_prefix_answerAll (t : FunctionTable) (requests : List FunctionRequest) :
    t.functions <+: (t.answerAll requests).2.functions := by
  induction requests generalizing t with
  | nil => exact List.prefix_rfl
  | cons request requests ih => exact (t.functions_prefix_answer request).trans (ih _)

/-- A position keeps its function. -/
theorem getElem?_answerAll {i : Nat} {f : ArtFunction} (h : t.functions[i]? = some f)
    (requests : List FunctionRequest) : (t.answerAll requests).2.functions[i]? = some f := by
  obtain ⟨more, hmore⟩ := t.functions_prefix_answerAll requests
  rw [← hmore, List.getElem?_append_left (List.getElem?_eq_some_iff.mp h).1, h]

/-- A request keeps the names different. -/
theorem nodup_names_answer (h : t.names.Nodup) (request : FunctionRequest) :
    (t.answer request).2.names.Nodup := by
  unfold names at h ⊢
  rcases t.answer_cases request with ⟨f, hsame, -⟩ | ⟨f, hnew, -, -, hname⟩
  · rwa [hsame]
  · -- the new name was chosen among those that no function has
    rw [hnew, List.map_append, List.map_singleton, ← List.concat_eq_append]
    refine h.concat ?_
    rw [hname]
    exact Identifier.unique_not_mem _ _

theorem nodup_names_answerAll (h : t.names.Nodup) (requests : List FunctionRequest) :
    (t.answerAll requests).2.names.Nodup := by
  induction requests generalizing t with
  | nil => exact h
  | cons request requests ih => exact ih (nodup_names_answer h request)

/-- Every position that is given keeps the function that answered the request. -/
theorem denotes_answerAll (t : FunctionTable) (requests : List FunctionRequest) :
    List.Forall₂ (fun request id => ∃ f, (t.answerAll requests).2.functions[id]? = some f ∧
      f.Answers request) requests (t.answerAll requests).1 := by
  induction requests generalizing t with
  | nil => exact .nil
  | cons request requests ih =>
    rw [answerAll_cons]
    obtain ⟨f, hget, hanswers⟩ := t.exists_getElem?_answer request
    exact .cons ⟨f, getElem?_answerAll hget requests, hanswers⟩ (ih _)

/-- Where names are different, a search finds the function that has the name, if that is of the kind
that is looked for, and nothing else. -/
theorem find?_eq_some_iff_of_kind (h : t.names.Nodup) {name : String} {kind : Option FunctionKind}
    {i : Nat} :
    t.find? name kind = some i ↔
      ∃ f, t.functions[i]? = some f ∧ f.name = name ∧ kind.all (· == f.kind) = true := by
  have hfound : ∀ {name j}, t.find? name kind = some j →
      ∃ f, t.functions[j]? = some f ∧ f.name = name ∧ kind.all (· == f.kind) = true := by
    intro name j hfind
    obtain ⟨before, f, after, heq, rfl, hf, -⟩ := exists_of_lastIdx?_eq_some hfind
    exact ⟨f, by simp [heq], by simpa using hf⟩
  refine ⟨hfound, ?_⟩
  rintro ⟨f, hget, rfl, hkind⟩
  cases hfind : t.find? f.name kind with
  | none =>
    have hmiss := lastIdx?_eq_none_iff.mp hfind f (List.mem_iff_getElem?.mpr ⟨i, hget⟩)
    simp [hkind] at hmiss
  | some j =>
    -- two positions with the same name are the same position
    obtain ⟨g, hget', hname, -⟩ := hfound hfind
    have hnames : t.names[j]? = t.names[i]? := by
      rw [names, List.getElem?_map, List.getElem?_map, hget, hget', Option.map_some,
        Option.map_some, hname]
    have hj : j < t.names.length := by
      rw [names, List.length_map]
      exact (List.getElem?_eq_some_iff.mp hget').1
    rw [(List.getElem?_inj hj h).mp hnames]

/-- Where names are different, a name finds the function that has it, and nothing else. -/
theorem find?_eq_some_iff (h : t.names.Nodup) {name : String} {i : Nat} :
    t.find? name none = some i ↔ ∃ f, t.functions[i]? = some f ∧ f.name = name := by
  simp [find?_eq_some_iff_of_kind h]

/-- However many functions are asked for on an empty table, and whatever is asked for after that:
the names of all functions are different, every position that was given denotes a function that
answers the request, and denotes the same function later, and a name finds the one function that has
it. -/
theorem answerAll_denotes (asked later : List FunctionRequest) :
    (answerAll {} asked).2.names.Nodup ∧
      List.Forall₂ (fun request id => ∃ f, (answerAll {} asked).2.functions[id]? = some f ∧
        f.Answers request ∧
        ((answerAll {} asked).2.answerAll later).2.functions[id]? = some f)
        asked (answerAll {} asked).1 ∧
      ∀ name i, (answerAll {} asked).2.find? name none = some i ↔
        ∃ f, (answerAll {} asked).2.functions[i]? = some f ∧ f.name = name := by
  have hstart : ({} : FunctionTable).names.Nodup := List.nodup_nil
  have hnames := nodup_names_answerAll hstart asked
  refine ⟨hnames, ?_, fun name i => find?_eq_some_iff hnames⟩
  refine (denotes_answerAll {} asked).imp ?_
  rintro request id ⟨f, hget, hanswers⟩
  exact ⟨f, hget, hanswers, getElem?_answerAll hget later⟩

/-- A name that looks like one with an ending is asked for before and after it is made. -/
example :
    let (ids, t) := answerAll {} [.draw "a1", .draw "a", .animation "a", .draw "a", .draw "b",
      .draw "a", .animation "a1"]
    t.names = ["a1", "a", "a2", "b", "a3", "a11"] ∧ ids = [0, 1, 2, 1, 3, 4, 5] ∧
      t.find? "a" none = some 1 ∧ t.find? "a4" none = none := by
  decide +kernel

end FunctionTable

end ArtCanvas
