import ArtCanvas.Proofs.Identifier.Unique
import ArtCanvas.Proofs.Pattern.Table
import Mathlib.Data.List.Forall2

/-!
# Names of patterns and of symbol functions

A pattern gets a name of its own when it is registered, and a symbol gets a function name that is
made from it. A function name ends in `Symbol` and perhaps a number, so the name of the pattern can
be read off, and different patterns have different function names.

* `PatternTable.names`: the names of the patterns.
* `Pattern.HasFunctionName`: the function name is made from the name of the pattern.
* `PatternTable.forall₂_namedApart`: naming the symbol functions gives each symbol a name that is
  not taken, and changes nothing else.
* `PatternTable.functionName_injOn`: different patterns have different function names.
-/

namespace ArtCanvas

/-- In related lists an element of the second one is related to one of the first. -/
theorem exists_mem_of_forall₂ {α β : Type} {R : α → β → Prop} {l : List α} {l' : List β}
    (h : List.Forall₂ R l l') {b : β} (hb : b ∈ l') : ∃ a ∈ l, R a b := by
  induction h with
  | nil => cases hb
  | @cons a b' l l' hab _ ih =>
    rcases List.mem_cons.mp hb with rfl | hb
    · exact ⟨a, List.mem_cons_self, hab⟩
    · obtain ⟨a', ha', hab'⟩ := ih hb
      exact ⟨a', List.mem_cons_of_mem a ha', hab'⟩

namespace Identifier

/-- A number at the end of a name that ends in no digit can be told from it. -/
theorem dropWhile_reverse_candidate {base : String} {last : Char} {front : List Char}
    (hbase : base.toList.reverse = last :: front) (hlast : last.isDigit = false) (n : Nat) :
    (candidate base n).toList.reverse.dropWhile Char.isDigit = base.toList.reverse := by
  -- read from the end, the digits of the number come first, and then the name begins
  have hstop : (last :: front).dropWhile Char.isDigit = last :: front := by simp [hlast]
  cases n with
  | zero => rw [candidate_zero, hbase, hstop]
  | succ n =>
    have hdigits : ∀ c ∈ (n + 1).repr.toList.reverse, c.isDigit = true :=
      fun c hc => isDigit_of_mem_repr (List.mem_reverse.mp hc)
    rw [candidate_succ, String.toList_append, List.reverse_append,
      List.dropWhile_append_of_pos hdigits, hbase, hstop]

/-- Forms of names that end in no digit are the same only for the same name. -/
theorem candidate_symbolFunctionName_inj {name name' : String} {n n' : Nat}
    (h : candidate (symbolFunctionName name) n = candidate (symbolFunctionName name') n') :
    name = name' ∧ n = n' := by
  have hreverse : ∀ name : String, (symbolFunctionName name).toList.reverse =
      'l' :: ("obmyS".toList ++ name.toList.reverse) := by
    intro name
    rw [symbolFunctionName, String.toList_append, List.reverse_append]
    rfl
  have hnames := congrArg (fun s => s.toList.reverse.dropWhile Char.isDigit) h
  rw [dropWhile_reverse_candidate (hreverse name) (by decide),
    dropWhile_reverse_candidate (hreverse name') (by decide), List.reverse_inj,
    String.toList_inj, symbolFunctionName, symbolFunctionName, String.append_left_inj] at hnames
  subst hnames
  exact ⟨rfl, candidate_injective _ h⟩

/-- The name of a symbol function has the letters of its ending, whatever number follows. -/
theorem mem_toList_candidate_symbolFunctionName (name : String) (n : Nat) :
    'S' ∈ (candidate (symbolFunctionName name) n).toList ∧
      'y' ∈ (candidate (symbolFunctionName name) n).toList := by
  cases n <;> simp [candidate_succ, symbolFunctionName]

/-- The name of a symbol function is no word that a script reserves: it holds `S` and `y`. -/
theorem escape_candidate_symbolFunctionName (name : String) (n : Nat) :
    escape (candidate (symbolFunctionName name) n) = candidate (symbolFunctionName name) n := by
  have hwords : ∀ word ∈ reservedWords, ¬ ('S' ∈ word.toList ∧ 'y' ∈ word.toList) := by
    decide +kernel
  exact escape_of_not_mem fun hreserved =>
    hwords _ hreserved (mem_toList_candidate_symbolFunctionName name n)

end Identifier

namespace Pattern

/-- The name of the symbol function is made from the name of the pattern. -/
def HasFunctionName (p : Pattern) : Prop :=
  ∃ n, p.functionName = Identifier.candidate (symbolFunctionName p.name) n

/-- Without a function name of its own a pattern has the one that its name suggests. -/
theorem hasFunctionName_of_none {p : Pattern} (h : p.symbolFunction = none) :
    p.HasFunctionName := ⟨0, by rw [functionName, h]; rfl⟩

/-- The name of a symbol function is no reserved word. -/
theorem HasFunctionName.escape {p : Pattern} (h : p.HasFunctionName) :
    Identifier.escape p.functionName = p.functionName := by
  obtain ⟨n, hn⟩ := h
  rw [hn, Identifier.escape_candidate_symbolFunctionName]

/-- The pattern before and after the symbol functions are named: a symbol gets a name that is made
from its own, and any other pattern stays. -/
def NamedAs (p q : Pattern) : Prop :=
  if p.isSymbol then
    ∃ n, q = { p with symbolFunction := some (Identifier.candidate (symbolFunctionName p.name) n) }
  else q = p

/-- The same, where the name that a symbol gets is not taken, and its number is bounded. -/
def NamedApart (taken : List String) (limit : Nat) (p q : Pattern) : Prop :=
  if p.isSymbol then
    ∃ n ≤ limit, Identifier.candidate (symbolFunctionName p.name) n ∉ taken ∧
      q = { p with
        symbolFunction := some (Identifier.candidate (symbolFunctionName p.name) n) }
  else q = p

namespace NamedApart

variable {taken : List String} {limit : Nat} {p q : Pattern}

/-- A pattern that is named apart is named. -/
theorem namedAs (h : p.NamedApart taken limit q) : p.NamedAs q := by
  unfold NamedApart at h
  unfold NamedAs
  split at h
  case isTrue hsymbol =>
    obtain ⟨n, -, -, rfl⟩ := h
    rw [if_pos hsymbol]
    exact ⟨n, rfl⟩
  case isFalse hsymbol =>
    rw [if_neg hsymbol]
    exact h

/-- A symbol has a name after the naming, and this is not taken. -/
theorem exists_name (h : p.NamedApart taken limit q) (hsymbol : q.isSymbol = true) :
    ∃ name, q.symbolFunction = some name ∧ name ∉ taken := by
  unfold NamedApart at h
  split at h
  case isTrue =>
    obtain ⟨n, -, hfree, rfl⟩ := h
    exact ⟨_, rfl, hfree⟩
  case isFalse hplain =>
    rw [h] at hsymbol
    exact absurd hsymbol hplain

end NamedApart

namespace NamedAs

variable {p q : Pattern}

/-- Naming a pattern changes its function only. -/
theorem exists_eq (h : p.NamedAs q) : ∃ symbolFunction, q = { p with symbolFunction } := by
  unfold NamedAs at h
  split at h
  · obtain ⟨n, rfl⟩ := h
    exact ⟨_, rfl⟩
  · exact ⟨p.symbolFunction, h⟩

/-- A pattern that is named has the name of a symbol function. -/
theorem hasFunctionName (h : p.NamedAs q) (hnone : p.symbolFunction = none) :
    q.HasFunctionName := by
  unfold NamedAs at h
  split at h
  · obtain ⟨n, rfl⟩ := h
    exact ⟨n, rfl⟩
  · rw [h]
    exact hasFunctionName_of_none hnone

end NamedAs

end Pattern

namespace PatternTable

/-- The names of the patterns. -/
def names (t : PatternTable) : List String := t.patterns.map Pattern.name

/-- Registering a use keeps the names different. -/
theorem nodup_names_add {t : PatternTable} (h : t.names.Nodup) (handle : Nat) (role : PatternRole)
    (source : PatternSource) : (t.add handle role source).2.names.Nodup := by
  unfold names at h ⊢
  by_cases hmem : handle ∈ t.handles
  · rwa [map_add_of_mem role source (fun _ _ => rfl) hmem]
  · rw [patterns_add_of_not_mem role source hmem, List.map_append, List.map_singleton,
      ← List.concat_eq_append]
    exact h.concat (Identifier.unique_not_mem _ _)

/-- Naming the symbol functions goes from one pattern to the next. As many names as there are
patterns are in use besides those that are taken, so that the numbers stay below both counts
together. -/
theorem forall₂_nameSymbolsFrom (taken : List String) (done rest : List Pattern) :
    ∃ named, nameSymbolsFrom taken done rest = done ++ named ∧
      List.Forall₂ (Pattern.NamedApart taken (taken.length + (done.length + rest.length)))
        rest named := by
  induction rest generalizing done with
  | nil => exact ⟨[], by simp [nameSymbolsFrom], .nil⟩
  | cons p rest ih =>
    rw [nameSymbolsFrom]
    generalize hq : (if p.isSymbol then _ else p) = q
    obtain ⟨named, heq, hnamed⟩ := ih (done ++ [q])
    -- the pattern that was named goes over to those that are done
    have hlength : (done ++ [q]).length + rest.length = done.length + (p :: rest).length := by
      simp only [List.length_append, List.length_cons, List.length_nil]
      omega
    rw [hlength] at hnamed
    refine ⟨q :: named, by rw [heq, List.append_assoc]; rfl, .cons ?_ hnamed⟩
    subst hq
    unfold Pattern.NamedApart
    split
    · obtain ⟨n, hn, hname, hfree⟩ := Identifier.exists_le_unique_eq_candidate
        (symbolFunctionName p.name) (taken ++ functionNames (done ++ p :: rest))
      have hnames : (functionNames (done ++ p :: rest)).length ≤ (done ++ p :: rest).length :=
        List.length_filterMap_le ..
      rw [List.length_append] at hn hnames
      exact ⟨n, by omega, fun hmem => hfree (List.mem_append_left _ hmem), by rw [hname]⟩
    · rfl

/-- Naming the symbol functions gives each symbol a name that is not taken. -/
theorem forall₂_namedApart (t : PatternTable) (taken : List String) :
    List.Forall₂ (Pattern.NamedApart taken (taken.length + t.patterns.length)) t.patterns
      (t.nameSymbols taken).patterns := by
  obtain ⟨named, heq, hnamed⟩ := forall₂_nameSymbolsFrom taken [] t.patterns
  rw [List.length_nil, Nat.zero_add] at hnamed
  rw [nameSymbols, heq]
  exact hnamed

/-- Each pattern of a table is named by itself. -/
theorem forall₂_nameSymbols (t : PatternTable) (taken : List String) :
    List.Forall₂ Pattern.NamedAs t.patterns (t.nameSymbols taken).patterns :=
  (t.forall₂_namedApart taken).imp fun _ _ h => h.namedAs

/-- What is not the name of a symbol function stays when symbol functions are named. -/
theorem map_nameSymbols {α : Type} {g : Pattern → α}
    (hg : ∀ p symbolFunction, g { p with symbolFunction } = g p) (t : PatternTable)
    (taken : List String) : (t.nameSymbols taken).patterns.map g = t.patterns.map g := by
  rw [eq_comm, ← List.forall₂_eq_eq_eq, List.forall₂_map_left_iff, List.forall₂_map_right_iff]
  refine (t.forall₂_nameSymbols taken).imp fun p q h => ?_
  obtain ⟨symbolFunction, rfl⟩ := h.exists_eq
  exact (hg p symbolFunction).symm

/-- A pattern of the table with named symbol functions was in the table before. -/
theorem exists_of_mem_nameSymbols {t : PatternTable} {taken : List String} {q : Pattern}
    (hq : q ∈ (t.nameSymbols taken).patterns) : ∃ p ∈ t.patterns, p.NamedAs q :=
  exists_mem_of_forall₂ (t.forall₂_nameSymbols taken) hq

/-- The name that a symbol gets is not taken. -/
theorem exists_name_of_mem_nameSymbols {t : PatternTable} {taken : List String} {q : Pattern}
    (hq : q ∈ (t.nameSymbols taken).patterns) (hsymbol : q.isSymbol = true) :
    ∃ name, q.symbolFunction = some name ∧ name ∉ taken := by
  obtain ⟨p, -, hnamed⟩ := exists_mem_of_forall₂ (t.forall₂_namedApart taken) hq
  exact hnamed.exists_name hsymbol

/-- No symbol function takes a name that was taken. -/
theorem functionName_not_mem_of_mem_nameSymbols {t : PatternTable} {taken : List String}
    {q : Pattern} (hq : q ∈ (t.nameSymbols taken).patterns) (hsymbol : q.isSymbol = true) :
    q.functionName ∉ taken := by
  obtain ⟨name, hname, hfree⟩ := exists_name_of_mem_nameSymbols hq hsymbol
  rwa [Pattern.functionName, hname]

/-- Where the patterns have different names and function names that are made from these, different
patterns have different function names. -/
theorem functionName_injOn {t : PatternTable} (hnames : t.names.Nodup)
    (hmade : ∀ p ∈ t.patterns, p.HasFunctionName) {p q : Pattern} (hp : p ∈ t.patterns)
    (hq : q ∈ t.patterns) (h : p.functionName = q.functionName) : p = q := by
  obtain ⟨n, hn⟩ := hmade p hp
  obtain ⟨n', hn'⟩ := hmade q hq
  rw [hn, hn'] at h
  exact List.inj_on_of_nodup_map hnames hp hq (Identifier.candidate_symbolFunctionName_inj h).1

end PatternTable

end ArtCanvas
