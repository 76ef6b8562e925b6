import ArtCanvas.Proofs.Identifier.Name
import ArtCanvas.Text.Split

/-!
# Texts that are put together from words

Options and triggers are cut at single characters, and the pieces are stripped of what stands around
them. Cutting gives back what was put together, whatever the text is; and nothing is stripped from
pieces that are words.

* `Text.Bare`: a text without white space and quotation marks at its ends, and
  `Text.cleanChars_of_bare`: nothing is stripped from it.
* `Text.trimChars_word`, `Text.cleanChars_word`, `Text.cleanChars_of_words`: nor is it from words.
* `Text.exists_dropEnd_append`, `Text.dropEnd_append`: what is stripped from the end of a text.
* `Text.cutFirst_eq_some_iff`, `Text.cutLast_eq_some_iff`, `Text.dropLast?_eq_some_iff`: the parts
  that a text is cut into are those that it is put together from.
* `Text.intercalate_splitAt`, `Text.splitAt_intercalate`, `Text.not_mem_of_mem_splitAt`: so are its
  pieces between separators.
-/

namespace ArtCanvas.Text

open Identifier (isWordChar)

/-- Neither the first nor the last character satisfies the predicate. -/
def EndsClear (p : Char → Bool) (cs : List Char) : Prop :=
  (∀ c, cs.head? = some c → p c = false) ∧ ∀ c, cs.getLast? = some c → p c = false

/-- White space or a quotation mark. -/
def isWrapping (c : Char) : Bool := isBlank c || isQuote c

/-- Neither white space nor a quotation mark stands at the ends. -/
def Bare (cs : List Char) : Prop := EndsClear isWrapping cs

section Strip

variable {cs : List Char}

/-- All that is stripped from the end satisfies the predicate. -/
theorem exists_dropEnd_append (p : Char → Bool) (cs : List Char) :
    ∃ ending, (∀ c ∈ ending, p c = true) ∧ cs = dropEnd p cs ++ ending := by
  refine ⟨(cs.reverse.takeWhile p).reverse, fun c hc => ?_, ?_⟩
  · exact List.all_eq_true.mp List.all_takeWhile c (List.mem_reverse.mp hc)
  · rw [dropEnd, ← List.reverse_append, List.takeWhile_append_dropWhile, List.reverse_reverse]

/-- And all characters at the end that satisfy the predicate are stripped. -/
theorem dropEnd_append {p : Char → Bool} {ending : List Char} (h : ∀ c ∈ ending, p c = true)
    (cs : List Char) : dropEnd p (cs ++ ending) = dropEnd p cs := by
  rw [dropEnd, List.reverse_append,
    List.dropWhile_append_of_pos fun c hc => h c (List.mem_reverse.mp hc), dropEnd]

/-- A text whose first character stays is not cut from the front. -/
theorem dropWhile_eq_self {p : Char → Bool} (h : ∀ c, cs.head? = some c → p c = false) :
    cs.dropWhile p = cs := by
  cases cs with
  | nil => rfl
  | cons c cs => exact List.dropWhile_cons_of_neg (by rw [h c rfl]; exact Bool.false_ne_true)

/-- A text whose last character stays is not cut from behind. -/
theorem dropEnd_eq_self {p : Char → Bool} (h : ∀ c, cs.getLast? = some c → p c = false) :
    dropEnd p cs = cs := by
  have hreverse : cs.reverse.dropWhile p = cs.reverse :=
    dropWhile_eq_self fun c hc => h c (by rwa [List.head?_reverse] at hc)
  rw [dropEnd, hreverse, List.reverse_reverse]

theorem dropEnd_concat {p : Char → Bool} {c : Char} (h : p c = false) (cs : List Char) :
    dropEnd p (cs ++ [c]) = cs ++ [c] := by
  refine dropEnd_eq_self fun d hd => ?_
  rw [List.getLast?_concat, Option.some.injEq] at hd
  rwa [← hd]

/-- A text whose ends stay is not stripped. -/
theorem EndsClear.stripChars_eq_self {p : Char → Bool} (h : EndsClear p cs) :
    stripChars p cs = cs := by
  rw [stripChars, dropWhile_eq_self h.1, dropEnd_eq_self h.2]

theorem bare_iff : Bare cs ↔ EndsClear isBlank cs ∧ EndsClear isQuote cs := by
  simp only [Bare, EndsClear, isWrapping, Bool.or_eq_false_iff, forall_and]
  tauto

theorem cleanChars_of_bare (h : Bare cs) : cleanChars cs = cs := by
  obtain ⟨hblank, hquote⟩ := bare_iff.mp h
  have htrim : trimChars cs = cs := hblank.stripChars_eq_self
  rw [cleanChars, htrim, hquote.stripChars_eq_self, htrim]

/-- Characters of names are neither white space nor quotation marks. -/
theorem isBlank_or_isQuote_of_isWordChar {c : Char} (h : isWordChar c = true) :
    isBlank c = false ∧ isQuote c = false := by
  rw [isWordChar, Bool.or_eq_true, beq_iff_eq] at h
  rcases h with h | rfl
  · exact Identifier.of_isAlphanum (p := fun c => isBlank c = false ∧ isQuote c = false)
      (by decide +kernel) h
  · decide

theorem isWrapping_of_isWordChar {c : Char} (h : isWordChar c = true) : isWrapping c = false :=
  Bool.or_eq_false_iff.mpr (isBlank_or_isQuote_of_isWordChar h)

/-- Nothing is stripped from a text that begins and ends with characters of names. -/
theorem cleanChars_of_ends (hfirst : ∀ c, cs.head? = some c → isWordChar c = true)
    (hlast : ∀ c, cs.getLast? = some c → isWordChar c = true) : cleanChars cs = cs :=
  cleanChars_of_bare ⟨fun c hc => isWrapping_of_isWordChar (hfirst c hc),
    fun c hc => isWrapping_of_isWordChar (hlast c hc)⟩

/-- Nothing is stripped from a text that begins with a word and ends with a word. -/
theorem cleanChars_of_words {front middle back : List Char} (hfront : front ≠ [])
    (hfrontWord : front.all isWordChar = true) (hback : back ≠ [])
    (hbackWord : back.all isWordChar = true) :
    cleanChars (front ++ middle ++ back) = front ++ middle ++ back := by
  refine cleanChars_of_ends (fun c hc => ?_) fun c hc => ?_
  · obtain ⟨d, rest, rfl⟩ := List.exists_cons_of_ne_nil hfront
    exact List.all_eq_true.mp hfrontWord c (List.mem_of_mem_head? hc)
  · rw [List.getLast?_append_of_ne_nil _ hback] at hc
    exact List.all_eq_true.mp hbackWord c (List.mem_of_getLast? hc)

theorem cleanChars_word (h : cs.all isWordChar = true) : cleanChars cs = cs := by
  have hword := List.all_eq_true.mp h
  exact cleanChars_of_ends (fun c hc => hword c (List.mem_of_mem_head? hc))
    fun c hc => hword c (List.mem_of_getLast? hc)

/-- Nothing is stripped from a word. -/
theorem trimChars_word (h : cs.all isWordChar = true) : trimChars cs = cs := by
  have hword := List.all_eq_true.mp h
  exact EndsClear.stripChars_eq_self
    ⟨fun c hc => (isBlank_or_isQuote_of_isWordChar (hword c (List.mem_of_mem_head? hc))).1,
      fun c hc => (isBlank_or_isQuote_of_isWordChar (hword c (List.mem_of_getLast? hc))).1⟩

end Strip

section Join

variable {α : Type} {between : List α} {parts : List (List α)}

/-- Joined parts have all that is in them. -/
theorem subset_intercalate {part : List α} (h : part ∈ parts) :
    part ⊆ between.intercalate parts := by
  induction parts with
  | nil => cases h
  | cons first parts ih =>
    cases parts with
    | nil =>
      rw [List.mem_singleton.mp h, List.intercalate_singleton]
      exact List.Subset.refl first
    | cons second parts =>
      rw [List.intercalate_cons_cons]
      rcases List.mem_cons.mp h with rfl | h
      · exact List.subset_append_of_subset_left _ (List.subset_append_left part between)
      · exact List.subset_append_of_subset_right _ (ih h)

/-- Joined parts have nothing but what is in them or between them. -/
theorem mem_intercalate {a : α} (h : a ∈ between.intercalate parts) :
    a ∈ between ∨ ∃ part ∈ parts, a ∈ part := by
  induction parts with
  | nil => exact absurd h List.not_mem_nil
  | cons part parts ih =>
    cases parts with
    | nil =>
      rw [List.intercalate_singleton] at h
      exact Or.inr ⟨part, List.mem_singleton_self part, h⟩
    | cons part' parts =>
      rw [List.intercalate_cons_cons, List.mem_append, List.mem_append] at h
      rcases h with (hpart | hbetween) | hrest
      · exact Or.inr ⟨part, List.mem_cons_self, hpart⟩
      · exact Or.inl hbetween
      · obtain hbetween | ⟨part'', hpart'', ha⟩ := ih hrest
        · exact Or.inl hbetween
        · exact Or.inr ⟨part'', List.mem_cons_of_mem part hpart'', ha⟩

end Join

section Cut

variable {sep : Char} {piece : List Char}

/-- A text without the separator is not cut. -/
theorem cutFirst_eq_none (h : sep ∉ piece) : cutFirst sep piece = none := by
  induction piece with
  | nil => rfl
  | cons c piece ih =>
    rw [List.mem_cons, not_or] at h
    rw [cutFirst, if_neg (Ne.symm h.1), ih h.2]
    rfl

/-- A text is cut at the separator behind a piece without one. -/
theorem cutFirst_append (h : sep ∉ piece) (rest : List Char) :
    cutFirst sep (piece ++ sep :: rest) = some (piece, rest) := by
  induction piece with
  | nil => exact if_pos rfl
  | cons c piece ih =>
    rw [List.mem_cons, not_or] at h
    rw [List.cons_append, cutFirst, if_neg (Ne.symm h.1), ih h.2]
    rfl

/-- What a text is cut into at the first separator. -/
theorem cutFirst_eq_some_iff {cs before after : List Char} :
    cutFirst sep cs = some (before, after) ↔ cs = before ++ sep :: after ∧ sep ∉ before := by
  constructor
  · -- the text is cut at its first character, or that goes to the front of what is cut off
    intro h
    induction cs generalizing before with
    | nil => cases h
    | cons c cs ih =>
      rw [cutFirst] at h
      by_cases hc : c = sep
      · rw [if_pos hc] at h
        cases h
        exact ⟨by rw [hc]; rfl, List.not_mem_nil⟩
      · rw [if_neg hc] at h
        obtain ⟨⟨before', after'⟩, hcut, heq⟩ := Option.map_eq_some_iff.mp h
        cases heq
        obtain ⟨rfl, hfree⟩ := ih hcut
        exact ⟨rfl, List.not_mem_cons_of_ne_of_not_mem (Ne.symm hc) hfree⟩
  · rintro ⟨rfl, hfree⟩
    exact cutFirst_append hfree after

/-- What a text is cut into at the last separator. -/
theorem cutLast_eq_some_iff {cs before after : List Char} :
    cutLast sep cs = some (before, after) ↔ cs = before ++ sep :: after ∧ sep ∉ after := by
  rw [cutLast]
  constructor
  · intro h
    obtain ⟨⟨after', before'⟩, hcut, heq⟩ := Option.map_eq_some_iff.mp h
    cases heq
    obtain ⟨hreverse, hfree⟩ := cutFirst_eq_some_iff.mp hcut
    have hcs := congrArg List.reverse hreverse
    exact ⟨by simpa using hcs, by simpa using hfree⟩
  · rintro ⟨rfl, hfree⟩
    have hreverse : (before ++ sep :: after).reverse = after.reverse ++ sep :: before.reverse := by
      simp
    rw [hreverse, cutFirst_append (mt List.mem_reverse.mp hfree), Option.map_some]
    dsimp only
    rw [List.reverse_reverse, List.reverse_reverse]

/-- What is left of a text without its last character. -/
theorem dropLast?_eq_some_iff {c : Char} {cs rest : List Char} :
    dropLast? c cs = some rest ↔ cs = rest ++ [c] := by
  rw [← List.reverse_inj, List.reverse_append, List.reverse_singleton, List.singleton_append,
    dropLast?]
  cases cs.reverse with
  | nil => simp
  | cons d init =>
    by_cases hd : d = c
    · simp [hd, List.reverse_eq_iff]
    · simp [hd]

/-- A text without the separator is one piece. -/
theorem splitAt_eq_singleton (h : sep ∉ piece) : splitAt sep piece = [piece] := by
  induction piece with
  | nil => rfl
  | cons c piece ih =>
    rw [List.mem_cons, not_or] at h
    rw [splitAt, if_neg (Ne.symm h.1), ih h.2]

/-- A piece without the separator, and the separator behind it, come off as the first piece. -/
theorem splitAt_append (h : sep ∉ piece) (rest : List Char) :
    splitAt sep (piece ++ sep :: rest) = piece :: splitAt sep rest := by
  induction piece with
  | nil => exact if_pos rfl
  | cons c piece ih =>
    rw [List.mem_cons, not_or] at h
    rw [List.cons_append, splitAt, if_neg (Ne.symm h.1), ih h.2]

/-- The pieces of a text are those that the library finds. -/
theorem splitAt_eq_splitOn (sep : Char) (cs : List Char) : splitAt sep cs = cs.splitOn sep := by
  rw [List.splitOn]
  induction cs with
  | nil => rfl
  | cons c cs ih =>
    rw [splitAt, List.splitOnP_cons_eq_if_modifyHead, ih]
    by_cases hc : c = sep
    · simp [hc]
    · rw [if_neg hc, if_neg (by simpa using hc)]
      cases hpieces : cs.splitOnP (· == sep) with
      | nil => exact absurd hpieces (List.splitOnP_ne_nil _ cs)
      | cons piece pieces => rfl

theorem splitAt_ne_nil (sep : Char) (cs : List Char) : splitAt sep cs ≠ [] := by
  rw [splitAt_eq_splitOn]
  exact List.splitOnP_ne_nil _ cs

/-- A text is its pieces with the separators between them. -/
theorem intercalate_splitAt (sep : Char) (cs : List Char) :
    [sep].intercalate (splitAt sep cs) = cs := by
  rw [splitAt_eq_splitOn]
  exact List.intercalate_splitOn sep

/-- A text that is put together from pieces without the separator is cut into these. -/
theorem splitAt_intercalate {pieces : List (List Char)} (hne : pieces ≠ [])
    (h : ∀ piece ∈ pieces, sep ∉ piece) : splitAt sep ([sep].intercalate pieces) = pieces := by
  rw [splitAt_eq_splitOn]
  exact List.splitOn_intercalate sep h hne

/-- A piece is a part of the text. -/
theorem subset_of_mem_splitAt {cs : List Char} (h : piece ∈ splitAt sep cs) : piece ⊆ cs := by
  rw [← intercalate_splitAt sep cs]
  exact subset_intercalate h

/-- No piece holds the separator. -/
theorem not_mem_of_mem_splitAt {cs : List Char} (h : piece ∈ splitAt sep cs) : sep ∉ piece := by
  induction cs generalizing piece with
  | nil =>
    rw [List.mem_singleton.mp h]
    exact List.not_mem_nil
  | cons c cs ih =>
    rw [splitAt] at h
    by_cases hc : c = sep
    · rw [if_pos hc] at h
      rcases List.mem_cons.mp h with rfl | h
      · exact List.not_mem_nil
      · exact ih h
    · -- a character that does not separate goes into the first of the pieces behind it
      rw [if_neg hc] at h
      cases hpieces : splitAt sep cs with
      | nil => exact absurd hpieces (splitAt_ne_nil sep cs)
      | cons first rest =>
        rw [hpieces] at h ih
        rcases List.mem_cons.mp h with rfl | h
        · exact List.not_mem_cons_of_ne_of_not_mem (Ne.symm hc) (ih List.mem_cons_self)
        · exact ih (List.mem_cons_of_mem first h)

end Cut

/-- A word has no character that names do not have. -/
theorem not_mem_of_all_isWordChar {sep : Char} (hsep : isWordChar sep = false) {cs : List Char}
    (h : cs.all isWordChar = true) : sep ∉ cs := fun hmem =>
  Bool.false_ne_true (hsep.symm.trans (List.all_eq_true.mp h sep hmem))

end ArtCanvas.Text
