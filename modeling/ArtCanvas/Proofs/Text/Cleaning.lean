import Mathlib.Data.List.TakeWhile
import ArtCanvas.Proofs.Text.Pieces
import ArtCanvas.Function.DrawSetting

/-!
# Wrapping of option values

Option values are written with white space and quotation marks around them, and `Text.clean` takes
these off: white space, marks and white space again, from both ends. This is one layer of wrapping.
Marks that stand behind the white space inside of other marks are a second layer, and it stays on.

* `Text.isInfix_stripChars`, `Text.stripChars_mono`, `Text.stripChars_append`: stripping told by the
  parts of a text.
* `Text.WrapsOnce`: one layer of wrapping, and `Text.cleanChars_of_wrapsOnce`,
  `Text.exists_wrapsOnce`: one layer is what cleaning takes off.
* `Text.bare_cleanChars_iff`, `Text.cleanChars_eq_self_iff`: when nothing of the wrapping is left.
* `splitOption_eq_some_iff`: what an option is cut into.
* `Text.clean_iff_wrappedOnce`: when values that are cleaned once and twice are read alike.
-/

namespace ArtCanvas

namespace Text

/-! ### Stripping -/

section Strip

variable {p : Char → Bool} {cs core front back xs ys : List Char}

/-- What is stripped from both ends satisfies the predicate. -/
theorem exists_stripChars_append (p : Char → Bool) (cs : List Char) :
    ∃ front back, (∀ c ∈ front, p c = true) ∧ (∀ c ∈ back, p c = true) ∧
      cs = front ++ stripChars p cs ++ back := by
  obtain ⟨back, hback, heq⟩ := exists_dropEnd_append p (cs.dropWhile p)
  refine ⟨cs.takeWhile p, back, fun c hc => List.all_eq_true.mp List.all_takeWhile c hc, hback, ?_⟩
  rw [List.append_assoc, stripChars, ← heq, List.takeWhile_append_dropWhile]

/-- What is left after stripping stands in the text. -/
theorem isInfix_stripChars (p : Char → Bool) (cs : List Char) : stripChars p cs <:+: cs := by
  obtain ⟨front, back, -, -, heq⟩ := exists_stripChars_append p cs
  exact ⟨front, back, heq.symm⟩

/-- What is left does not begin with a character that is dropped. -/
theorem head?_dropWhile (p : Char → Bool) (cs : List Char) (c : Char)
    (h : (cs.dropWhile p).head? = some c) : p c = false := by
  have hhead := List.head?_dropWhile_not p cs
  rwa [h] at hhead

/-- Stripping leaves clear ends. -/
theorem endsClear_stripChars (p : Char → Bool) (cs : List Char) :
    EndsClear p (stripChars p cs) := by
  refine ⟨fun c hc => ?_, fun c hc => ?_⟩
  · -- what is left begins where the text without its front begins
    obtain ⟨back, -, heq⟩ := exists_dropEnd_append p (cs.dropWhile p)
    refine head?_dropWhile p cs c ?_
    rw [heq, List.head?_append, ← stripChars, hc]
    rfl
  · rw [stripChars, dropEnd, List.getLast?_reverse] at hc
    exact head?_dropWhile p _ c hc

/-- A text in front of one that stays is stripped by itself. -/
theorem dropWhile_append_of_head (hys : ∀ c, ys.head? = some c → p c = false) (xs : List Char) :
    (xs ++ ys).dropWhile p = xs.dropWhile p ++ ys := by
  rw [List.dropWhile_append, dropWhile_eq_self hys]
  split_ifs with hempty
  · rw [List.isEmpty_iff.mp hempty, List.nil_append]
  · rfl

/-- Dropping stops at a text that ends otherwise. -/
theorem dropEnd_append_of_last (hxs : ∀ c, xs.getLast? = some c → p c = false) (ys : List Char) :
    dropEnd p (xs ++ ys) = xs ++ dropEnd p ys := by
  rw [dropEnd, List.reverse_append, dropWhile_append_of_head (by simpa using hxs),
    List.reverse_append, List.reverse_reverse, dropEnd]

/-- What stands around a text that stays is stripped by itself. -/
theorem stripChars_append_of_endsClear (hne : core ≠ []) (hcore : EndsClear p core)
    (front back : List Char) :
    stripChars p (front ++ core ++ back) = front.dropWhile p ++ core ++ dropEnd p back := by
  have hhead : ∀ c, (core ++ back).head? = some c → p c = false := fun c hc => by
    rw [List.head?_append_of_ne_nil _ hne] at hc
    exact hcore.1 c hc
  have hlast : ∀ c, (front.dropWhile p ++ core).getLast? = some c → p c = false := fun c hc => by
    rw [List.getLast?_append_of_ne_nil _ hne] at hc
    exact hcore.2 c hc
  rw [stripChars, List.append_assoc, dropWhile_append_of_head hhead, ← List.append_assoc,
    dropEnd_append_of_last hlast]

/-- Characters at the ends that are to be stripped make no difference. -/
theorem stripChars_append (hfront : ∀ c ∈ front, p c = true) (hback : ∀ c ∈ back, p c = true)
    (cs : List Char) : stripChars p (front ++ cs ++ back) = stripChars p cs := by
  rw [stripChars, List.append_assoc, List.dropWhile_append_of_pos hfront, List.dropWhile_append]
  split_ifs with hempty
  · -- nothing of the text is left, and nothing of what stands behind it
    rw [stripChars, List.isEmpty_iff.mp hempty, List.dropWhile_eq_nil_iff.mpr hback]
  · rw [dropEnd_append hback, stripChars]

/-- A part of a text leaves no more than the text does. -/
theorem stripChars_mono (p : Char → Bool) (h : xs <:+: ys) :
    stripChars p xs <:+: stripChars p ys := by
  obtain ⟨before, after, rfl⟩ := h
  by_cases hnil : stripChars p xs = []
  · rw [hnil]
    exact List.nil_infix
  · obtain ⟨front, back, -, -, heq⟩ := exists_stripChars_append p xs
    have hsplit : before ++ xs ++ after =
        (before ++ front) ++ stripChars p xs ++ (back ++ after) := by
      conv_lhs => rw [heq]
      simp only [List.append_assoc]
    rw [hsplit, stripChars_append_of_endsClear hnil (endsClear_stripChars p xs)]
    exact List.infix_append _ _ _

end Strip

/-! ### Layers -/

/-- White space, quotation marks and white space, of each any number. -/
def IsLayer (cs : List Char) : Prop :=
  ∃ outer marks inner, (∀ c ∈ outer, isBlank c = true) ∧ (∀ c ∈ marks, isQuote c = true) ∧
    (∀ c ∈ inner, isBlank c = true) ∧ cs = outer ++ marks ++ inner

/-- A text is another one with one layer of wrapping on each side. -/
def WrapsOnce (core raw : List Char) : Prop :=
  ∃ front back, IsLayer front ∧ IsLayer back ∧ raw = front ++ core ++ back

section Layers

variable {cs core raw xs ys : List Char}

/-- White space is what is taken off in the end. -/
theorem endsClear_cleanChars (cs : List Char) : EndsClear isBlank (cleanChars cs) :=
  endsClear_stripChars isBlank (stripChars isQuote (trimChars cs))

/-- A cleaned text stands in the text. -/
theorem isInfix_cleanChars (cs : List Char) : cleanChars cs <:+: cs :=
  (isInfix_stripChars isBlank _).trans
    ((isInfix_stripChars isQuote _).trans (isInfix_stripChars isBlank cs))

/-- A part of a text is cleaned to a part. -/
theorem cleanChars_mono (h : xs <:+: ys) : cleanChars xs <:+: cleanChars ys :=
  stripChars_mono isBlank (stripChars_mono isQuote (stripChars_mono isBlank h))

/-- What cleaning takes off is one layer on each side. -/
theorem exists_wrapsOnce (raw : List Char) : WrapsOnce (cleanChars raw) raw := by
  obtain ⟨outer, outer', houter, houter', hraw⟩ := exists_stripChars_append isBlank raw
  obtain ⟨marks, marks', hmarks, hmarks', htrim⟩ := exists_stripChars_append isQuote (trimChars raw)
  obtain ⟨inner, inner', hinner, hinner', hstrip⟩ :
      ∃ inner inner', (∀ c ∈ inner, isBlank c = true) ∧ (∀ c ∈ inner', isBlank c = true) ∧
        stripChars isQuote (trimChars raw) = inner ++ cleanChars raw ++ inner' :=
    exists_stripChars_append isBlank (stripChars isQuote (trimChars raw))
  refine ⟨outer ++ marks ++ inner, inner' ++ marks' ++ outer',
    ⟨outer, marks, inner, houter, hmarks, hinner, rfl⟩,
    ⟨inner', marks', outer', hinner', hmarks', houter', rfl⟩, ?_⟩
  calc raw = outer ++ trimChars raw ++ outer' := hraw
    _ = outer ++ (marks ++ stripChars isQuote (trimChars raw) ++ marks') ++ outer' := by
      rw [← htrim]
    _ = outer ++ (marks ++ (inner ++ cleanChars raw ++ inner') ++ marks') ++ outer' := by
      rw [← hstrip]
    _ = outer ++ marks ++ inner ++ cleanChars raw ++ (inner' ++ marks' ++ outer') := by
      simp only [List.append_assoc]

/-- Cleaning takes off at least one layer. -/
theorem isInfix_cleanChars_of_wrapsOnce (h : WrapsOnce core raw) : cleanChars raw <:+: core := by
  obtain ⟨_, _, ⟨outer, marks, inner, houter, hmarks, hinner, rfl⟩,
    ⟨inner', marks', outer', hinner', hmarks', houter', rfl⟩, hraw⟩ := h
  have hnested : raw = outer ++ (marks ++ (inner ++ core ++ inner') ++ marks') ++ outer' := by
    rw [hraw]
    simp only [List.append_assoc]
  -- each round takes off its part of the layer, and what it takes beyond that makes no difference
  have htrim : trimChars raw <:+: marks ++ (inner ++ core ++ inner') ++ marks' := by
    rw [hnested, trimChars, stripChars_append houter houter']
    exact isInfix_stripChars isBlank _
  have hquotes : stripChars isQuote (trimChars raw) <:+: inner ++ core ++ inner' := by
    refine (stripChars_mono isQuote htrim).trans ?_
    rw [stripChars_append hmarks hmarks']
    exact isInfix_stripChars isQuote _
  refine (stripChars_mono isBlank hquotes).trans ?_
  rw [stripChars_append hinner hinner']
  exact isInfix_stripChars isBlank core

/-- A bare text comes out of one layer of wrapping as it is. -/
theorem cleanChars_of_wrapsOnce (hcore : Bare core) (h : WrapsOnce core raw) :
    cleanChars raw = core := by
  -- a part that cleaning does not change is still a part of what is left of the whole
  have hpart : core <:+: raw := by
    obtain ⟨front, back, -, -, rfl⟩ := h
    exact List.infix_append front core back
  have hkept : core <:+: cleanChars raw := by
    rw [← cleanChars_of_bare hcore]
    exact cleanChars_mono hpart
  exact (isInfix_cleanChars_of_wrapsOnce h).eq_of_length_le hkept.length_le

/-- No wrapping is left exactly if there was one layer of it. -/
theorem bare_cleanChars_iff : Bare (cleanChars raw) ↔ ∃ core, Bare core ∧ WrapsOnce core raw := by
  refine ⟨fun hbare => ⟨cleanChars raw, hbare, exists_wrapsOnce raw⟩, ?_⟩
  rintro ⟨core, hcore, hwraps⟩
  rwa [cleanChars_of_wrapsOnce hcore hwraps]

/-- Texts that cleaning does not change are those without wrapping. -/
theorem cleanChars_eq_self_iff : cleanChars cs = cs ↔ Bare cs := by
  refine ⟨fun heq => bare_iff.mpr ?_, cleanChars_of_bare⟩
  have hblank : EndsClear isBlank cs := heq ▸ endsClear_cleanChars cs
  have htrim : trimChars cs = cs := hblank.stripChars_eq_self
  -- what is left between the marks is no shorter than what is left in the end
  have hquotes : stripChars isQuote cs = cs := by
    refine (isInfix_stripChars isQuote cs).eq_of_length_le ?_
    have hlast := (isInfix_stripChars isBlank (stripChars isQuote (trimChars cs))).length_le
    rwa [← trimChars, ← cleanChars, heq, htrim] at hlast
  exact ⟨hblank, hquotes ▸ endsClear_stripChars isQuote cs⟩

end Layers

/-! ### Values -/

/-- A value with one layer of wrapping around a bare text. -/
def WrappedOnce (raw : String) : Prop := ∃ core, Bare core ∧ WrapsOnce core raw.toList

/-- A text is left alone exactly if it is bare. -/
theorem clean_eq_self_iff {s : String} : clean s = s ↔ Bare s.toList := by
  rw [← String.toList_inj, toList_clean]
  exact cleanChars_eq_self_iff

/-- Cleaning twice is the same as once exactly if the text was wrapped once. -/
theorem clean_clean_iff {raw : String} : clean (clean raw) = clean raw ↔ WrappedOnce raw := by
  rw [clean_eq_self_iff, toList_clean]
  exact bare_cleanChars_iff

end Text

/-! ### Options -/

open Text

/-- The value of an option is cleaned once before anything is known of its key. -/
theorem splitOption_eq_some_iff {option key value : String} :
    splitOption option = some (key, value) ↔
      ∃ name raw : String, option = name ++ ":" ++ raw ∧ ':' ∉ name.toList ∧
        key = lower (clean name) ∧ key ≠ "" ∧ value = clean raw := by
  constructor
  · intro h
    unfold splitOption at h
    cases hcut : cutFirst ':' option.toList with
    | none => rw [hcut] at h; cases h
    | some parts =>
      obtain ⟨name, raw⟩ := parts
      rw [hcut] at h
      obtain ⟨hparts, hfree⟩ := cutFirst_eq_some_iff.mp hcut
      dsimp only at h
      -- an option without a key is no option
      split_ifs at h with hempty
      rw [Option.some.injEq, Prod.mk.injEq] at h
      obtain ⟨rfl, rfl⟩ := h
      refine ⟨String.ofList name, String.ofList raw, ?_, by simpa using hfree, ?_, ?_, ?_⟩
      · rw [← String.toList_inj, hparts]
        simp
      · simp [clean]
      · simpa using hempty
      · simp [clean]
  · rintro ⟨name, raw, rfl, hfree, rfl, hne, rfl⟩
    have hcut : cutFirst ':' (name ++ ":" ++ raw).toList = some (name.toList, raw.toList) := by
      rw [String.toList_append, String.toList_append, List.append_assoc]
      exact cutFirst_append hfree _
    have hempty : ¬ (lower (clean name)).isEmpty = true := by simpa using hne
    unfold splitOption
    rw [hcut]
    exact if_neg hempty

/-- An option of a clock is read from its cleaned value. -/
theorem ClockSetting.parse_congr {value value' : String} (h : clean value = clean value')
    (key : String) : parse key value = parse key value' := by
  simp only [parse, h]

/-- So is a trigger. -/
theorem Trigger.parse?_congr {value value' : String} (h : clean value = clean value')
    (target : ClockKind) : parse? target value = parse? target value' := by
  have hchars : cleanChars value.toList = cleanChars value'.toList := String.ofList_inj.mp h
  simp only [parse?, hchars]

namespace Text

/-- Cleaning takes one layer of wrapping off a value, and leaves no white space at its ends. It
leaves no quotation mark there, and cleaning again changes nothing, exactly if there was no more
than this layer. Options of draw functions are read from the value cleaned once, and those of clocks
and triggers clean it again; with one layer of wrapping this makes no difference. -/
theorem clean_iff_wrappedOnce (raw : String) :
    WrapsOnce (clean raw).toList raw.toList ∧ EndsClear isBlank (clean raw).toList ∧
      (EndsClear isQuote (clean raw).toList ↔ WrappedOnce raw) ∧
      (clean (clean raw) = clean raw ↔ WrappedOnce raw) ∧
      (∀ name : String, ':' ∉ name.toList → lower (clean name) ≠ "" →
        splitOption (name ++ ":" ++ raw) = some (lower (clean name), clean raw)) ∧
      (WrappedOnce raw →
        (∀ key, ClockSetting.parse key (clean raw) = ClockSetting.parse key raw) ∧
          ∀ target, Trigger.parse? target (clean raw) = Trigger.parse? target raw) := by
  have hwrapped : WrapsOnce (clean raw).toList raw.toList := by
    rw [toList_clean]
    exact exists_wrapsOnce raw.toList
  have hblank : EndsClear isBlank (clean raw).toList := by
    rw [toList_clean]
    exact endsClear_cleanChars raw.toList
  refine ⟨hwrapped, hblank, ?_, clean_clean_iff, fun name hfree hne => ?_,
    fun hwraps => ⟨fun key => ?_, fun target => ?_⟩⟩
  · rw [← clean_clean_iff, clean_eq_self_iff, bare_iff]
    exact (and_iff_right hblank).symm
  · exact splitOption_eq_some_iff.mpr ⟨name, raw, rfl, hfree, rfl, hne, rfl⟩
  · exact ClockSetting.parse_congr (clean_clean_iff.mpr hwraps) key
  · exact Trigger.parse?_congr (clean_clean_iff.mpr hwraps) target

/-- Marks with white space inside of them are one layer, and the value comes out bare. -/
theorem clean_iff_wrappedOnce_marked :
    WrappedOnce "' forward '" ∧ ':' ∉ "Rotate-Direction ".toList ∧
      lower (clean "Rotate-Direction ") ≠ "" ∧
      splitOption ("Rotate-Direction " ++ ":" ++ "' forward '") =
        some ("rotate-direction", "forward") ∧
      ClockSetting.parse "direction" (clean "' forward '") =
        ClockSetting.parse "direction" "' forward '" := by
  obtain ⟨-, -, -, hidempotent, hoption, hread⟩ := clean_iff_wrappedOnce "' forward '"
  have hname : ':' ∉ "Rotate-Direction ".toList := by decide
  have hne : lower (clean "Rotate-Direction ") ≠ "" := by decide +kernel
  have hwraps : WrappedOnce "' forward '" := hidempotent.mp (by decide +kernel)
  refine ⟨hwraps, hname, hne, (hoption _ hname hne).trans ?_, (hread hwraps).1 "direction"⟩
  decide +kernel

/-- Marks behind the white space inside of other marks are a second layer. A draw function is given
the value with one of them, and cannot use it; a clock takes it off. -/
theorem clean_nestedMarks :
    ¬ EndsClear isQuote (clean "' 'f'").toList ∧ clean (clean "' 'f'") ≠ clean "' 'f'" ∧
      (DrawSetting.parse "orientation" (clean "' 'f'")).outcome = .malformed ∧
      (DrawSetting.parse "rotate-direction" (clean "' 'f'")).outcome = .applied := by
  have hclean : clean "' 'f'" = "'f" := by decide +kernel
  rw [hclean]
  refine ⟨fun hclear => ?_, by decide +kernel, by decide +kernel, by decide +kernel⟩
  exact absurd (hclear.1 '\x27' (by decide)) (by decide)

end Text

end ArtCanvas
