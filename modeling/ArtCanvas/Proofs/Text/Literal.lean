import ArtCanvas.Script.Code
import Mathlib.Data.List.Basic

/-!
# Reading literals

A literal between double quotation marks is read in two steps. A scanner looks for the mark that
ends it, and passes over every character that a backslash escapes; then what stands inside is
decoded. Both walk along the same escapes that a quoted text is made of, character by character.

* `closing?`: where the literal ends.
* `decode`: what its inside says.
* `readLiteral?`: the literal at the start of a text, and the text behind it.
* `readLiteral?_quote`: a quoted text reads as the text, whatever stands behind it.
-/

namespace ArtCanvas.Text

/-- What a character says that a backslash escapes. -/
def unescape : Char → Char
  | 'n' => '\n'
  | 'r' => '\r'
  | 't' => '\t'
  | c => c

/-- What the inside of a literal says. -/
def decode : List Char → List Char
  | '\\' :: c :: cs => unescape c :: decode cs
  | c :: cs => c :: decode cs
  | [] => []

/-- How many characters stand before the first quotation mark that is not escaped. `escaped` says
whether a backslash stands before that escapes the first character. -/
def closing? : (escaped : Bool) → List Char → Option Nat
  | _, [] => none
  | true, _ :: cs => (closing? false cs).map (· + 1)
  | false, c :: cs =>
    if c = '\x22' then some 0 else (closing? (c == '\\') cs).map (· + 1)

/-- Whether a character ends a line. -/
def isLineEnd (c : Char) : Bool := c == '\n' || c == '\r'

/-- Reads the literal at the start of a text: what it says, and the text behind it. A literal does
not go over the end of a line. -/
def readLiteral? : List Char → Option (String × List Char)
  | '\x22' :: cs => do
    let length ← closing? false cs
    let inside := cs.take length
    if inside.any isLineEnd then none
    else some (String.ofList (decode inside), cs.drop (length + 1))
  | _ => none

section Character

/-- A quoted character is an escape that says the character, or the character itself where it
neither starts an escape nor ends the literal. Either way no line ends. -/
theorem encodeChar_cases (c : Char) :
    (∃ d, encodeChar c = ['\\', d] ∧ unescape d = c ∧ isLineEnd d = false) ∨
      (encodeChar c = [c] ∧ c ≠ '\x22' ∧ c ≠ '\\' ∧ isLineEnd c = false) := by
  unfold encodeChar
  split
  -- every character without an escape of its own stands for itself
  case h_6 hquote hbackslash hlineFeed hreturn _ =>
    have hline : isLineEnd c = false := by simpa [isLineEnd] using ⟨hlineFeed, hreturn⟩
    exact Or.inr ⟨rfl, hquote, hbackslash, hline⟩
  all_goals exact Or.inl ⟨_, rfl, rfl, rfl⟩

variable (c : Char) (rest : List Char)

/-- A quoted character is decoded as what it was. -/
theorem decode_encodeChar_append : decode (encodeChar c ++ rest) = c :: decode rest := by
  obtain ⟨d, hescape, hsays, -⟩ | ⟨hplain, -, hbackslash, -⟩ := encodeChar_cases c
  · rw [hescape, ← hsays]
    rfl
  · rw [hplain, List.singleton_append, decode]
    exact fun _ _ heq => absurd heq hbackslash

/-- The scanner passes over a quoted character, and is not in the middle of an escape behind it. -/
theorem closing?_encodeChar_append :
    closing? false (encodeChar c ++ rest) =
      (closing? false rest).map (· + (encodeChar c).length) := by
  obtain ⟨d, hescape, -, -⟩ | ⟨hplain, hquote, hbackslash, -⟩ := encodeChar_cases c
  · rw [hescape]
    -- the character behind the backslash is passed over, also where it is a quotation mark
    change ((closing? false rest).map (· + 1)).map (· + 1) = _
    rw [Option.map_map]
    rfl
  · rw [hplain, List.singleton_append, closing?, if_neg hquote,
      beq_eq_false_iff_ne.mpr hbackslash, List.length_singleton]

/-- A quoted character does not end a line. -/
theorem any_isLineEnd_encodeChar : (encodeChar c).any isLineEnd = false := by
  obtain ⟨d, hescape, -, hline⟩ | ⟨hplain, -, -, hline⟩ := encodeChar_cases c
  · rw [hescape, List.any_cons, List.any_cons, hline]
    rfl
  · rw [hplain, List.any_cons, hline]
    rfl

end Character

section Text

variable (cs rest : List Char)

theorem decode_encode : decode (encode cs) = cs := by
  induction cs with
  | nil => rfl
  | cons c cs ih => rw [encode_cons, decode_encodeChar_append, ih]

/-- The first mark that is not escaped behind quoted characters is the one that follows them. -/
theorem closing?_encode_append :
    closing? false (encode cs ++ '\x22' :: rest) = some (encode cs).length := by
  induction cs with
  | nil => rfl
  | cons c cs ih =>
    rw [encode_cons, List.append_assoc, closing?_encodeChar_append, ih, List.length_append]
    exact congrArg some (Nat.add_comm _ _)

theorem any_isLineEnd_encode : (encode cs).any isLineEnd = false := by
  induction cs with
  | nil => rfl
  | cons c cs ih => rw [encode_cons, List.any_append, any_isLineEnd_encodeChar, ih, Bool.false_or]

theorem toList_quote (s : String) : (quote s).toList = '\x22' :: (encode s.toList ++ ['\x22']) :=
  String.toList_ofList

/-- A quoted text reads as the text, whatever stands behind it. -/
theorem readLiteral?_quote (s : String) :
    readLiteral? ((quote s).toList ++ rest) = some (s, rest) := by
  have hopened : (quote s).toList ++ rest = '\x22' :: (encode s.toList ++ '\x22' :: rest) := by
    rw [toList_quote, List.cons_append, List.append_assoc, List.singleton_append]
  have hbehind :
      (encode s.toList ++ '\x22' :: rest).drop ((encode s.toList).length + 1) = rest := by
    rw [List.drop_append, List.drop_eq_nil_of_le (Nat.le_succ _), Nat.add_sub_cancel_left]
    rfl
  rw [hopened, readLiteral?, closing?_encode_append]
  dsimp only [Option.bind_eq_bind, Option.bind_some]
  rw [List.take_left, any_isLineEnd_encode, decode_encode, String.ofList_toList, hbehind]
  rfl

/-- Different texts are quoted in different ways. -/
theorem quote_injective : Function.Injective quote := by
  intro s s' h
  have hread := readLiteral?_quote [] s
  rw [h, readLiteral?_quote] at hread
  exact (congrArg Prod.fst (Option.some.inj hread)).symm

end Text

end ArtCanvas.Text
