import ArtCanvas.Script.Code

/-!
# What is written of code

A writer goes through code step by step and keeps a level. What it adds for a piece of code is a
text of the piece and of the level alone, and all lines of the piece stand in that text.

* `Code.textAt`, `Code.textOf`: the text of a piece of code, and of several, at a level.
* `Code.run_steps`: a writer adds this text, and stays at its level.
* `Code.render_append`: what is written of code does not depend on the code before it.
* `Code.lineTexts`: the lines of a piece of code, and `Code.exists_render_of_mem`: they stand in
  what is written.
* `Code.Silent`: code without lines that a reader takes notice of.
-/

namespace ArtCanvas

/-- Steps are written one after the other. -/
theorem CodeWriter.run_append (w : CodeWriter) (steps steps' : List WriterStep) :
    w.run (steps ++ steps') = (w.run steps).run steps' := List.foldl_append

/-- Before a line that is written there is at most its indentation, and behind it the line ends. -/
theorem CodeWriter.exists_lineText_eq (level : Nat) (line : String) :
    ∃ before, lineText level line = before ++ line ++ "\n" := by
  unfold lineText
  split
  next hempty =>
    rw [String.isEmpty_iff] at hempty
    exact ⟨"", by rw [hempty, String.empty_append, String.empty_append]⟩
  next => exact ⟨indentation level, rfl⟩

namespace Code

/-! ### The text of code -/

mutual

/-- The text of a piece of code at a level. -/
def textAt (level : Nat) : Code → String
  | .line text => CodeWriter.lineText level text
  | .blank => "\n"
  | .block opening body closing =>
    CodeWriter.lineText level opening ++ textOf (level + 1) body
      ++ CodeWriter.lineText level closing

/-- The text of some pieces of code at a level. -/
def textOf (level : Nat) : List Code → String
  | [] => ""
  | code :: rest => code.textAt level ++ textOf level rest

end

/-- The texts of two parts at the same level follow each other. -/
theorem textOf_append (level : Nat) (code code' : List Code) :
    textOf level (code ++ code') = textOf level code ++ textOf level code' := by
  induction code with
  | nil => rw [List.nil_append, textOf, String.empty_append]
  | cons first rest ih => rw [List.cons_append, textOf, ih, textOf, String.append_assoc]

mutual

/-- A writer adds the text of a piece of code, and stays at its level. -/
theorem run_steps (text : String) (level : Nat) :
    (code : Code) →
      CodeWriter.run ⟨text, level⟩ code.steps = ⟨text ++ code.textAt level, level⟩
  | .line _ => rfl
  | .blank => rfl
  | .block opening body closing => by
    change CodeWriter.run ⟨text ++ CodeWriter.lineText level opening, level + 1⟩
      (stepsOf body ++ [.closeBlock closing]) = _
    -- the closing line takes back the indentation of the opening one
    rw [CodeWriter.run_append, run_stepsOf, textAt, ← String.append_assoc, ← String.append_assoc]
    rfl

/-- A writer adds the text of some pieces of code, and stays at its level. -/
theorem run_stepsOf (text : String) (level : Nat) :
    (code : List Code) →
      CodeWriter.run ⟨text, level⟩ (stepsOf code) = ⟨text ++ textOf level code, level⟩
  | [] => by rw [textOf, String.append_empty]; rfl
  | first :: rest => by
    rw [stepsOf, CodeWriter.run_append, run_steps, run_stepsOf, textOf, String.append_assoc]

end

/-- Rendering starts at the outermost level. -/
theorem render_eq (code : List Code) : render code = textOf 0 code := by
  rw [render, run_stepsOf]
  exact String.empty_append

/-- The text of code is that of its pieces, one after the other. -/
theorem render_append (code code' : List Code) :
    render (code ++ code') = render code ++ render code' := by
  rw [render_eq, render_eq, render_eq, textOf_append]

/-- Outside of blocks a line is written as it is. -/
theorem render_line {text : String} (h : text ≠ "") : render [.line text] = text ++ "\n" := by
  have hempty : text.isEmpty = false := by
    rw [Bool.eq_false_iff, ne_eq, String.isEmpty_iff]
    exact h
  change "" ++ CodeWriter.lineText 0 text = _
  rw [CodeWriter.lineText, hempty, String.empty_append]
  change "" ++ text ++ "\n" = _
  rw [String.empty_append]

/-! ### Lines of code -/

mutual

/-- The lines of a piece of code, without indentation. -/
def lineTexts : Code → List String
  | .line text => [text]
  | .blank => []
  | .block opening body closing => opening :: lineTextsOf body ++ [closing]

/-- The lines of some pieces of code, without indentation. -/
def lineTextsOf : List Code → List String
  | [] => []
  | code :: rest => code.lineTexts ++ lineTextsOf rest

end

/-- Each line belongs to one of the parts. -/
theorem mem_lineTextsOf_iff {line : String} {code : List Code} :
    line ∈ lineTextsOf code ↔ ∃ piece ∈ code, line ∈ piece.lineTexts := by
  induction code with
  | nil => simp [lineTextsOf]
  | cons piece code ih => simp [lineTextsOf, ih]

/-- The lines of two parts follow each other. -/
theorem lineTextsOf_append (code code' : List Code) :
    lineTextsOf (code ++ code') = lineTextsOf code ++ lineTextsOf code' := by
  induction code with
  | nil => rfl
  | cons piece code ih => rw [List.cons_append, lineTextsOf, ih, lineTextsOf, List.append_assoc]

theorem lineTextsOf_map_line {α : Type} (text : α → String) (l : List α) :
    lineTextsOf (l.map fun a => .line (text a)) = l.map text := by
  induction l with
  | nil => rfl
  | cons a l ih => rw [List.map_cons, lineTextsOf, ih]; rfl

/-- Plain lines are their own texts. -/
theorem lineTextsOf_lines (texts : List String) : lineTextsOf (texts.map .line) = texts := by
  have hlines := lineTextsOf_map_line (fun text => text) texts
  rwa [List.map_id'] at hlines

/-- Among more parts there are no fewer lines. -/
theorem lineTextsOf_subset {code code' : List Code} (h : code ⊆ code') :
    lineTextsOf code ⊆ lineTextsOf code' := by
  intro line hline
  obtain ⟨piece, hpiece, hline⟩ := mem_lineTextsOf_iff.mp hline
  exact mem_lineTextsOf_iff.mpr ⟨piece, h hpiece, hline⟩

/-- The lines of one part are among those of all. -/
theorem mem_lineTextsOf_flatMap {α : Type} {f : α → List Code} {l : List α} {a : α} {line : String}
    (ha : a ∈ l) (h : line ∈ lineTextsOf (f a)) : line ∈ lineTextsOf (l.flatMap f) :=
  lineTextsOf_subset (fun _ hpiece => List.mem_flatMap.mpr ⟨a, ha, hpiece⟩) h

/-- The lines in a block are among its lines. -/
theorem mem_lineTextsOf_block {line opening closing : String} {body : List Code}
    (h : line ∈ lineTextsOf body) : line ∈ (Code.block opening body closing).lineTexts :=
  List.mem_append_left _ (List.mem_cons_of_mem _ h)

/-- The lines of a block are the first one, those of its body, and the last one. -/
theorem mem_lineTexts_block_iff {line opening closing : String} {body : List Code} :
    line ∈ (Code.block opening body closing).lineTexts ↔
      line = opening ∨ line ∈ lineTextsOf body ∨ line = closing := by
  simp [lineTexts]

mutual

/-- A line of a piece of code stands in its text. -/
theorem exists_textAt_of_mem (level : Nat) {line : String} :
    (code : Code) → line ∈ code.lineTexts →
      ∃ before after, code.textAt level = before ++ line ++ after
  | .line text, h => by
    obtain rfl := List.mem_singleton.mp h
    obtain ⟨before, hline⟩ := CodeWriter.exists_lineText_eq level line
    exact ⟨before, "\n", hline⟩
  | .blank, h => by cases h
  | .block opening body closing, h => by
    obtain ⟨before, hopening⟩ := CodeWriter.exists_lineText_eq level opening
    obtain ⟨before', hclosing⟩ := CodeWriter.exists_lineText_eq level closing
    rw [textAt]
    rcases mem_lineTexts_block_iff.mp h with rfl | hbody | rfl
    · exact ⟨before, "\n" ++ textOf (level + 1) body ++ CodeWriter.lineText level closing, by
        rw [hopening]; simp only [String.append_assoc]⟩
    · obtain ⟨inside, behind, hinside⟩ := exists_textOf_of_mem (level + 1) body hbody
      exact ⟨CodeWriter.lineText level opening ++ inside,
        behind ++ CodeWriter.lineText level closing, by
          rw [hinside]; simp only [String.append_assoc]⟩
    · exact ⟨CodeWriter.lineText level opening ++ textOf (level + 1) body ++ before', "\n", by
        rw [hclosing]; simp only [String.append_assoc]⟩

/-- A line of some pieces of code stands in their text. -/
theorem exists_textOf_of_mem (level : Nat) {line : String} :
    (code : List Code) → line ∈ lineTextsOf code →
      ∃ before after, textOf level code = before ++ line ++ after
  | [], h => by cases h
  | first :: rest, h => by
    rw [textOf]
    rcases List.mem_append.mp h with hfirst | hrest
    · obtain ⟨before, after, htext⟩ := exists_textAt_of_mem level first hfirst
      exact ⟨before, after ++ textOf level rest, by
        rw [htext]; simp only [String.append_assoc]⟩
    · obtain ⟨before, after, htext⟩ := exists_textOf_of_mem level rest hrest
      exact ⟨first.textAt level ++ before, after, by
        rw [htext]; simp only [String.append_assoc]⟩

end

/-- The lines of code stand in what is written. -/
theorem exists_render_of_mem {line : String} {code : List Code} (h : line ∈ lineTextsOf code) :
    ∃ before after, render code = before ++ line ++ after := by
  rw [render_eq]
  exact exists_textOf_of_mem 0 code h

/-! ### Reading the lines of code -/

/-- Nothing is read in any line of the code. -/
def Silent {α : Type} (read : String → Option α) (code : List Code) : Prop :=
  ∀ line ∈ lineTextsOf code, read line = none

section Silent

variable {α β : Type} {read : String → Option α} {code code' : List Code}

/-- No code is silent. -/
theorem silent_nil : Silent read [] := nofun

theorem silent_blank : Silent read [.blank] := nofun

/-- A line is silent if nothing is read from it. -/
theorem silent_line {text : String} (h : read text = none) : Silent read [.line text] :=
  List.forall_mem_singleton.mpr h

/-- Two silent parts make silent code. -/
theorem Silent.append (h : Silent read code) (h' : Silent read code') :
    Silent read (code ++ code') := by
  unfold Silent
  rw [lineTextsOf_append]
  exact List.forall_mem_append.mpr ⟨h, h'⟩

/-- So do several. -/
theorem Silent.flatMap {f : β → List Code} {l : List β} (h : ∀ b ∈ l, Silent read (f b)) :
    Silent read (l.flatMap f) := by
  intro line hline
  obtain ⟨piece, hpiece, hline⟩ := mem_lineTextsOf_iff.mp hline
  obtain ⟨b, hb, hpiece⟩ := List.mem_flatMap.mp hpiece
  exact h b hb line (mem_lineTextsOf_iff.mpr ⟨piece, hpiece, hline⟩)

/-- Lines are silent together if each of them is. -/
theorem silent_map_line {f : β → String} {l : List β} (h : ∀ b ∈ l, read (f b) = none) :
    Silent read (l.map fun b => .line (f b)) := by
  unfold Silent
  rw [lineTextsOf_map_line]
  exact List.forall_mem_map.mpr h

/-- A block is silent if it is so inside, and at both ends. -/
theorem Silent.block {opening closing : String} (h : Silent read code)
    (hopening : read opening = none) (hclosing : read closing = none) :
    Silent read [.block opening code closing] := by
  intro line hline
  obtain ⟨piece, hpiece, hline⟩ := mem_lineTextsOf_iff.mp hline
  obtain rfl := List.mem_singleton.mp hpiece
  rcases mem_lineTexts_block_iff.mp hline with rfl | hbody | rfl
  · exact hopening
  · exact h line hbody
  · exact hclosing

end Silent

end Code

end ArtCanvas
