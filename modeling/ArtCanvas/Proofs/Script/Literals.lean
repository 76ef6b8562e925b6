import ArtCanvas.Proofs.Script.Writing
import ArtCanvas.Proofs.Script.Written
import ArtCanvas.Proofs.Text.Literal

/-!
# Free texts in scripts

Names of page elements and of image files, and colours, are put into the code of a script as
literals. Wherever such a literal stands, what is read there is the text, and the code goes on
behind it.

* `Text.Quotes`: a line with a text in it as a literal.
* `Script.literals`: the texts of a script that are written as literals, and
  `Script.exists_line_of_mem_literals`: the line of each one.
* `Text.literals_read_back`: quoted texts are read back, in scripts and elsewhere.
-/

namespace ArtCanvas

/-- The line has the text in it, as a literal. -/
def Text.Quotes (line text : String) : Prop :=
  ∃ before after, line = before ++ Text.quote text ++ after

/-- The text that the statement writes as a literal: a colour, or the page element of a hidden
canvas. -/
def Stmt.literal? : Stmt → Option String
  | .solidStyle _ css | .addStop _ css => some css
  | .makePattern canvas => some (tileElement canvas)
  | _ => none

/-- The texts that a script writes as literals: the names of page elements, the names of image
files, and what the statements of its scopes write. -/
def Script.literals (o : EmitOptions) (s : Script) : List String :=
  o.canvasId :: (s.tiles.map (fun tile => tileElement tile.canvas)
    ++ s.objects.filterMap DrawObject.file?
    ++ s.scopes.flatMap fun scope => scope.body.filterMap Stmt.literal?)

/-- A text is still quoted in a longer line. -/
theorem Text.Quotes.append {line text : String} (h : Text.Quotes line text)
    (front back : String) : Text.Quotes (front ++ line ++ back) text := by
  obtain ⟨before, after, rfl⟩ := h
  refine ⟨front ++ before, after ++ back, ?_⟩
  simp only [String.append_assoc]

theorem quotes_canvasExpression (element : String) :
    Text.Quotes (canvasExpression element) element := ⟨_, _, rfl⟩

namespace Stmt

variable {stmt : Stmt} {text : String}

/-- A statement that writes a literal has a line with it. -/
theorem exists_line_of_literal? (ctx : String) (h : stmt.literal? = some text) :
    ∃ line ∈ stmt.lines ctx, Text.Quotes line text := by
  cases stmt with
  | solidStyle target css =>
    obtain rfl := Option.some.inj h
    exact ⟨_, List.mem_singleton_self _, _, _, rfl⟩
  | addStop offset css =>
    obtain rfl := Option.some.inj h
    exact ⟨_, List.mem_singleton_self _, _, _, rfl⟩
  | makePattern canvas =>
    obtain rfl := Option.some.inj h
    exact ⟨_, List.mem_singleton_self _, (quotes_canvasExpression _).append _ _⟩
  | _ => cases h

end Stmt

namespace Scope

/-- Each literal of a scope stands in one of its lines. -/
theorem exists_line_of_mem_literals {scope : Scope} {text : String} (ctx : String)
    (h : text ∈ scope.body.filterMap Stmt.literal?) :
    ∃ line ∈ Code.lineTextsOf (scope.code ctx), Text.Quotes line text := by
  obtain ⟨stmt, hstmt, hliteral⟩ := List.mem_filterMap.mp h
  obtain ⟨line, hline, hquotes⟩ := stmt.exists_line_of_literal? ctx hliteral
  refine ⟨line, Code.mem_lineTextsOf_iff.mpr ⟨.line line, ?_, List.mem_singleton_self _⟩, hquotes⟩
  refine List.mem_append_right _ (List.mem_map.mpr ⟨line, ?_, rfl⟩)
  exact List.mem_flatMap.mpr ⟨stmt, hstmt, hline⟩

end Scope

/-! ### Where the lines stand -/

section Parts

variable {line : String}

/-- What a symbol function paints stands in its lines. -/
theorem SymbolFunction.mem_lineTextsOf_code {f : SymbolFunction} {ctx : String}
    (h : line ∈ Code.lineTextsOf (f.scope.code ctx)) : line ∈ Code.lineTextsOf (f.code ctx) :=
  List.mem_append_left _ (Code.mem_lineTextsOf_block h)

/-- What is painted on a hidden canvas stands in the lines of its block. -/
theorem Tile.mem_lineTextsOf_code {tile : Tile} {ctx : String}
    (h : line ∈ Code.lineTextsOf (tile.scope.code ctx)) :
    line ∈ Code.lineTextsOf (tile.code ctx) := by
  obtain ⟨piece, hpiece, hline⟩ := Code.mem_lineTextsOf_iff.mp h
  refine List.mem_append_right _ (List.mem_append_left _ (Code.mem_lineTextsOf_block ?_))
  exact Code.mem_lineTextsOf_iff.mpr ⟨piece, List.mem_append_right _ hpiece, hline⟩

/-- What a draw object paints stands in its lines. -/
theorem DrawObject.mem_lineTextsOf_code {object : DrawObject} {scope : Scope} {ctx : String}
    (hscope : object.scope? = some scope) (h : line ∈ Code.lineTextsOf (scope.code ctx)) :
    line ∈ Code.lineTextsOf (object.code ctx) := by
  have hpaint : object.painting = .art scope := by
    unfold scope? at hscope
    split at hscope
    next hart => rw [hart, Option.some.inj hscope]
    next => cases hscope
  refine List.mem_append_left _ (Code.mem_lineTextsOf_block ?_)
  refine Code.mem_lineTextsOf_iff.mpr ⟨_, List.mem_append_right _ (List.mem_singleton_self _), ?_⟩
  rw [hpaint]
  exact Code.mem_lineTextsOf_block h

/-- The block of a hidden canvas looks up the canvas. -/
theorem Tile.canvasLine_mem_lineTextsOf_code (tile : Tile) (ctx : String) :
    "const " ++ s!"canvas{tile.canvas}" ++ " = " ++ canvasExpression (tileElement tile.canvas)
      ++ ";" ∈ Code.lineTextsOf (tile.code ctx) := by
  rw [code, Code.lineTextsOf, Code.lineTextsOf]
  refine List.mem_append_right _ (List.mem_append_left _ (Code.mem_lineTextsOf_block ?_))
  rw [List.cons_append, Code.lineTextsOf]
  exact List.mem_append_left _ (List.mem_singleton_self _)

/-- A draw object with an image file loads the file. -/
theorem DrawObject.sourceLine_mem_lineTextsOf_code {object : DrawObject} {file : String}
    (ctx : String) (hfile : object.file? = some file) :
    Identifier.escape object.function ++ ".image.src = " ++ Text.quote file ++ ";"
      ∈ Code.lineTextsOf (object.code ctx) := by
  rw [code, hfile]
  exact List.mem_append_right _ List.mem_cons_self

end Parts

namespace Script

variable {o : EmitOptions} {s : Script} {line : String}

/-- The lines of each hidden canvas are among those of all. -/
theorem mem_lineTextsOf_tilesCode {ctx : String} {tiles : List Tile} {tile : Tile}
    (htile : tile ∈ tiles) (h : line ∈ Code.lineTextsOf (tile.code ctx)) :
    line ∈ Code.lineTextsOf (tilesCode ctx tiles) := by
  have hsome : tiles.isEmpty = false := List.isEmpty_eq_false_iff_exists_mem.mpr ⟨tile, htile⟩
  rw [tilesCode, hsome]
  exact List.mem_append_left _
    (Code.mem_lineTextsOf_block (Code.mem_lineTextsOf_flatMap htile h))

/-- The lines of these parts of a script are lines of the script. -/
theorem mem_lineTextsOf_code {part : List Code} (h : line ∈ Code.lineTextsOf part)
    (hpart : part ∈ [s.symbols.flatMap (SymbolFunction.code o.contextName),
      tilesCode o.contextName s.tiles, s.objects.flatMap (DrawObject.code o.contextName),
      s.renderCode o]) :
    line ∈ Code.lineTextsOf (s.code o) := by
  refine Code.lineTextsOf_subset (fun piece hpiece => ?_) h
  simp only [List.mem_cons, List.not_mem_nil, or_false] at hpart
  rcases hpart with rfl | rfl | rfl | rfl <;>
    simp only [code, List.mem_append, hpiece, true_or, or_true]

/-- They are among those of the script. -/
theorem mem_lineTextsOf_code_of_tile {tile : Tile} (htile : tile ∈ s.tiles)
    (h : line ∈ Code.lineTextsOf (tile.code o.contextName)) :
    line ∈ Code.lineTextsOf (s.code o) :=
  mem_lineTextsOf_code (mem_lineTextsOf_tilesCode htile h) (by simp)

/-- So are the lines of each draw function. -/
theorem mem_lineTextsOf_code_of_object {object : DrawObject} (hobject : object ∈ s.objects)
    (h : line ∈ Code.lineTextsOf (object.code o.contextName)) :
    line ∈ Code.lineTextsOf (s.code o) :=
  mem_lineTextsOf_code (Code.mem_lineTextsOf_flatMap hobject h) (by simp)

/-- The lines of the scopes of a script are lines of the script. -/
theorem mem_lineTextsOf_code_of_scope {scope : Scope} (hscope : scope ∈ s.scopes)
    (h : line ∈ Code.lineTextsOf (scope.code o.contextName)) :
    line ∈ Code.lineTextsOf (s.code o) := by
  rw [scopes, List.mem_append, List.mem_append, List.mem_map, List.mem_map,
    List.mem_filterMap] at hscope
  -- the scopes are those of symbols, of hidden canvases and of draw objects
  rcases hscope with (⟨f, hf, rfl⟩ | ⟨tile, htile, rfl⟩) | ⟨object, hobject, hart⟩
  · exact mem_lineTextsOf_code
      (Code.mem_lineTextsOf_flatMap hf (SymbolFunction.mem_lineTextsOf_code h)) (by simp)
  · exact mem_lineTextsOf_code_of_tile htile (Tile.mem_lineTextsOf_code h)
  · exact mem_lineTextsOf_code_of_object hobject (DrawObject.mem_lineTextsOf_code hart h)

/-- Setting up the page starts with looking up the canvas. -/
theorem canvasLine_mem_lineTextsOf_renderCode (o : EmitOptions) (s : Script) :
    "export function render(canvas: HTMLCanvasElement = " ++ canvasExpression o.canvasId
      ++ "): void \x7b" ∈ Code.lineTextsOf (s.renderCode o) :=
  List.mem_append_left _ (List.mem_append_left _ List.mem_cons_self)

/-- Each text that a script writes as a literal stands in one of its lines. -/
theorem exists_line_of_mem_literals {text : String} (h : text ∈ s.literals o) :
    ∃ line ∈ Code.lineTextsOf (s.code o), Text.Quotes line text := by
  rw [literals, List.mem_cons, List.mem_append, List.mem_append, List.mem_map, List.mem_filterMap,
    List.mem_flatMap] at h
  -- the canvas of the page, a hidden canvas, an image file, or what a scope writes
  rcases h with rfl | (⟨tile, htile, rfl⟩ | ⟨object, hobject, hfile⟩) | ⟨scope, hscope, htext⟩
  · exact ⟨_, mem_lineTextsOf_code (canvasLine_mem_lineTextsOf_renderCode o s) (by simp),
      (quotes_canvasExpression _).append _ _⟩
  · exact ⟨_, mem_lineTextsOf_code_of_tile htile (tile.canvasLine_mem_lineTextsOf_code _),
      (quotes_canvasExpression _).append _ _⟩
  · have hline := DrawObject.sourceLine_mem_lineTextsOf_code o.contextName hfile
    exact ⟨_, mem_lineTextsOf_code_of_object hobject hline, _, _, rfl⟩
  · obtain ⟨line, hline, hquotes⟩ := scope.exists_line_of_mem_literals o.contextName htext
    exact ⟨line, mem_lineTextsOf_code_of_scope hscope hline, hquotes⟩

end Script

namespace Text

/-- Reading a quoted text gives back the text. The first mark that is not escaped is the last
character, also where more text follows, no line ends inside, and what stands inside decodes to the
text; so different texts are quoted in different ways. In a script, each name of a page element or
of an image file and each colour stands as such a literal, and the code goes on right behind it. -/
theorem literals_read_back :
    (∀ s : String, ∃ inside : List Char,
      (quote s).toList = '\x22' :: (inside ++ ['\x22'])
        ∧ closing? false (inside ++ ['\x22']) = some inside.length
        ∧ '\n' ∉ inside ∧ '\r' ∉ inside
        ∧ decode inside = s.toList
        ∧ ∀ rest : List Char,
          closing? false (inside ++ '\x22' :: rest) = some inside.length
            ∧ readLiteral? ((quote s).toList ++ rest) = some (s, rest))
      ∧ Function.Injective quote
      ∧ ∀ (o : EmitOptions) (script : Script), ∀ text ∈ script.literals o,
        ∃ before after : String, script.text o = before ++ quote text ++ after
          ∧ readLiteral? ((quote text).toList ++ after.toList) = some (text, after.toList) := by
  refine ⟨fun s => ?_, quote_injective, fun o script text htext => ?_⟩
  · have hend : ∀ c, isLineEnd c = true → c ∉ encode s.toList := fun c hc hmem =>
      List.any_eq_false.mp (any_isLineEnd_encode s.toList) c hmem hc
    exact ⟨encode s.toList, toList_quote s, closing?_encode_append _ [], hend _ rfl, hend _ rfl,
      decode_encode _, fun rest => ⟨closing?_encode_append _ rest, readLiteral?_quote rest s⟩⟩
  · obtain ⟨line, hline, hquotes⟩ := Script.exists_line_of_mem_literals htext
    obtain ⟨front, back, hscript⟩ := Code.exists_render_of_mem hline
    obtain ⟨before, after, hquoted⟩ := hquotes.append front back
    rw [← Script.text_eq] at hscript
    exact ⟨before, after, hscript.trans hquoted, readLiteral?_quote _ _⟩

/-- A script that paints one image, whose file name tries to end the literal and to go on with a
call. -/
def imageScript : Script where
  bounds := ⟨0.0, 0.0, 10.0, 10.0⟩
  symbols := []
  tiles := []
  objects := [⟨"logo", ⟨0.0, 0.0, 10.0, 10.0⟩, .image "a\\\";\nalert();//" ⟨0.0, 0.0⟩ 10.0 10.0⟩]
  paths := []
  clocks := []
  frame := []
  startup := none
  summary := []

/-- The file name in `imageScript` stands in the script as one literal, and the call in it is not
made. -/
theorem literals_read_back_imageScript :
    "a\\\";\nalert();//" ∈ imageScript.literals {}
      ∧ ∃ before after : String,
        imageScript.text {} = before ++ "\"a\\\\\\\";\\nalert();//\"" ++ after
          ∧ readLiteral? ("\"a\\\\\\\";\\nalert();//\"".toList ++ after.toList)
            = some ("a\\\";\nalert();//", after.toList) := by
  have hmem : "a\\\";\nalert();//" ∈ imageScript.literals {} := by decide
  have hquote : quote "a\\\";\nalert();//" = "\"a\\\\\\\";\\nalert();//\"" := by decide
  have hread := literals_read_back.2.2 {} imageScript _ hmem
  rw [hquote] at hread
  exact ⟨hmem, hread⟩

end Text

end ArtCanvas
