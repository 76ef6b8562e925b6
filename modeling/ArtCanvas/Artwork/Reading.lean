import ArtCanvas.Artwork.Document
import ArtCanvas.Outcome

/-!
# Reading art documents

The JSON form of a document, field by field. Fields that say nothing may be left out.
-/

namespace ArtCanvas

open Json (required withDefault optional)

/-- Reads a box. -/
def Box.ofJson? (j : Json) : Option (Box Float) := do
  match ← j.record? ["left", "top", "right", "bottom"] with
  | [left, top, right, bottom] =>
    return ⟨← required Json.float? left, ← required Json.float? top, ← required Json.float? right,
      ← required Json.float? bottom⟩
  | _ => none

/-- Reads what a node is. -/
def NodeKind.ofJson? (j : Json) : Option NodeKind := do
  match ← j.choice? with
  | "plain" => some .plain
  | "symbol" => some .symbol
  | "plugin_group" => some .pluginGroup
  | _ => none

/-- Reads a colour of a gradient. -/
def GradientStop.ofJson? (j : Json) : Option GradientStop := do
  match ← j.record? ["offset", "color"] with
  | [offset, color] => return ⟨← required Json.float? offset, ← required Color.ofJson? color⟩
  | _ => none

namespace Paint

/-- Reads the fields of a paint whose kind is known. -/
def ofFields? (kind : String) (fields : Json) : Option Paint :=
  match kind with
  | "none" =>
    match fields with
    | .array (_ :: _) => Option.none
    | _ => some .none
  | "solid" => do
    match ← fields.record? ["color"] with
    | [color] => return .solid (← required Color.ofJson? color)
    | _ => Option.none
  | "gradient" => do
    match ← fields.record? ["stops"] with
    | [stops] => return .gradient (← withDefault [] (Json.list? GradientStop.ofJson?) stops)
    | _ => Option.none
  | "pattern" => do
    match ← fields.record? ["pattern"] with
    | [index] => return .pattern (← required Json.index? index)
    | _ => Option.none
  | _ => Option.none

/-- How deep a document may nest around and inside a paint. -/
def depthLimit : Nat := 127

/-- Reads a paint: an object with a field `kind` in any place, or an array that begins with the
kind. A paint is taken in as a whole, so even the fields that it does not have must be sound;
`around` counts the arrays and objects around it. -/
def ofJson? (around : Nat) (j : Json) : Option Paint :=
  if !j.isWhole (depthLimit - around) then Option.none
  else match j with
    | .array (kind :: rest) => do ofFields? (← kind.string?) (.array rest)
    | .object fields =>
      match fields.filter (·.1 == some "kind") with
      | [(_, kind)] => do ofFields? (← kind.string?) (.object (fields.filter (·.1 != some "kind")))
      | _ => Option.none
    | _ => Option.none

end Paint

/-- Reads a node. A node of a document stands inside an array inside an object. -/
def ArtNode.ofJson? (j : Json) : Option ArtNode := do
  let fields ← j.record? ["kind", "bounds", "hidden", "opacity", "fill", "stroke", "stroke_width",
    "first_child", "next_sibling", "symbol", "result", "path"]
  match fields with
  | [kind, bounds, hidden, opacity, fill, stroke, strokeWidth, firstChild, nextSibling, symbol,
      result, path] =>
    return {
      kind := ← withDefault .plain NodeKind.ofJson? kind
      bounds := ← required Box.ofJson? bounds
      hidden := ← withDefault false Json.bool? hidden
      opacity := ← withDefault 1.0 Json.float? opacity
      fill := ← withDefault .none (Paint.ofJson? 3) fill
      stroke := ← withDefault .none (Paint.ofJson? 3) stroke
      strokeWidth := ← withDefault 1.0 Json.float? strokeWidth
      firstChild := ← optional Json.index? firstChild
      nextSibling := ← optional Json.index? nextSibling
      symbol := ← optional Json.index? symbol
      result := ← optional Json.index? result
      path := ← optional Json.string? path }
  | _ => none

/-- Reads a layer. -/
def ArtLayer.ofJson? (j : Json) : Option ArtLayer := do
  match ← j.record? ["name", "visible", "art"] with
  | [name, visible, art] =>
    return { name := ← required Json.string? name
             visible := ← withDefault true Json.bool? visible
             art := ← optional Json.index? art }
  | _ => none

/-- Reads a pattern. -/
def ArtPattern.ofJson? (j : Json) : Option ArtPattern := do
  match ← j.record? ["name", "content"] with
  | [name, content] =>
    return { name := ← required Json.string? name, content := ← optional Json.index? content }
  | _ => none

namespace ArtDocument

/-- Reads a document without checking that it makes sense. -/
def ofJson? (j : Json) : Option ArtDocument := do
  match ← j.record? ["layers", "nodes", "patterns"] with
  | [layers, nodes, patterns] =>
    return {
      layers := (← withDefault [] (Json.list? ArtLayer.ofJson?) layers).toArray
      nodes := (← withDefault [] (Json.list? ArtNode.ofJson?) nodes).toArray
      patterns := (← withDefault [] (Json.list? ArtPattern.ofJson?) patterns).toArray }
  | _ => none

/-- The document that a JSON value describes, unchecked. -/
def ofJson (j : Json) : Except Failure ArtDocument :=
  match ofJson? j with
  | some doc => .ok doc
  | none => .error (.malformed "not an art document")

end ArtDocument

end ArtCanvas
