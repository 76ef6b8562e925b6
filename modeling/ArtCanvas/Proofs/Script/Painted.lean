import ArtCanvas.Proofs.Scan.Tour
import ArtCanvas.Proofs.Script.Locals

/-!
# What the built-in renderer paints

The renderer goes around the art on its own, with a limit of its own. It paints less than a scan
visits: nothing below a symbol, and of a plugin group only the result.

* `Artwork.paintTour`, `Artwork.paintTourNode`: the nodes that the renderer comes to, for a list of
  siblings and for one node.
* `Outline.ownStmts`: the statements of one node, without those of what is below it.
* `Outline.cases_of_mem_paintOutline`, `Outline.paintsOutline_of_mem`,
  `Outline.placesSymbol_of_mem`: the kinds of statements that paint an outline and a symbol.
* `Outline.foldl_paintOutline`: what painting an outline leaves as it is.
* `Outline.mem_paintSiblings`: the statements for a list of siblings are those of the nodes that the
  renderer comes to, and no others.
* `Outline.Paints`: the local variables for the statements of one node.
* `Outline.use_paintSiblings`: the statements for a list of siblings use the local variables of the
  nodes that the renderer comes to, and no others.
* `Artwork.paintTour_subset_tour`: a scan with as many levels, or one that leaves nothing out,
  visits all that is painted.
-/

namespace ArtCanvas

namespace Artwork

variable (art : Artwork)

/-- The first node of the art that is painted below a node. -/
def paintArt (node : Nat) : Option Nat :=
  match art.kind node with
  | .plain => art.firstChild node
  | .pluginGroup => art.resultArt node
  | .symbol => none

/-- The nodes that the renderer comes to from `first` on when `levels` levels are left. -/
def paintTour : Nat → Option Nat → List Nat
  | 0, _ => []
  | levels + 1, first =>
    (art.siblings first).flatMap fun node =>
      if art.isHidden node then [] else node :: paintTour levels (art.paintArt node)

/-- The nodes that the renderer comes to for one node, with `levels` levels left: the node and what
is painted below it. -/
def paintTourNode : Nat → Nat → List Nat
  | 0, _ => []
  | levels + 1, node =>
    if art.isHidden node then [] else node :: art.paintTour levels (art.paintArt node)

/-- The node has an outline of its own. -/
def HasOutline (node : Nat) : Prop :=
  art.kind node = .plain ∧ ∃ path, art.path node = some path ∧ path.isEmpty = false

variable {art}

@[simp]
theorem paintTour_none (levels : Nat) : art.paintTour levels none = [] := by
  cases levels <;> simp [paintTour]

/-- The renderer comes to a list of siblings one by one. -/
theorem paintTour_eq_flatMap (levels : Nat) (first : Option Nat) :
    art.paintTour levels first = (art.siblings first).flatMap (art.paintTourNode levels) := by
  cases levels with
  | zero => simp [paintTour, paintTourNode]
  | succ levels => rfl

/-- What is painted below a node is a part of what a scan visits below it. -/
theorem paintArt_cases (art : Artwork) (node : Nat) :
    art.paintArt node = art.firstChild node ∨ art.paintArt node = art.resultArt node ∨
      art.paintArt node = none := by
  unfold paintArt
  cases art.kind node with
  | plain => exact Or.inl rfl
  | pluginGroup => exact Or.inr (Or.inl rfl)
  | symbol => exact Or.inr (Or.inr rfl)

/-- Where nothing is left out, nothing is left out below a visible node. -/
theorem skipped_below_eq_nil {levels node : Nat} {first : Option Nat}
    (h : art.skipped (levels + 1) first = []) (hmem : node ∈ art.siblings first)
    (hvisible : art.isHidden node = false) :
    art.skipped levels (art.resultArt node) = [] ∧
      art.skipped levels (art.firstChild node) = [] := by
  have hbelow := List.flatMap_eq_nil_iff.mp h node hmem
  simpa [hvisible] using hbelow

/-- A scan visits all that the renderer comes to with as many levels, and where the scan leaves
nothing out, all that the renderer comes to with any number of levels. -/
theorem paintTour_subset_tour {levels levels' : Nat} {first : Option Nat}
    (h : levels' ≤ levels ∨ art.skipped levels first = []) :
    art.paintTour levels' first ⊆ art.tour levels first := by
  induction levels generalizing levels' first with
  | zero =>
    rcases h with hle | hnone
    · rw [Nat.le_zero.mp hle]
      exact List.nil_subset _
    · cases first with
      | none => simp
      | some node => simp [skipped] at hnone
  | succ levels ih =>
    cases levels' with
    | zero => simp [paintTour]
    | succ levels' =>
      intro node hmem
      obtain ⟨sibling, hsibling, hnode⟩ := List.mem_flatMap.mp hmem
      rw [tour, tourAt_succ, List.map_flatMap, List.mem_flatMap]
      refine ⟨sibling, hsibling, ?_⟩
      rw [tourNode]
      cases hvisible : art.isHidden sibling with
      | true => simp [hvisible] at hnode
      | false =>
        -- one level less is left on both ways, and what is left out below is left out here
        have hresult : levels' ≤ levels ∨ art.skipped levels (art.resultArt sibling) = [] :=
          h.imp Nat.le_of_succ_le_succ fun hnone =>
            (skipped_below_eq_nil hnone hsibling hvisible).1
        have hchild : levels' ≤ levels ∨ art.skipped levels (art.firstChild sibling) = [] :=
          h.imp Nat.le_of_succ_le_succ fun hnone =>
            (skipped_below_eq_nil hnone hsibling hvisible).2
        simp only [hvisible, Bool.false_eq_true, if_false, List.mem_cons] at hnode
        simp only [Bool.false_eq_true, if_false, List.map_cons, List.map_append, List.mem_cons,
          List.mem_append]
        rcases hnode with rfl | hbelow
        · exact Or.inl rfl
        · rcases art.paintArt_cases sibling with hart | hart | hart <;> rw [hart] at hbelow
          · exact Or.inr (Or.inr (ih hchild hbelow))
          · exact Or.inr (Or.inl (ih hresult hbelow))
          · simp at hbelow

end Artwork

namespace Stmt

/-- Whether the statement is for the choice of a paint. -/
def choosesPaint : Stmt → Bool
  | .solidStyle _ _ | .makeGradient _ _ | .addStop _ _ | .gradientStyle _ | .makePattern _
  | .patternStyle _ => true
  | _ => false

/-- Whether the statement is for an outline: makes it the current one, or paints it. -/
def paintsOutline : Stmt → Bool
  | .outline _ _ | .fill | .stroke | .lineWidth _ => true
  | stmt => stmt.choosesPaint

/-- Whether the statement is for a symbol: for the call and its place, or in place of the call. -/
def placesSymbol : Stmt → Bool
  | .comment _ | .save | .restore | .translate _ | .scale _ _ | .callSymbol _ => true
  | _ => false

end Stmt

namespace Outline

variable (o : Outline) (art : Artwork) (transform : Affine Float)

/-- The local variable that a paint of a node needs. A pattern needs none if it has no canvas: then
it is not painted. -/
def PaintsWith (node : Nat) (target : PaintTarget) : Local → Prop
  | .alpha => False
  | .gradient => art.paint node target = .gradient
  | .pattern => ∃ handle canvas, art.paint node target = .pattern handle ∧
      (o.patterns.find? handle).bind Pattern.canvas = some canvas

/-- The local variables that the statements of one node need: for its opacity, and for the paints of
its outline. -/
def Paints (node : Nat) (x : Local) : Prop :=
  (x = .alpha ∧ art.opacity node != 1.0) ∨
    (art.HasOutline node ∧ ∃ target, o.PaintsWith art node target x)

variable {o art transform}

/-- Choosing a paint does nothing else. -/
theorem choosesPaint_of_mem {node : Nat} {target : PaintTarget} {choose : List Stmt}
    (h : o.choosePaint art transform node target = some choose) :
    ∀ stmt ∈ choose, stmt.choosesPaint = true := by
  unfold choosePaint at h
  cases hpaint : art.paint node target with
  | none => simp [hpaint] at h
  | solid =>
    simp only [hpaint, Option.some.injEq] at h
    simp [← h, Stmt.choosesPaint]
  | gradient =>
    simp only [hpaint, Option.some.injEq] at h
    intro stmt hmem
    rw [← h, List.mem_append, List.mem_cons, List.mem_map, List.mem_singleton] at hmem
    rcases hmem with (rfl | ⟨stop, -, rfl⟩) | rfl <;> rfl
  | pattern handle =>
    simp only [hpaint, Option.map_eq_some_iff] at h
    obtain ⟨canvas, -, rfl⟩ := h
    simp [Stmt.choosesPaint]

/-- The outline of a node is made the current one, and then filled and stroked. Without an outline
or without paints there are no statements. -/
theorem paintOutline_cases (o : Outline) (art : Artwork) (transform : Affine Float) (node : Nat) :
    (∃ path path', art.path node = some path ∧ path.isEmpty = false ∧
      o.paintOutline art transform node = .outline node path' ::
        (o.paintFill art transform node ++ o.paintStroke art transform node)) ∨
    ((∀ path, art.path node = some path → path.isEmpty = true) ∨
      ∀ target, art.paint node target = .none) ∧ o.paintOutline art transform node = [] := by
  unfold paintOutline
  cases hpath : art.path node with
  | none => exact Or.inr ⟨Or.inl (by simp), rfl⟩
  | some path =>
    dsimp only
    split
    next hnothing =>
      -- either the outline is empty, or there is no paint for it
      refine Or.inr ⟨?_, rfl⟩
      rw [Bool.or_eq_true, Bool.and_eq_true, beq_iff_eq, beq_iff_eq] at hnothing
      refine hnothing.imp (fun hempty path' hpath' => ?_) fun hunpainted target => ?_
      · rwa [← Option.some.inj hpath']
      · cases target with
        | fill => exact hunpainted.1
        | stroke => exact hunpainted.2
    next hpainted =>
      rw [Bool.or_eq_true, not_or, Bool.not_eq_true] at hpainted
      exact Or.inl ⟨path, _, rfl, hpainted.1, rfl⟩

/-- Painting an outline makes it the current one, and chooses its paints and applies them. -/
theorem cases_of_mem_paintOutline {node : Nat} {stmt : Stmt}
    (h : stmt ∈ o.paintOutline art transform node) :
    (∃ path, stmt = .outline node path) ∨ stmt.choosesPaint = true ∨ stmt = .fill ∨
      stmt = .stroke ∨ ∃ width, stmt = .lineWidth width := by
  -- an outline is drawn, filled and stroked, or left out altogether
  rcases o.paintOutline_cases art transform node with ⟨-, path', -, -, heq⟩ | ⟨-, heq⟩
  · rw [heq, List.mem_cons, List.mem_append] at h
    rcases h with rfl | hfill | hstroke
    · exact Or.inl ⟨path', rfl⟩
    · unfold paintFill at hfill
      split at hfill
      next choose hchoose =>
        rcases List.mem_append.mp hfill with hmem | hmem
        · exact Or.inr (Or.inl (choosesPaint_of_mem hchoose stmt hmem))
        · exact Or.inr (Or.inr (Or.inl (List.mem_singleton.mp hmem)))
      next => cases hfill
    · unfold paintStroke at hstroke
      split at hstroke
      next choose hchoose =>
        rcases List.mem_append.mp hstroke with hmem | hmem
        · exact Or.inr (Or.inl (choosesPaint_of_mem hchoose stmt hmem))
        · rcases List.mem_cons.mp hmem with rfl | hmem
          · exact Or.inr (Or.inr (Or.inr (Or.inr ⟨_, rfl⟩)))
          · exact Or.inr (Or.inr (Or.inr (Or.inl (List.mem_singleton.mp hmem))))
      next => cases hstroke
  · rw [heq] at h
    cases h

/-- An outline is painted by statements that are for outlines. -/
theorem paintsOutline_of_mem {node : Nat} {stmt : Stmt}
    (h : stmt ∈ o.paintOutline art transform node) : stmt.paintsOutline = true := by
  rcases cases_of_mem_paintOutline h with ⟨path, rfl⟩ | hpaint | rfl | rfl | ⟨width, rfl⟩
  · rfl
  · cases stmt with
    | solidStyle | makeGradient | addStop | gradientStyle | makePattern | patternStyle => rfl
    | _ => cases hpaint
  · rfl
  · rfl
  · rfl

/-- What no statement for an outline changes is not changed where an outline is painted. -/
theorem foldl_paintOutline {σ : Type} {step : σ → Stmt → σ}
    (h : ∀ stmt, stmt.paintsOutline = true → ∀ s, step s stmt = s) (node : Nat) (s : σ) :
    (o.paintOutline art transform node).foldl step s = s := by
  have hbody : ∀ body : List Stmt, (∀ stmt ∈ body, stmt.paintsOutline = true) →
      body.foldl step s = s := by
    intro body hbody
    induction body with
    | nil => rfl
    | cons stmt body ih =>
      obtain ⟨hstmt, hbody⟩ := List.forall_mem_cons.mp hbody
      rw [List.foldl_cons, h stmt hstmt s, ih hbody]
  exact hbody _ fun _ => paintsOutline_of_mem

/-- A symbol is painted by a call, between keeping the state and going back to it, if it is painted
at all and no remark stands in its place. -/
theorem paintSymbol_cases (o : Outline) (art : Artwork) (transform : Affine Float)
    (active : Option Nat) (node : Nat) :
    o.paintSymbol art transform active node = [] ∨
      o.paintSymbol art transform active node = [.comment recursionNote] ∨
      ∃ corner scale function, (scale = [] ∨ ∃ x y, scale = [Stmt.scale x y]) ∧
        o.paintSymbol art transform active node =
          [.save, .translate corner] ++ scale ++ [.callSymbol function, .restore] := by
  unfold paintSymbol
  cases art.symbolPattern node with
  | none => exact Or.inl rfl
  | some handle =>
    dsimp only
    split
    next => exact Or.inr (Or.inl rfl)
    next =>
      cases o.patterns.find? handle with
      | none => exact Or.inl rfl
      | some p =>
        refine Or.inr (Or.inr ⟨_, _, _, ?_, rfl⟩)
        split
        next x y _ => exact Or.inr ⟨x, y, rfl⟩
        next => exact Or.inl rfl

/-- A symbol is painted by statements that are for symbols. -/
theorem placesSymbol_of_mem {active : Option Nat} {node : Nat} {stmt : Stmt}
    (h : stmt ∈ o.paintSymbol art transform active node) : stmt.placesSymbol = true := by
  have hall : (o.paintSymbol art transform active node).all Stmt.placesSymbol = true := by
    rcases o.paintSymbol_cases art transform active node with
      heq | heq | ⟨corner, scale, function, rfl | ⟨x, y, rfl⟩, heq⟩ <;>
      rw [heq] <;> rfl
  exact List.all_eq_true.mp hall stmt h

/-- Choosing a paint uses the local variable of that paint. -/
theorem use_choosePaint {node : Nat} {target : PaintTarget} {x : Local} :
    (∃ choose, o.choosePaint art transform node target = some choose ∧ Stmt.Use choose x) ↔
      o.PaintsWith art node target x := by
  -- the colours of a gradient are given to its variable
  have hstops : ∀ stops : List GradientStop,
      Stmt.Use (stops.map fun stop => .addStop stop.offset stop.color.css) x → x = .gradient := by
    rintro stops ⟨stmt, hmem, hx⟩
    obtain ⟨stop, -, rfl⟩ := List.mem_map.mp hmem
    exact (Option.some.inj hx).symm
  unfold choosePaint
  cases hpaint : art.paint node target with
  | none => cases x <;> simp [PaintsWith, hpaint]
  | solid => cases x <;> simp [PaintsWith, hpaint, Stmt.local?]
  | gradient =>
    cases x with
    | alpha => simpa [PaintsWith, hpaint, Stmt.local?] using fun h => nomatch hstops _ h
    | gradient => simp [PaintsWith, hpaint, Stmt.local?]
    | pattern => simpa [PaintsWith, hpaint, Stmt.local?] using fun h => nomatch hstops _ h
  | pattern handle =>
    dsimp only
    cases hcanvas : (o.patterns.find? handle).bind Pattern.canvas with
    | none => cases x <;> simp [PaintsWith, hpaint, hcanvas]
    | some canvas => cases x <;> simp [PaintsWith, hpaint, hcanvas, Stmt.local?]

theorem use_paintFill {node : Nat} {x : Local} :
    Stmt.Use (o.paintFill art transform node) x ↔ o.PaintsWith art node .fill x := by
  rw [← use_choosePaint, paintFill]
  cases o.choosePaint art transform node .fill <;> simp [Stmt.local?]

theorem use_paintStroke {node : Nat} {x : Local} :
    Stmt.Use (o.paintStroke art transform node) x ↔ o.PaintsWith art node .stroke x := by
  rw [← use_choosePaint, paintStroke]
  cases o.choosePaint art transform node .stroke <;> simp [Stmt.local?]

/-- An outline uses the local variables of its two paints. -/
theorem use_paintOutline {node : Nat} {x : Local} (hkind : art.kind node = .plain) :
    Stmt.Use (o.paintOutline art transform node) x ↔
      art.HasOutline node ∧ ∃ target, o.PaintsWith art node target x := by
  rcases o.paintOutline_cases art transform node with
    ⟨path, path', hpath, hempty, heq⟩ | ⟨hnone, heq⟩
  · have houtline : art.HasOutline node := ⟨hkind, path, hpath, hempty⟩
    rw [heq, PaintTarget.exists_iff]
    simp [houtline, use_paintFill, use_paintStroke, Stmt.local?]
  · -- without a paint there are no statements, and no local variable either
    rw [heq]
    refine iff_of_false (by simp) ?_
    rintro ⟨⟨-, path, hpath, hsome⟩, target, hpaints⟩
    rcases hnone with hempty | hunpainted
    · rw [hempty path hpath] at hsome
      cases hsome
    · cases x <;> simp [PaintsWith, hunpainted] at hpaints

/-- A symbol is painted by a call, which uses no local variable. -/
theorem use_paintSymbol {active : Option Nat} {node : Nat} {x : Local} :
    ¬ Stmt.Use (o.paintSymbol art transform active node) x := by
  rintro ⟨stmt, hmem, hx⟩
  have hplaces := placesSymbol_of_mem hmem
  cases stmt with
  | comment | save | restore | translate | scale | callSymbol => cases hx
  | _ => cases hplaces

theorem use_withOpacity {opacity : Float} {body : List Stmt} {x : Local} :
    Stmt.Use (withOpacity opacity body) x ↔ (x = .alpha ∧ opacity != 1.0) ∨ Stmt.Use body x := by
  unfold withOpacity
  split
  next hopacity => cases x <;> simp [Stmt.local?, hopacity]
  next hopacity => simp [hopacity]

/-- An opacity is set before the statements and reset behind them. -/
theorem mem_withOpacity {opacity : Float} {body : List Stmt} {stmt : Stmt} :
    stmt ∈ withOpacity opacity body ↔
      stmt ∈ body ∨ opacity != 1.0 ∧ (stmt = .setAlpha opacity ∨ stmt = .resetAlpha) := by
  unfold withOpacity
  split
  next hopacity =>
    simp only [List.cons_append, List.mem_cons, List.mem_append, List.not_mem_nil, hopacity]
    tauto
  next hopacity => simp [hopacity]

/-- What the opacity adds around statements does not depend on those that come last. -/
theorem mem_withOpacity_append {opacity : Float} {own below : List Stmt} {stmt : Stmt} :
    stmt ∈ withOpacity opacity (own ++ below) ↔ stmt ∈ withOpacity opacity own ∨ stmt ∈ below := by
  simp only [mem_withOpacity, List.mem_append]
  tauto

variable (o art transform) in
/-- The statements for what a node is itself, without its opacity and without what is below it. -/
def paintSelf (active : Option Nat) (node : Nat) : List Stmt :=
  match art.kind node with
  | .plain => o.paintOutline art transform node
  | .symbol => o.paintSymbol art transform active node
  | .pluginGroup => []

variable (o art transform) in
/-- The statements of a node, without what is below it. -/
def ownStmts (active : Option Nat) (node : Nat) : List Stmt :=
  withOpacity (art.opacity node) (o.paintSelf art transform active node)

/-- The statements of a node paint its outline or a symbol, or they set and reset the opacity. -/
theorem cases_of_mem_ownStmts {active : Option Nat} {node : Nat} {stmt : Stmt}
    (h : stmt ∈ o.ownStmts art transform active node) :
    stmt ∈ o.paintOutline art transform node ∨ stmt ∈ o.paintSymbol art transform active node ∨
      (∃ opacity, stmt = .setAlpha opacity) ∨ stmt = .resetAlpha := by
  rw [ownStmts, mem_withOpacity] at h
  rcases h with hself | ⟨-, rfl | rfl⟩
  · unfold paintSelf at hself
    split at hself
    next => exact Or.inl hself
    next => exact Or.inr (Or.inl hself)
    next => cases hself
  · exact Or.inr (Or.inr (Or.inl ⟨_, rfl⟩))
  · exact Or.inr (Or.inr (Or.inr rfl))

/-- A node is painted with its opacity, first itself and then what is below it. -/
theorem paintNode_succ (active : Option Nat) (levels node : Nat) :
    o.paintNode art transform active (levels + 1) node =
      if art.isHidden node then []
      else withOpacity (art.opacity node) (o.paintSelf art transform active node ++
        (art.siblings (art.paintArt node)).flatMap (o.paintNode art transform active levels)) := by
  rw [paintNode]
  unfold paintSelf Artwork.paintArt
  cases hkind : art.kind node with
  | plain => rfl
  | symbol => simp
  | pluginGroup =>
    cases hresult : art.pluginResult node <;> simp [Artwork.resultArt, hkind, hresult]

/-- The statements for a list of siblings are those of the nodes that the renderer comes to. -/
theorem mem_paintSiblings {active : Option Nat} {levels : Nat} {first : Option Nat} {stmt : Stmt} :
    stmt ∈ (art.siblings first).flatMap (o.paintNode art transform active levels) ↔
      ∃ node ∈ art.paintTour levels first, stmt ∈ o.ownStmts art transform active node := by
  induction levels generalizing first with
  | zero => simp [paintNode, Artwork.paintTour]
  | succ levels ih =>
    -- one sibling: its own statements, and by induction those of the nodes below it
    have hnode : ∀ node, stmt ∈ o.paintNode art transform active (levels + 1) node ↔
        ∃ n ∈ (if art.isHidden node then [] else node :: art.paintTour levels (art.paintArt node)),
          stmt ∈ o.ownStmts art transform active n := by
      intro node
      rw [paintNode_succ]
      cases art.isHidden node with
      | true => simp
      | false =>
        simp only [Bool.false_eq_true, if_false]
        rw [mem_withOpacity_append, ih, List.exists_mem_cons_iff, ownStmts]
    simp only [Artwork.paintTour, List.mem_flatMap, hnode]
    constructor
    · rintro ⟨sibling, hsibling, n, hn, hstmt⟩
      exact ⟨n, ⟨sibling, hsibling, hn⟩, hstmt⟩
    · rintro ⟨n, ⟨sibling, hsibling, hn⟩, hstmt⟩
      exact ⟨sibling, hsibling, n, hn, hstmt⟩

/-- The statements of one node use the local variables for its opacity and for the paints of its
outline. -/
theorem use_ownStmts {active : Option Nat} {node : Nat} {x : Local} :
    Stmt.Use (o.ownStmts art transform active node) x ↔ o.Paints art node x := by
  rw [ownStmts, use_withOpacity]
  unfold paintSelf Paints
  cases hkind : art.kind node with
  | plain => simp [use_paintOutline hkind]
  | symbol => simp [use_paintSymbol, Artwork.HasOutline, hkind]
  | pluginGroup => simp [Artwork.HasOutline, hkind]

/-- The statements for a list of siblings use the local variables of the nodes that the renderer
comes to, and no others. -/
theorem use_paintSiblings {active : Option Nat} {levels : Nat} {first : Option Nat} {x : Local} :
    Stmt.Use ((art.siblings first).flatMap (o.paintNode art transform active levels)) x ↔
      ∃ node ∈ art.paintTour levels first, o.Paints art node x := by
  have hown : ∀ node, o.Paints art node x ↔
      ∃ stmt ∈ o.ownStmts art transform active node, stmt.local? = some x :=
    fun _ => use_ownStmts.symm
  unfold Stmt.Use
  simp only [mem_paintSiblings, hown]
  constructor
  · rintro ⟨stmt, ⟨node, hnode, hstmt⟩, hx⟩
    exact ⟨node, hnode, stmt, hstmt, hx⟩
  · rintro ⟨node, hnode, stmt, hstmt, hx⟩
    exact ⟨stmt, ⟨node, hnode, hstmt⟩, hx⟩

end Outline

end ArtCanvas
