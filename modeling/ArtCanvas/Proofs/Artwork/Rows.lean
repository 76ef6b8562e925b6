import ArtCanvas.Artwork.Builder
import Mathlib.Data.Finset.Card
import Mathlib.Data.Finset.Image
import Mathlib.Data.List.Dedup

/-!
# Rows of siblings

A builder is given rows of nodes and makes every node of a row the sibling before the next one. A
node has only one next sibling, so a row can undo what a row before it, or its own start, has
linked. This module says what is left of the rows when no node is linked to twice in the end. It
knows nothing of documents.

* `Row.next?`: what one row puts after a node, and `nextIn` what several rows do, of which the last
  one wins.
* `ReadsAs`: the list that is met along next siblings.
* `LinkedOnce`: no node starts two rows, follows two nodes, or does both.
* `LinkedOnce.next_last`, `LinkedOnce.head_or_next`: there are as many links and starts of rows as
  nodes, so each row still ends, and each node is still linked to.
* `LinkedOnce.readsAs_kept`: what is read from the start of a row. A node that is named twice stands
  in its last place, and a node of a later row is gone.
* `LinkedOnce.readsAs_iff_nodup`: a row is read as it was given exactly if it names no node twice.
-/

namespace ArtCanvas

/-- Nodes that are to be siblings, in order. -/
abbrev Row := List Nat

/-- What a row puts after a node: what stands behind the last place of the node that is not the end
of the row. -/
def Row.next? : Row → Nat → Option Nat
  | a :: b :: rest, x => (Row.next? (b :: rest) x).or (if x = a then some b else none)
  | _, _ => none

/-- What several rows put after a node. Later rows win. -/
def nextIn : List Row → Nat → Option Nat
  | [], _ => none
  | row :: rows, x => (nextIn rows x).or (row.next? x)

/-- Exactly the nodes of a list are met, in their order, along `next` from `first` on. -/
def ReadsAs (next : Nat → Option Nat) : Option Nat → List Nat → Prop
  | first, [] => first = none
  | first, node :: nodes => first = some node ∧ ReadsAs next (next node) nodes

/-- Whether a row is read back is found out link by link. -/
instance ReadsAs.decidable (next : Nat → Option Nat) :
    ∀ first nodes, Decidable (ReadsAs next first nodes)
  | first, [] => inferInstanceAs (Decidable (first = none))
  | first, node :: nodes =>
    have := ReadsAs.decidable next (next node) nodes
    inferInstanceAs (Decidable (first = some node ∧ ReadsAs next (next node) nodes))

/-- The nodes of a row that are read in the end: each in its last place, and none that is in a later
row too. -/
def Row.kept (row : Row) (later : List Row) : List Nat :=
  row.dedup.filter fun node => node ∉ later.flatten

/-- What is kept of a row are its nodes that no later row has. -/
theorem Row.mem_kept {row : Row} {later : List Row} {x : Nat} :
    x ∈ row.kept later ↔ x ∈ row ∧ x ∉ later.flatten := by
  simp [Row.kept]

/-- How far the last place of a node is from the end of a row. -/
def Row.fromEnd (row : Row) (x : Nat) : Nat := row.reverse.idxOf x

/-! ### One row -/

namespace Row

/-- A row puts only its own nodes after its own nodes. -/
theorem mem_of_next? {row : Row} {x y : Nat} (h : row.next? x = some y) : x ∈ row ∧ y ∈ row := by
  fun_induction Row.next? row x with
  | case1 a b rest x ih =>
    rcases Option.or_eq_some_iff.mp h with hrest | ⟨-, hfirst⟩
    · obtain ⟨hx, hy⟩ := ih hrest
      exact ⟨List.mem_cons_of_mem _ hx, List.mem_cons_of_mem _ hy⟩
    · rw [Option.ite_none_right_eq_some] at hfirst
      obtain ⟨rfl, hb⟩ := hfirst
      cases hb
      exact ⟨by simp, by simp⟩
  | case2 => cases h

/-- Only the end of a row has nothing after it. -/
theorem getLast?_of_next?_eq_none {row : Row} {x : Nat} (hx : x ∈ row) (h : row.next? x = none) :
    row.getLast? = some x := by
  fun_induction Row.next? row x with
  | case1 a b rest x ih =>
    obtain ⟨hrest, hfirst⟩ := Option.or_eq_none_iff.mp h
    have hne : x ≠ a := by
      rintro rfl
      rw [if_pos rfl] at hfirst
      cases hfirst
    rw [List.getLast?_cons_cons]
    exact ih ((List.mem_cons.mp hx).resolve_left hne) hrest
  | case2 row x hshort =>
    match row, hshort with
    | [], _ => cases hx
    | [a], _ => rw [List.mem_singleton.mp hx, List.getLast?_singleton]
    | a :: b :: rest, hshort => exact absurd rfl (hshort a b rest)

theorem fromEnd_lt_length {row : Row} {x : Nat} (hx : x ∈ row) : row.fromEnd x < row.length := by
  rw [fromEnd, ← List.length_reverse]
  exact List.idxOf_lt_length_iff.mpr (List.mem_reverse.mpr hx)

/-- Another node in front does not change how far a node is from the end. -/
theorem fromEnd_cons_of_mem {row : Row} {x : Nat} (hx : x ∈ row) (a : Nat) :
    fromEnd (a :: row) x = row.fromEnd x := by
  rw [fromEnd, List.reverse_cons, List.idxOf_append_of_mem (List.mem_reverse.mpr hx), fromEnd]

/-- A node in front is as far from the end as the row was long. -/
theorem fromEnd_cons_self {row : Row} {a : Nat} (ha : a ∉ row) :
    fromEnd (a :: row) a = row.length := by
  rw [fromEnd, List.reverse_cons, List.idxOf_append_of_notMem (by simpa using ha)]
  simp

/-- The last places come nearer to the end along a row without its repetitions. -/
theorem pairwise_dedup_fromEnd (row : Row) :
    row.dedup.Pairwise fun x y => row.fromEnd y < row.fromEnd x := by
  induction row with
  | nil => exact List.Pairwise.nil
  | cons a row ih =>
    have hkeep : row.dedup.Pairwise fun x y => fromEnd (a :: row) y < fromEnd (a :: row) x := by
      refine ih.imp_of_mem fun {x y} hx hy hlt => ?_
      rwa [fromEnd_cons_of_mem (List.mem_dedup.mp hx), fromEnd_cons_of_mem (List.mem_dedup.mp hy)]
    by_cases ha : a ∈ row
    · rwa [List.dedup_cons_of_mem ha]
    · rw [List.dedup_cons_of_notMem ha, List.pairwise_cons]
      refine ⟨fun y hy => ?_, hkeep⟩
      have hy := List.mem_dedup.mp hy
      rw [fromEnd_cons_of_mem hy, fromEnd_cons_self ha]
      exact fromEnd_lt_length hy

/-- What a row puts after a node that is not its end stands nearer to the end. -/
theorem fromEnd_lt_of_next? {row : Row} {x y : Nat} (h : row.next? x = some y)
    (hend : row.getLast? ≠ some x) : row.fromEnd y < row.fromEnd x := by
  fun_induction Row.next? row x with
  | case1 a b rest x ih =>
    rw [List.getLast?_cons_cons] at hend
    rcases Option.or_eq_some_iff.mp h with hrest | ⟨hrest, hfirst⟩
    · obtain ⟨hx, hy⟩ := mem_of_next? hrest
      rw [fromEnd_cons_of_mem hx, fromEnd_cons_of_mem hy]
      exact ih hrest hend
    · rw [Option.ite_none_right_eq_some] at hfirst
      obtain ⟨rfl, hb⟩ := hfirst
      cases hb
      -- the first place of the node is its last one, since behind it nothing comes after the node
      have hx : x ∉ y :: rest := fun hx => hend (getLast?_of_next?_eq_none hx hrest)
      rw [fromEnd_cons_self hx, fromEnd_cons_of_mem (by simp)]
      exact fromEnd_lt_length (by simp)
  | case2 => cases h

end Row

/-! ### Reading -/

namespace ReadsAs

variable {next next' : Nat → Option Nat} {first : Option Nat} {nodes nodes' : List Nat}

/-- Only one list is read from a start. -/
theorem unique (h : ReadsAs next first nodes) (h' : ReadsAs next first nodes') :
    nodes = nodes' := by
  induction nodes generalizing first nodes' with
  | nil =>
    cases nodes' with
    | nil => rfl
    | cons node' nodes' => cases h.symm.trans h'.1
  | cons node nodes ih =>
    cases nodes' with
    | nil => cases h'.symm.trans h.1
    | cons node' nodes' =>
      cases h.1.symm.trans h'.1
      rw [ih h.2 h'.2]

/-- Only the links of the nodes that are met matter. -/
theorem congr (h : ReadsAs next first nodes) (heq : ∀ node ∈ nodes, next' node = next node) :
    ReadsAs next' first nodes := by
  induction nodes generalizing first with
  | nil => exact h
  | cons node nodes ih =>
    refine ⟨h.1, ?_⟩
    rw [heq node (by simp)]
    exact ih h.2 fun other hother => heq other (List.mem_cons_of_mem _ hother)

/-- A list is read along links that stay in it and lead down in `rank`, if the list itself goes down
and each of its nodes is the first one or linked to from the list. -/
theorem of_rank {rank : Nat → Nat} (hdown : nodes.Pairwise fun x y => rank y < rank x)
    (hfirst : ∀ node ∈ first, node ∈ nodes)
    (hnext : ∀ x ∈ nodes, ∀ y ∈ next x, y ∈ nodes ∧ rank y < rank x)
    (hlinked : ∀ y ∈ nodes, first = some y ∨ ∃ x ∈ nodes, next x = some y) :
    ReadsAs next first nodes := by
  -- the highest node is the first one; without it the rest of the list satisfies the same
  induction nodes generalizing first with
  | nil =>
    cases first with
    | none => rfl
    | some node => exact absurd (hfirst node rfl) List.not_mem_nil
  | cons node nodes ih =>
    obtain ⟨hhead, htail⟩ := List.pairwise_cons.mp hdown
    -- no link goes up to the highest node
    have hnode : ∀ x ∈ node :: nodes, next x ≠ some node := by
      intro x hx hlink
      have hlt := (hnext x hx node hlink).2
      rcases List.mem_cons.mp hx with rfl | hx
      · exact lt_irrefl _ hlt
      · exact lt_asymm hlt (hhead x hx)
    have hstart : first = some node :=
      (hlinked node (by simp)).resolve_right fun ⟨x, hx, hlink⟩ => hnode x hx hlink
    refine ⟨hstart, ih htail ?_ ?_ ?_⟩
    · intro y hlink
      obtain ⟨hy, hlt⟩ := hnext node (by simp) y hlink
      exact (List.mem_cons.mp hy).resolve_left fun heq => hnode node (by simp) (heq ▸ hlink)
    · intro x hx y hlink
      have hx := List.mem_cons_of_mem node hx
      obtain ⟨hy, hlt⟩ := hnext x hx y hlink
      exact ⟨(List.mem_cons.mp hy).resolve_left fun heq => hnode x hx (heq ▸ hlink), hlt⟩
    · intro y hy
      rcases hlinked y (List.mem_cons_of_mem _ hy) with heq | ⟨x, hx, hlink⟩
      · cases hstart.symm.trans heq
        exact absurd (hhead node hy) (lt_irrefl _)
      · rcases List.mem_cons.mp hx with rfl | hx
        · exact Or.inl hlink
        · exact Or.inr ⟨x, hx, hlink⟩

end ReadsAs

/-- A row without repetitions is read back along its own links. -/
theorem Row.readsAs_of_nodup {row : Row} (h : row.Nodup) : ReadsAs row.next? row.head? row := by
  match row, h with
  | [], _ => exact rfl
  | [a], _ => exact ⟨rfl, rfl⟩
  | a :: b :: rest, h =>
    obtain ⟨ha, hrest⟩ := List.nodup_cons.mp h
    refine ⟨rfl, ?_⟩
    have hnext : Row.next? (a :: b :: rest) a = some b := by
      have hnone : Row.next? (b :: rest) a = none :=
        Option.eq_none_iff_forall_ne_some.mpr fun y hy => ha (mem_of_next? hy).1
      rw [Row.next?, hnone, if_pos rfl, Option.none_or]
    rw [hnext]
    refine (Row.readsAs_of_nodup hrest).congr fun node hnode => ?_
    have hne : node ≠ a := fun heq => ha (heq ▸ hnode)
    rw [Row.next?, if_neg hne, Option.or_none]

/-! ### Several rows -/

/-- Of the rows, the later ones win. -/
theorem nextIn_append (rows more : List Row) (x : Nat) :
    nextIn (rows ++ more) x = (nextIn more x).or (nextIn rows x) := by
  induction rows with
  | nil => exact Option.or_none.symm
  | cons row rows ih => rw [List.cons_append, nextIn, ih, nextIn, Option.or_assoc]

/-- Rows link their own nodes only. -/
theorem mem_of_nextIn {rows : List Row} {x y : Nat} (h : nextIn rows x = some y) :
    x ∈ rows.flatten ∧ y ∈ rows.flatten := by
  induction rows with
  | nil => cases h
  | cons row rows ih =>
    rw [List.flatten_cons]
    rcases Option.or_eq_some_iff.mp h with hrows | ⟨-, hrow⟩
    · exact (ih hrows).imp (List.mem_append_right _) (List.mem_append_right _)
    · exact (Row.mem_of_next? hrow).imp (List.mem_append_left _) (List.mem_append_left _)

/-- Only ends of rows have nothing after them. -/
theorem mem_lasts_of_nextIn_eq_none {rows : List Row} {x : Nat} (hx : x ∈ rows.flatten)
    (h : nextIn rows x = none) : x ∈ rows.filterMap List.getLast? := by
  induction rows with
  | nil => cases hx
  | cons row rows ih =>
    obtain ⟨hrows, hrow⟩ := Option.or_eq_none_iff.mp h
    rw [List.flatten_cons, List.mem_append] at hx
    rcases hx with hx | hx
    · exact List.mem_filterMap.mpr ⟨row, by simp, Row.getLast?_of_next?_eq_none hx hrow⟩
    · obtain ⟨row', hrow', hlast⟩ := List.mem_filterMap.mp (ih hx hrows)
      exact List.mem_filterMap.mpr ⟨row', List.mem_cons_of_mem _ hrow', hlast⟩

/-- There are as many starts of rows as ends. -/
theorem length_heads_eq_length_lasts (rows : List Row) :
    (rows.filterMap List.head?).length = (rows.filterMap List.getLast?).length := by
  induction rows with
  | nil => rfl
  | cons row rows ih =>
    cases row with
    | nil => rw [List.filterMap_cons_none rfl, List.filterMap_cons_none rfl, ih]
    | cons a row => simp [List.getLast?_cons, ih]

/-- No node starts two rows, follows two nodes, or does both. -/
structure LinkedOnce (rows : List Row) : Prop where
  /-- Different rows have different starts. -/
  heads_nodup : (rows.filterMap List.head?).Nodup
  /-- No start of a row follows a node. -/
  next_ne_head : ∀ x, ∀ y ∈ rows.filterMap List.head?, nextIn rows x ≠ some y
  /-- No node follows two nodes. -/
  next_inj : ∀ x x' y, nextIn rows x = some y → nextIn rows x' = some y → x = x'

namespace LinkedOnce

variable {rows before later : List Row} {row : Row}

/-- Where all rows link each node once, the later ones do so too. -/
theorem of_append (h : LinkedOnce (before ++ later)) : LinkedOnce later := by
  have hnext : ∀ {x y}, nextIn later x = some y → nextIn (before ++ later) x = some y := by
    intro x y hxy
    rw [nextIn_append, hxy, Option.some_or]
  -- the links of the later rows are not undone by those before
  obtain ⟨hheads, hne, hinj⟩ := h
  rw [List.filterMap_append] at hheads hne
  exact ⟨(List.nodup_append.mp hheads).2.1,
    fun x y hy hxy => hne x y (List.mem_append_right _ hy) (hnext hxy),
    fun x x' y hxy hxy' => hinj x x' y (hnext hxy) (hnext hxy')⟩

/-! ### Counting -/

/-- The nodes that something comes after. -/
def linkedNodes (rows : List Row) : Finset Nat :=
  rows.flatten.toFinset.filter fun x => nextIn rows x ≠ none

/-- The nodes that nothing comes after. -/
def endNodes (rows : List Row) : Finset Nat :=
  rows.flatten.toFinset.filter fun x => nextIn rows x = none

/-- The nodes that come after a node. -/
def targetNodes (rows : List Row) : Finset Nat :=
  (linkedNodes rows).image fun x => (nextIn rows x).getD x

/-- A linked node has a next one. -/
theorem nextIn_of_mem_linkedNodes {x : Nat} (hx : x ∈ linkedNodes rows) :
    nextIn rows x = some ((nextIn rows x).getD x) := by
  obtain ⟨y, hy⟩ := Option.ne_none_iff_exists'.mp (Finset.mem_filter.mp hx).2
  rw [hy, Option.getD_some]

theorem card_endNodes_add_card_linkedNodes (rows : List Row) :
    (endNodes rows).card + (linkedNodes rows).card = rows.flatten.toFinset.card :=
  Finset.card_filter_add_card_filter_not fun x => nextIn rows x = none

/-- A node without a next one is the last one of some row. -/
theorem endNodes_subset_lasts (rows : List Row) :
    endNodes rows ⊆ (rows.filterMap List.getLast?).toFinset := by
  intro x hx
  obtain ⟨hmem, hnone⟩ := Finset.mem_filter.mp hx
  exact List.mem_toFinset.mpr (mem_lasts_of_nextIn_eq_none (List.mem_toFinset.mp hmem) hnone)

/-- Where each node is linked once, there are as many targets as linked nodes. -/
theorem card_targetNodes (h : LinkedOnce rows) :
    (targetNodes rows).card = (linkedNodes rows).card := by
  refine Finset.card_image_of_injOn fun x hx x' hx' heq => ?_
  refine h.next_inj x x' _ (nextIn_of_mem_linkedNodes hx) ?_
  exact (nextIn_of_mem_linkedNodes hx').trans (congrArg some heq.symm)

/-- Where each node is linked once, no row starts with a target. -/
theorem disjoint_targetNodes_heads (h : LinkedOnce rows) :
    Disjoint (targetNodes rows) (rows.filterMap List.head?).toFinset := by
  refine Finset.disjoint_left.mpr fun y hy hhead => ?_
  obtain ⟨x, hx, rfl⟩ := Finset.mem_image.mp hy
  exact h.next_ne_head x _ (List.mem_toFinset.mp hhead) (nextIn_of_mem_linkedNodes hx)

/-- Targets and first nodes are nodes of the rows. -/
theorem targetNodes_union_heads_subset (rows : List Row) :
    targetNodes rows ∪ (rows.filterMap List.head?).toFinset ⊆ rows.flatten.toFinset := by
  refine Finset.union_subset (fun y hy => ?_) fun y hy => ?_
  · obtain ⟨x, hx, rfl⟩ := Finset.mem_image.mp hy
    exact List.mem_toFinset.mpr (mem_of_nextIn (nextIn_of_mem_linkedNodes hx)).2
  · obtain ⟨row, hrow, hhead⟩ := List.mem_filterMap.mp (List.mem_toFinset.mp hy)
    exact List.mem_toFinset.mpr (List.mem_flatten.mpr ⟨row, hrow, List.mem_of_head? hhead⟩)

/-- Links and starts together are no more than the nodes, and the nodes without a link no more than
the ends of rows. There are as many ends as starts, so nothing is left over. -/
theorem saturated (h : LinkedOnce rows) :
    endNodes rows = (rows.filterMap List.getLast?).toFinset ∧
      targetNodes rows ∪ (rows.filterMap List.head?).toFinset = rows.flatten.toFinset := by
  -- nodes = without a link + with a link ≤ ends + links ≤ starts + links ≤ nodes
  have hsplit := card_endNodes_add_card_linkedNodes rows
  have hends := Finset.card_le_card (endNodes_subset_lasts rows)
  have hunion := Finset.card_le_card (targetNodes_union_heads_subset rows)
  have hlasts : (rows.filterMap List.getLast?).toFinset.card ≤
      (rows.filterMap List.head?).toFinset.card := by
    rw [List.toFinset_card_of_nodup h.heads_nodup, length_heads_eq_length_lasts]
    exact List.toFinset_card_le _
  have hparts : (targetNodes rows ∪ (rows.filterMap List.head?).toFinset).card =
      (linkedNodes rows).card + (rows.filterMap List.head?).toFinset.card := by
    rw [Finset.card_union_of_disjoint (disjoint_targetNodes_heads h), card_targetNodes h]
  exact ⟨Finset.eq_of_subset_of_card_le (endNodes_subset_lasts rows) (by omega),
    Finset.eq_of_subset_of_card_le (targetNodes_union_heads_subset rows) (by omega)⟩

/-- Nothing comes after the end of a row. -/
theorem next_last (h : LinkedOnce rows) {x : Nat} (hx : x ∈ rows.filterMap List.getLast?) :
    nextIn rows x = none := by
  rw [← List.mem_toFinset, ← h.saturated.1] at hx
  exact (Finset.mem_filter.mp hx).2

/-- Each node starts a row or comes after a node. -/
theorem head_or_next (h : LinkedOnce rows) {y : Nat} (hy : y ∈ rows.flatten) :
    y ∈ rows.filterMap List.head? ∨ ∃ x, nextIn rows x = some y := by
  rw [← List.mem_toFinset, ← h.saturated.2, Finset.mem_union] at hy
  rcases hy with hy | hy
  · obtain ⟨x, hx, rfl⟩ := Finset.mem_image.mp hy
    exact Or.inr ⟨x, nextIn_of_mem_linkedNodes hx⟩
  · exact Or.inl (List.mem_toFinset.mp hy)

/-! ### What is read -/

/-- The rows before change nothing for the nodes of the rows that follow. -/
theorem nextIn_of_mem (h : LinkedOnce (before ++ later)) {x : Nat} (hx : x ∈ later.flatten) :
    nextIn (before ++ later) x = nextIn later x := by
  cases hnext : nextIn later x with
  | some y => rw [nextIn_append, hnext, Option.some_or]
  | none =>
    refine h.next_last ?_
    rw [List.filterMap_append]
    exact List.mem_append_right _ (mem_lasts_of_nextIn_eq_none hx hnext)

/-- A node that a later row links to, or starts with, comes after no other node. -/
theorem mem_of_nextIn_of_mem (h : LinkedOnce (before ++ later)) {x y : Nat}
    (hnext : nextIn (before ++ later) x = some y) (hy : y ∈ later.flatten) :
    x ∈ later.flatten := by
  rcases h.of_append.head_or_next hy with hhead | ⟨x', hx'⟩
  -- the later rows account for the node already, so nothing else may link to it
  · refine absurd hnext (h.next_ne_head x y ?_)
    rw [List.filterMap_append]
    exact List.mem_append_right _ hhead
  · have hmem := (mem_of_nextIn hx').1
    rwa [h.next_inj x x' y hnext (by rw [h.nextIn_of_mem hmem, hx'])]

/-- A row alone decides on what comes after its nodes that no later row has. -/
theorem nextIn_eq_next? (h : LinkedOnce (before ++ row :: later)) {x : Nat} (hx : x ∈ row)
    (hlater : x ∉ later.flatten) : nextIn (before ++ row :: later) x = row.next? x := by
  rw [h.nextIn_of_mem (by rw [List.flatten_cons]; exact List.mem_append_left _ hx), nextIn,
    Option.eq_none_iff_forall_ne_some.mpr fun y hy => hlater (mem_of_nextIn hy).1, Option.none_or]

/-- The start of a row is in no later row. -/
theorem head_notMem_later (h : LinkedOnce (row :: later)) {x : Nat} (hx : row.head? = some x) :
    x ∉ later.flatten := by
  intro hmem
  have hheads := h.heads_nodup
  rw [List.filterMap_cons_some hx, List.nodup_cons] at hheads
  have hlater : LinkedOnce later := of_append (show LinkedOnce ([row] ++ later) from h)
  rcases hlater.head_or_next hmem with hhead | ⟨y, hy⟩
  · exact hheads.1 hhead
  · refine h.next_ne_head y x ?_ (by rw [nextIn, hy, Option.some_or])
    rw [List.filterMap_cons_some hx]
    exact List.mem_cons_self

/-- A node of a row that no later row has starts the row, or comes after such a node. -/
theorem head_or_next? (h : LinkedOnce (row :: later)) {y : Nat} (hy : y ∈ row)
    (hlater : y ∉ later.flatten) :
    row.head? = some y ∨ ∃ x ∈ row, x ∉ later.flatten ∧ row.next? x = some y := by
  rcases h.head_or_next (y := y) (by rw [List.flatten_cons]; exact List.mem_append_left _ hy) with
    hhead | ⟨x, hx⟩
  · obtain ⟨other, hother, hstart⟩ := List.mem_filterMap.mp hhead
    rcases List.mem_cons.mp hother with rfl | hother
    · exact Or.inl hstart
    · exact absurd (List.mem_flatten.mpr ⟨other, hother, List.mem_of_head? hstart⟩) hlater
  · rcases Option.or_eq_some_iff.mp hx with hmore | ⟨hnone, hrow⟩
    · exact absurd (mem_of_nextIn hmore).2 hlater
    · refine Or.inr ⟨x, (Row.mem_of_next? hrow).1, fun hmem => ?_, hrow⟩
      -- a later row has the node but puts nothing after it, so this row does not either
      have hsplit : LinkedOnce ([row] ++ later) := h
      have hsame := hsplit.nextIn_of_mem hmem
      rw [List.singleton_append, hx, hnone] at hsame
      cases hsame

/-- From the start of a row, the nodes of the row are read that no later row has, each in its last
place. -/
theorem readsAs_kept (h : LinkedOnce (before ++ row :: later)) :
    ReadsAs (nextIn (before ++ row :: later)) row.head? (row.kept later) := by
  have hcons : LinkedOnce (row :: later) := h.of_append
  have hsplit : LinkedOnce ((before ++ [row]) ++ later) := by
    rwa [List.append_cons] at h
  have hnext : ∀ {x}, x ∈ row.kept later → nextIn (before ++ row :: later) x = row.next? x :=
    fun hx => h.nextIn_eq_next? (Row.mem_kept.mp hx).1 (Row.mem_kept.mp hx).2
  refine ReadsAs.of_rank (row.pairwise_dedup_fromEnd.filter _) ?_ ?_ ?_
  · intro x hx
    exact Row.mem_kept.mpr ⟨List.mem_of_head? hx, hcons.head_notMem_later hx⟩
  · intro x hx y hy
    have hrow : row.next? x = some y := (hnext hx).symm.trans hy
    have hlater : y ∉ later.flatten := by
      rw [List.append_cons] at hy
      exact fun hmem => (Row.mem_kept.mp hx).2 (hsplit.mem_of_nextIn_of_mem hy hmem)
    refine ⟨Row.mem_kept.mpr ⟨(Row.mem_of_next? hrow).2, hlater⟩, Row.fromEnd_lt_of_next? hrow ?_⟩
    -- nothing would come after the node if it were the end of the row
    intro hend
    rw [h.next_last (List.mem_filterMap.mpr ⟨row, by simp, hend⟩)] at hy
    cases hy
  · intro y hy
    obtain ⟨hmem, hlater⟩ := Row.mem_kept.mp hy
    refine (hcons.head_or_next? hmem hlater).imp id fun ⟨x, hx, hxlater, hxy⟩ => ?_
    have hkept : x ∈ row.kept later := Row.mem_kept.mpr ⟨hx, hxlater⟩
    exact ⟨x, hkept, (hnext hkept).trans hxy⟩

/-- All of a row that names no node twice is kept. -/
theorem kept_eq_self_of_nodup (h : LinkedOnce (before ++ row :: later)) (hnodup : row.Nodup) :
    row.kept later = row := by
  -- both lists are read along the links of the row from its start
  refine ReadsAs.unique (h.readsAs_kept.congr fun x hx => ?_) (Row.readsAs_of_nodup hnodup)
  exact (h.nextIn_eq_next? (Row.mem_kept.mp hx).1 (Row.mem_kept.mp hx).2).symm

/-- A row is read back as it was given exactly if it names no node twice. -/
theorem readsAs_iff_nodup (h : LinkedOnce (before ++ row :: later)) :
    ReadsAs (nextIn (before ++ row :: later)) row.head? row ↔ row.Nodup := by
  constructor
  · intro hread
    rw [hread.unique h.readsAs_kept]
    exact (List.nodup_dedup row).filter _
  · intro hnodup
    have hread := h.readsAs_kept
    rwa [h.kept_eq_self_of_nodup hnodup] at hread

/-- A row that names no node twice shares no node with a later row. -/
theorem disjoint_later_of_nodup (h : LinkedOnce (before ++ row :: later)) (hnodup : row.Nodup) :
    row.Disjoint later.flatten := by
  intro x hx
  rw [← h.kept_eq_self_of_nodup hnodup] at hx
  exact (Row.mem_kept.mp hx).2

end LinkedOnce

end ArtCanvas
