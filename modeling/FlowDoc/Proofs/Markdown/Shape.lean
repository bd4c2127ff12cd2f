import FlowDoc.Format.Registry
import FlowDoc.Markdown.ToDocument
import FlowDoc.Proofs.Render.Failure

/-!
# The shape of syntax trees

In a tree of the right shape lists hold items, tables hold rows, and lists start at numbers of nine digits at most.
Whatever else is in it, such a tree becomes a document, and none of that document's nodes has a fault
(`exists_toDocument`), so it can be written in every format.
-/

namespace FlowDoc.Markdown

open Render

/-! ## Shape -/

/-- The largest number that a list may start at. -/
def largestStart : Nat := 999999999

namespace NodeKind

/-- Whether the number of a list is one that may be written. -/
def startFits : NodeKind → Bool
  | list start => start.all (· ≤ largestStart)
  | _ => true

/-- Whether a node may hold another, by their kinds. -/
def mayHold : NodeKind → NodeKind → Bool
  | list _, .item | list _, .task _ => true
  | list _, _ => false
  | table _, .row _ => true
  | table _, _ => false
  | _, _ => true

end NodeKind

mutual

/-- Whether a condition on kinds and children holds of a node and of all nodes in it. -/
def Node.all (p : NodeKind → List Node → Bool) : Node → Bool
  | .mk kind children => p kind children && allNodes p children

def allNodes (p : NodeKind → List Node → Bool) : List Node → Bool
  | [] => true
  | n :: ns => n.all p && allNodes p ns

end

/-- The shape at one node. -/
def isShapedAt (kind : NodeKind) (children : List Node) : Bool :=
  kind.startFits && children.all (kind.mayHold ·.kind)

/-- **The shape of a tree.** -/
def Node.isWellShaped (n : Node) : Bool := n.all isShapedAt

section Everywhere

variable {p : NodeKind → List Node → Bool}

theorem all_mk {kind : NodeKind} {children : List Node} :
    (Node.mk kind children).all p = true ↔ p kind children = true ∧ allNodes p children = true := by
  rw [Node.all, Bool.and_eq_true]

theorem allNodes_cons {n : Node} {ns : List Node} :
    allNodes p (n :: ns) = true ↔ n.all p = true ∧ allNodes p ns = true := by
  rw [allNodes, Bool.and_eq_true]

theorem allNodes_iff {ns : List Node} : allNodes p ns = true ↔ ∀ n ∈ ns, n.all p = true := by
  induction ns with
  | nil => simp [allNodes]
  | cons n ns ih => simp [allNodes, ih]

end Everywhere

theorem isWellShaped_mk_iff {kind : NodeKind} {children : List Node} :
    (Node.mk kind children).isWellShaped = true ↔
      (kind.startFits = true ∧ children.all (kind.mayHold ·.kind) = true) ∧ allNodes isShapedAt children = true := by
  rw [Node.isWellShaped, all_mk, isShapedAt, Bool.and_eq_true]

/-! ## Nodes without faults -/

/-- That no node has a fault, however values are taken. -/
def Faultless (visits : List Visit) : Prop := ∀ mode, firstFault mode visits = none

theorem faultless_nil : Faultless [] := fun _ => rfl

variable {v : Visit} {vs vs' : List Visit}

theorem Faultless.cons (hv : ∀ mode, v.fault mode = none) (h : Faultless vs) : Faultless (v :: vs) := fun mode => by
  rw [firstFault_cons, hv mode, h mode, Option.or_none]

theorem Faultless.append (h : Faultless vs) (h' : Faultless vs') : Faultless (vs ++ vs') := fun mode => by
  rw [firstFault_append, h mode, h' mode, Option.or_none]

theorem visitsInlines_append (is js : List FlowDoc.Inline) :
    visitsInlines (is ++ js) = visitsInlines is ++ visitsInlines js := by
  induction is with
  | nil => rfl
  | cons i is ih => simp [visitsInlines, ih]

theorem visitsBlocks_append (bs cs : List FlowDoc.Block) :
    visitsBlocks (bs ++ cs) = visitsBlocks bs ++ visitsBlocks cs := by
  induction bs with
  | nil => rfl
  | cons b bs ih => simp [visitsBlocks, ih]

/-- A number that fits 32 bits can be written. -/
theorem numberFault_eq_none {mode : Xaml.ValueMode} {member : String} {n : Nat} (h : n ≤ 2147483647) :
    numberFault mode member n = none := if_neg fun ⟨_, large⟩ => by omega

/-! ## Inlines -/

/-- Whichever shape a link takes. -/
theorem faultless_linkNode (target : Target) (shown : String) {children : List FlowDoc.Inline}
    (h : Faultless (visitsInlines children)) : Faultless (visitsInline (linkNode target shown children)) := by
  rw [linkNode]
  split
  · exact .cons (fun _ => rfl) faultless_nil
  · split
    · exact .cons (fun _ => rfl) faultless_nil
    · exact .cons (fun _ => rfl) h

mutual

/-- **Inlines have no faults**: none is custom. -/
theorem faultless_toInline? : ∀ n : Node, Faultless (visitsInlines n.toInline?.toList)
  | .mk kind children => by
    have inner := faultless_toInlines children
    have one : ∀ {i : FlowDoc.Inline}, Faultless (visitsInline i) → Faultless (visitsInlines [i]) :=
      fun h => h.append faultless_nil
    cases kind with
    | text s => exact one (.cons (fun _ => rfl) faultless_nil)
    | softBreak => exact one (.cons (fun _ => rfl) faultless_nil)
    | hardBreak => exact one (.cons (fun _ => rfl) faultless_nil)
    | code s => exact one (.cons (fun _ => rfl) faultless_nil)
    | html s => exact one (.cons (fun _ => rfl) faultless_nil)
    | styled style => exact one (.cons (fun _ => rfl) inner)
    | link target => exact one (faultless_linkNode target _ inner)
    | image target => exact one (.cons (fun _ => rfl) faultless_nil)
    | _ => exact faultless_nil

theorem faultless_toInlines : ∀ ns : List Node, Faultless (visitsInlines (toInlines ns))
  | [] => faultless_nil
  | n :: ns => by
    rw [toInlines, visitsInlines_append]
    exact (faultless_toInline? n).append (faultless_toInlines ns)

end

/-! ## Blocks -/

theorem faultless_paragraph {inlines : List FlowDoc.Inline} (h : Faultless (visitsInlines inlines)) :
    Faultless (visitsBlock (.paragraph inlines)) := .cons (fun _ => rfl) h

/-- The blocks of a cell. -/
theorem faultless_cellBlocks {inlines : List FlowDoc.Inline} (h : Faultless (visitsInlines inlines)) :
    Faultless (visitsBlocks (cellBlocks inlines)) := by
  rw [cellBlocks]
  split
  · exact faultless_nil
  · exact (faultless_paragraph h).append faultless_nil

theorem faultless_cells (cells : List Node) : Faultless (visitsCells
    (cells.map fun cell => ({ blocks := cellBlocks (toInlines cell.children) } : Cell FlowDoc.Block))) := by
  induction cells with
  | nil => exact faultless_nil
  | cons cell cells ih =>
    have spans : ∀ (mode : Xaml.ValueMode) (blocks : List FlowDoc.Block),
        Visit.fault mode (.cell ({ blocks } : Cell FlowDoc.Block)) = none := fun mode blocks => by
      rw [Visit.fault, numberFault_eq_none (n := 1) (by decide), numberFault_eq_none (n := 1) (by decide),
        Option.or_none]
    exact (Faultless.cons (fun mode => spans mode _) (faultless_cellBlocks (faultless_toInlines _))).append ih

/-- The rows of a table. -/
theorem exists_rows (children : List Node) (alignments : List (Option ColumnAlignment))
    (h : children.all (fun n => (NodeKind.table alignments).mayHold n.kind) = true) :
    ∃ rows, children.mapM Node.toRow = .ok rows ∧ Faultless (visitsRows rows) := by
  induction children with
  | nil => exact ⟨[], rfl, faultless_nil⟩
  | cons n ns ih =>
    obtain ⟨held, rest⟩ : (NodeKind.table alignments).mayHold n.kind = true ∧ _ := by simpa using h
    obtain ⟨rows, hrows, faultless⟩ := ih (by simpa using rest)
    obtain ⟨kind, cells⟩ := n
    cases kind with
    | row isHeader =>
      refine ⟨⟨isHeader, _⟩ :: rows, ?_, (faultless_cells cells).append faultless⟩
      rw [List.mapM_cons, hrows]
      rfl
    | _ => cases held

/-- The marker of a task is a node of its own, in a paragraph that there was or a new one. -/
theorem faultless_addMarker (checked : Bool) {blocks : List FlowDoc.Block} (h : Faultless (visitsBlocks blocks)) :
    Faultless (visitsBlocks (addMarker checked blocks)) := by
  have marker : Faultless (visitsInlines [.task checked]) := .cons (fun _ => rfl) faultless_nil
  have fresh : Faultless (visitsBlocks (.paragraph [.task checked] :: blocks)) :=
    (faultless_paragraph marker).append h
  unfold addMarker
  split
  · next inlines blocks =>
    intro mode
    have all := h mode
    simp only [visitsBlocks, visitsBlock, List.cons_append, firstFault_cons] at all
    simp only [visitsBlocks, visitsBlock, visitsInlines, visitsInline, List.cons_append, firstFault_cons]
    exact all
  · exact fresh

mutual

/-- **Blocks have no faults**, and nothing in the shape of a tree keeps it from becoming blocks. -/
theorem exists_toBlock? : ∀ n : Node, n.isWellShaped = true →
    ∃ block?, n.toBlock? = .ok block? ∧ Faultless (visitsBlocks block?.toList)
  | .mk kind children, h => by
    obtain ⟨⟨starts, held⟩, shaped⟩ := isWellShaped_mk_iff.mp h
    have inner := faultless_toInlines children
    have one : ∀ {b : FlowDoc.Block}, Faultless (visitsBlock b) → Faultless (visitsBlocks [b]) :=
      fun h => h.append faultless_nil
    cases kind with
    | paragraph => exact ⟨_, rfl, one (faultless_paragraph inner)⟩
    | heading level => exact ⟨_, rfl, one (.cons (fun _ => rfl) inner)⟩
    | codeBlock info literal => exact ⟨_, rfl, one (.cons (fun _ => rfl) faultless_nil)⟩
    | htmlBlock literal => exact ⟨_, rfl, one (.cons (fun _ => rfl) faultless_nil)⟩
    | thematicBreak => exact ⟨_, rfl, one (.cons (fun _ => rfl) faultless_nil)⟩
    | quote =>
      obtain ⟨blocks, hblocks, faultless⟩ := exists_toBlocks children shaped
      refine ⟨some (.quote blocks), by rw [Node.toBlock?, hblocks]; rfl, one (.cons (fun _ => rfl) faultless)⟩
    | list start =>
      obtain ⟨items, hitems, faultless⟩ := exists_toItems children start held shaped
      refine ⟨some (.list start.isSome (start.map (min · startLimit)) items),
        by rw [Node.toBlock?, hitems]; rfl, one (Faultless.cons (fun mode => ?_) faultless)⟩
      cases start with
      | none => rfl
      | some n =>
        have small : n ≤ largestStart := by simpa [NodeKind.startFits] using starts
        exact numberFault_eq_none ((Nat.min_le_left _ _).trans (small.trans (by decide)))
    | table alignments =>
      obtain ⟨rows, hrows, faultless⟩ := exists_rows children alignments held
      exact ⟨some (.table (alignments.map fun a => ⟨Binary64.zero, a⟩) rows),
        by rw [Node.toBlock?, hrows]; rfl, one (Faultless.cons (fun _ => rfl) faultless)⟩
    | _ => exact ⟨none, rfl, faultless_nil⟩

theorem exists_toBlocks : ∀ ns : List Node, allNodes isShapedAt ns = true →
    ∃ blocks, toBlocks ns = .ok blocks ∧ Faultless (visitsBlocks blocks)
  | [], _ => ⟨[], rfl, faultless_nil⟩
  | n :: ns, h => by
    obtain ⟨first, rest⟩ := allNodes_cons.mp h
    obtain ⟨block?, hblock, faultless⟩ := exists_toBlock? n first
    obtain ⟨blocks, hblocks, faultless'⟩ := exists_toBlocks ns rest
    refine ⟨block?.toList ++ blocks, by rw [toBlocks, hblock, hblocks]; rfl, ?_⟩
    rw [visitsBlocks_append]
    exact faultless.append faultless'

/-- The blocks of an item. -/
theorem exists_toItem : ∀ (n : Node) (start : Option Nat), (NodeKind.list start).mayHold n.kind = true →
    n.isWellShaped = true → ∃ blocks, n.toItem = .ok blocks ∧ Faultless (visitsBlocks blocks)
  | .mk kind children, _, held, h => by
    obtain ⟨blocks, hblocks, faultless⟩ := exists_toBlocks children (isWellShaped_mk_iff.mp h).2
    cases kind with
    | item => exact ⟨blocks, hblocks, faultless⟩
    | task checked => exact ⟨_, by rw [Node.toItem, hblocks]; rfl, faultless_addMarker checked faultless⟩
    | _ => cases held

theorem exists_toItems : ∀ (ns : List Node) (start : Option Nat),
    ns.all (fun n => (NodeKind.list start).mayHold n.kind) = true → allNodes isShapedAt ns = true →
      ∃ items, toItems ns = .ok items ∧ Faultless (visitsItems items)
  | [], _, _, _ => ⟨[], rfl, faultless_nil⟩
  | n :: ns, start, held, h => by
    obtain ⟨first, rest⟩ := allNodes_cons.mp h
    rw [List.all_cons, Bool.and_eq_true] at held
    obtain ⟨item, hitem, faultless⟩ := exists_toItem n start held.1 first
    obtain ⟨items, hitems, faultless'⟩ := exists_toItems ns start held.2 rest
    exact ⟨item :: items, by rw [toItems, hitem, hitems]; rfl, faultless.append faultless'⟩

end

/-- **Trees of the right shape are documents** without faults. -/
theorem exists_toDocument {n : Node} (h : n.isWellShaped = true) :
    ∃ d, n.toDocument = .ok d ∧ ∀ mode, documentFault mode d = none := by
  obtain ⟨kind, children⟩ := n
  exact exists_toBlocks children (isWellShaped_mk_iff.mp h).2

end FlowDoc.Markdown
