import TaggedYaml.Token.Scan

/-!
# Columns — the open block collections of a lexer

Outside brackets the indentation and the levels of a lexer are told by the columns of the open block
collections and by whether a column is kept for the content of the innermost one (`Blocks`).  Here
stands what each operation on levels does to them.
-/

namespace TaggedYaml

/-- The column of the innermost block collection, -1 outside all of them. -/
def edge : List Nat → Int
  | [] => -1
  | c :: _ => c

/-- The levels of block collections at columns, innermost first. -/
def levelsOf : List Nat → List Level
  | [] => []
  | _ :: cols => ⟨edge cols, true⟩ :: levelsOf cols

/-- The columns of the block collections that text at a column does not end. -/
def colsAt (column : Int) (cols : List Nat) : List Nat := cols.dropWhile fun c : Nat => column < (c : Int)

/-- How many block collections end where text stands at a column. -/
def closedAt (column : Int) (cols : List Nat) : Nat :=
  (cols.takeWhile fun c : Nat => column < (c : Int)).length

@[simp] theorem edge_nil : edge [] = -1 := rfl

@[simp] theorem edge_cons (c : Nat) (cols : List Nat) : edge (c :: cols) = c := rfl

theorem edge_colsAt_le {column : Int} (h : -1 ≤ column) (cols : List Nat) :
    edge (colsAt column cols) ≤ column := by
  induction cols with
  | nil => exact h
  | cons c cols ih =>
    by_cases hc : column < (c : Int)
    · simpa [colsAt, hc] using ih
    · simp only [colsAt, hc, decide_false, Bool.false_eq_true, not_false_eq_true,
          List.dropWhile_cons_of_neg, edge_cons]
      omega

theorem colsAt_of_edge_le {column : Int} {cols : List Nat} (h : edge cols ≤ column) :
    colsAt column cols = cols ∧ closedAt column cols = 0 := by
  cases cols with
  | nil => exact ⟨rfl, rfl⟩
  | cons c cols =>
    have hc : ¬ column < (c : Int) := by simp only [edge_cons] at h; omega
    simp [colsAt, closedAt, hc]

theorem colsAt_neg_one (cols : List Nat) : colsAt (-1) cols = [] ∧ closedAt (-1) cols = cols.length := by
  induction cols with
  | nil => exact ⟨rfl, rfl⟩
  | cons c cols ih =>
    have hc : (-1 : Int) < (c : Int) := by omega
    simpa [colsAt, closedAt, hc] using ih

theorem unwind_levelsOf (column : Int) (cols : List Nat) :
    Lexer.unwind column (edge cols) (levelsOf cols) =
      (edge (colsAt column cols), levelsOf (colsAt column cols), closedAt column cols) := by
  induction cols with
  | nil => rfl
  | cons c cols ih =>
    simp only [edge_cons, levelsOf, Lexer.unwind]
    by_cases hc : column < (c : Int)
    · simp [hc, ih, colsAt, closedAt]
    · simp [hc, colsAt, closedAt, levelsOf]

namespace Lexer

/-- The block collections around a lexer outside brackets.  `loose`: a column is kept for the content
of the innermost one. -/
structure Blocks (l : Lexer) (cols : List Nat) (loose : Bool) : Prop where
  flat : l.flowDepth = 0
  indent_eq : l.indent = if loose then edge cols + 1 else edge cols
  levels_eq : l.levels = if loose then ⟨edge cols, false⟩ :: levelsOf cols else levelsOf cols
  ne_nil : loose = true → cols ≠ []

variable {l : Lexer} {cols : List Nat} {loose : Bool}

theorem Blocks.inFlow (h : l.Blocks cols loose) : l.inFlow = false := by
  simp [Lexer.inFlow, h.flat]

theorem Blocks.indent_le (h : l.Blocks cols loose) : l.indent ≤ edge cols + 1 := by
  rw [h.indent_eq]
  split <;> omega

/-- Where no block collection is open, nothing is indented. -/
theorem Blocks.indent_nonpos (h : l.Blocks cols loose) (hc : cols = []) : l.indent ≤ 0 := by
  have hle := h.indent_le
  rw [hc, edge_nil] at hle
  omega

/-- Text at a column ends the block collections further in. -/
theorem Blocks.close (h : l.Blocks cols loose) (column : Int) :
    ∃ i ls, l.closeBlocks column = { l with
        indent := i, levels := ls
        queue := l.queue ++ Array.replicate (closedAt column cols) ⟨l.mark, .blockEnd⟩ } ∧
      { l with indent := i, levels := ls }.Blocks (colsAt column cols)
        (loose && decide (edge cols < column)) := by
  rw [closeBlocks, if_neg (by simp [h.inFlow]), h.indent_eq, h.levels_eq]
  cases loose with
  | false =>
    simp only [Bool.false_eq_true, if_false, unwind_levelsOf, Bool.false_and]
    exact ⟨_, _, rfl, h.flat, by simp, by simp, by simp⟩
  | true =>
    simp only [if_true, unwind, unwind_levelsOf, Bool.true_and]
    by_cases hc : column < edge cols + 1
    · rw [if_pos hc, decide_eq_false (by omega)]
      exact ⟨_, _, rfl, h.flat, by simp, by simp, by simp⟩
    · obtain ⟨h1, h2⟩ := colsAt_of_edge_le (show edge cols ≤ column by omega)
      rw [if_neg hc, h1, h2, decide_eq_true (by omega)]
      exact ⟨_, _, rfl, h.flat, by simp, by simp, h.ne_nil⟩

/-- The columns kept for content are given up. -/
theorem Blocks.closeContent (h : l.Blocks cols loose) :
    ∃ i ls, l.closeContent = { l with indent := i, levels := ls } ∧
      { l with indent := i, levels := ls }.Blocks cols false := by
  have hls : unwindContent (edge cols) (levelsOf cols) = (edge cols, levelsOf cols) := by
    cases cols <;> simp [levelsOf, unwindContent]
  rw [Lexer.closeContent, h.indent_eq, h.levels_eq]
  refine ⟨_, _, rfl, h.flat, ?_, ?_, by simp⟩ <;> cases loose <;> simp [unwindContent, hls]

/-- A column is kept for content, if there is a block collection. -/
theorem Blocks.indentContent (h : l.Blocks cols loose) :
    ∃ i ls, l.indentContent = { l with indent := i, levels := ls } ∧
      { l with indent := i, levels := ls }.Blocks cols (loose || !cols.isEmpty) := by
  rw [Lexer.indentContent, h.inFlow]
  cases loose with
  | true =>
    refine ⟨l.indent, l.levels, if_neg ?_, h⟩
    simp [h.levels_eq]
  | false =>
    cases cols with
    | nil =>
      refine ⟨l.indent, l.levels, if_neg ?_, h⟩
      simp [h.levels_eq, levelsOf]
    | cons c cols =>
      refine ⟨l.indent + 1, ⟨l.indent, false⟩ :: l.levels, if_pos ?_, h.flat, ?_, ?_, by simp⟩
      · simp [h.levels_eq, levelsOf]
      · simp [h.indent_eq]
      · simp [h.levels_eq, h.indent_eq]

/-- The columns of the open block collections when one is to be open at a column. -/
def colsWith (column : Nat) (cols : List Nat) : List Nat :=
  if edge cols < column then column :: cols else cols

theorem colsWith_ne_nil (column : Nat) (cols : List Nat) : colsWith column cols ≠ [] := by
  rw [colsWith]
  split
  · exact List.cons_ne_nil column cols
  · rename_i h
    rintro rfl
    rw [edge_nil] at h
    omega

/-- The queue when the start of a block collection is put in its place. -/
def queueWith (l : Lexer) (before : Option Nat) (m : Mark) (t : Token) : Array (Marked Token) :=
  match before with
  | some n => (l.insert n m t).queue
  | none => (l.push m t).queue

/-- A block collection is opened where none is open, and its token is put where it belongs. -/
theorem Blocks.openBlock {column : Nat} (h : l.Blocks cols loose) (hc : edge cols ≤ column)
    (hl : loose = true → edge cols < column) (before : Option Nat) (t : Token) (m : Mark) :
    ∃ i ls, l.openBlock column before t m = { l with
        indent := i, levels := ls
        queue := if edge cols < column then l.queueWith before m t else l.queue } ∧
      { l with indent := i, levels := ls }.Blocks (colsWith column cols) false := by
  have hflow := h.inFlow
  obtain ⟨hflat, hi, hls, -⟩ := h
  obtain ⟨cursor, queue, sent, spots, indent, levels, depth, allowed, offset, braces, pair, done⟩ := l
  simp only at hflat hi hls
  by_cases hlt : edge cols < column
  · refine ⟨column, levelsOf (column :: cols), ?_, hflat, ?_, ?_, by simp⟩
    · have hle : edge cols + 1 ≤ column := by omega
      cases loose with
      | true =>
        simp only [if_true] at hi hls
        subst hi hls
        cases before <;> simp [Lexer.openBlock, hflow, hle, hlt, levelsOf, queueWith, insert, push]
      | false =>
        simp only [Bool.false_eq_true, if_false] at hi hls
        subst hi hls
        cases cols <;> cases before <;>
          simp_all [Lexer.openBlock, levelsOf, queueWith, insert, push]
    · rw [colsWith, if_pos hlt]
      rfl
    · rw [colsWith, if_pos hlt]
      rfl
  · cases loose with
    | true => exact absurd (hl rfl) hlt
    | false =>
      simp only [Bool.false_eq_true, if_false] at hi hls
      subst hi hls
      refine ⟨edge cols, levelsOf cols, ?_, hflat, ?_, ?_, by simp⟩
      · cases cols with
        | nil => simp only [edge_nil] at hlt; omega
        | cons c cols =>
          simp only [edge_cons, levelsOf] at hlt hflow ⊢
          simp only [Lexer.openBlock, hflow, hlt, Bool.false_eq_true, if_false]
      · rw [colsWith, if_neg hlt]
        rfl
      · rw [colsWith, if_neg hlt]
        rfl

end Lexer

end TaggedYaml
