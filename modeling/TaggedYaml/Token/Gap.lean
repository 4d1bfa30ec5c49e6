import TaggedYaml.Fault

/-!
# Gap — what stands between two words of a scalar

Within a line the blanks between two words are kept.  Across lines the blanks around the breaks are
dropped, a single break is read as a space, and of several breaks the first is dropped.
-/

namespace TaggedYaml

/-- The blanks and breaks since the last word of a scalar. -/
structure Gap where
  /-- The blanks of the line the word is on, last first. -/
  blanks : List Char
  /-- The gap goes beyond that line. -/
  leading : Bool
  /-- The first break of the gap will be folded. -/
  folds : Bool
  /-- The number of breaks apart from that one. -/
  breaks : Nat
deriving DecidableEq, Repr

namespace Gap

/-- The gap behind a word. -/
def empty : Gap := ⟨[], false, false, 0⟩

/-- The gap behind a break that is written as an escape. -/
def escaped : Gap := ⟨[], true, false, 0⟩

def addBlank (g : Gap) (c : Char) : Gap :=
  if g.leading then g else { g with blanks := c :: g.blanks }

def addBreak (g : Gap) : Gap :=
  if g.leading then { g with breaks := g.breaks + 1 }
  else { g with blanks := [], leading := true, folds := true }

/-- What a gap is read as. -/
def text (g : Gap) : List Char :=
  if g.leading then
    if g.folds && g.breaks == 0 then [' '] else List.replicate g.breaks '\n'
  else g.blanks.reverse

/-! ### Readings -/

theorem text_empty : empty.text = [] := rfl

theorem text_addBlank {g : Gap} (h : g.leading = false) (c : Char) :
    (g.addBlank c).text = g.text ++ [c] := by
  simp [addBlank, text, h]

end Gap

end TaggedYaml
