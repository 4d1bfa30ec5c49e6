import Mathlib.Data.List.DropRight
import TaggedYaml.Proofs.Json.Grammar
import TaggedYaml.Proofs.Shape.Face

/-!
# Forms — each form of a scalar is undone by its reading rule

The rules are stated on whole texts, apart from the scanner: between single quotes two quotes stand for
one (`readSingle?`), between double quotes a backslash and what follows it for a character
(`readDouble?`); the lines of a literal block lose the indentation of the first of them, and the breaks
at the end stay or go by the chomping indicator (`readLiteral?`).  What is written of any text gives the
text again (`forms_undone`).
-/

namespace TaggedYaml

/-! ### Single quotes -/

/-- What a text between single quotes stands for; a quote that is not doubled would end it. -/
def readSingle? : List Char → Option (List Char)
  | [] => some []
  | '\'' :: '\'' :: rest => (readSingle? rest).map ('\'' :: ·)
  | '\'' :: _ => none
  | c :: rest => (readSingle? rest).map (c :: ·)

theorem readSingle?_singleChar (c : Char) (rest : List Char) :
    readSingle? (singleChar c ++ rest) = (readSingle? rest).map (c :: ·) := by
  rw [singleChar]
  split
  · rename_i hc
    obtain rfl := eq_of_beq hc
    rfl
  · rename_i hc
    rw [List.singleton_append, readSingle?]
    · rintro _ rfl _
      exact hc rfl
    · rintro rfl
      exact hc rfl

theorem readSingle?_flatMap : ∀ s : List Char, readSingle? (s.flatMap singleChar) = some s
  | [] => rfl
  | c :: s => by
    rw [List.flatMap_cons, readSingle?_singleChar, readSingle?_flatMap s, Option.map_some]

theorem isBreak_singleQuote {s : List Char} (h : ∀ c ∈ s, isHidden c = false) :
    ∀ c ∈ singleQuote s, isBreak c = false := by
  intro c hc
  simp only [singleQuote, List.mem_cons, List.mem_append, List.mem_flatMap, List.not_mem_nil,
    or_false] at hc
  rcases hc with rfl | ⟨d, hd, hc⟩ | rfl
  · decide
  · obtain rfl := eq_of_mem_singleChar hc
    exact isBreak_of_not_isHidden (h _ hd)
  · decide

/-- What is written from a single quote on stands between single quotes. -/
theorem writeString_of_head {s : List Char} (h : (writeString s).head? = some '\'') :
    writeString s = singleQuote s ∧ ∀ c ∈ s, isHidden c = false := by
  unfold writeString at h ⊢
  split
  · rename_i hp
    rw [if_pos hp] at h
    obtain ⟨r, rfl⟩ := List.head?_eq_some_iff.mp h
    simp [isPlainText, plainStops] at hp
  · rename_i hp
    rw [if_neg hp] at h
    split
    · rename_i hh
      rw [if_pos hh] at h
      cases h
    · rename_i hh
      refine ⟨rfl, ?_⟩
      simpa using hh

/-! ### Double quotes -/

/-- The escapes of one letter: what stands behind the backslash, and what it stands for. -/
def letterEscapes : List (Char × Char) :=
  [('"', '"'), ('\\', '\\'), ('n', '\n'), ('t', '\t'), ('r', '\r'), ('0', '\x00')]

/-- What a text between double quotes stands for; a quote without a backslash would end it. -/
def readDouble? : List Char → Option (List Char)
  | [] => some []
  | '"' :: _ => none
  | '\\' :: 'u' :: a :: b :: c :: d :: rest => do
    return (← charOfCode? (← Json.code? [a, b, c, d])) :: (← readDouble? rest)
  | '\\' :: e :: rest => do return (← letterEscapes.lookup e) :: (← readDouble? rest)
  | ['\\'] => none
  | c :: rest => (readDouble? rest).map (c :: ·)

theorem readDouble?_letter {e c : Char} (he : letterEscapes.lookup e = some c) (hu : e ≠ 'u')
    (rest : List Char) :
    readDouble? ('\\' :: e :: rest) = (readDouble? rest).map (c :: ·) := by
  rw [readDouble?, he]
  · cases readDouble? rest <;> rfl
  · rintro _ _ _ _ _ rfl
    exact absurd rfl hu

theorem readDouble?_doubleChar (c : Char) (rest : List Char) :
    readDouble? (doubleChar c ++ rest) = (readDouble? rest).map (c :: ·) := by
  rcases doubleChar_cases c with hc | ⟨hcon, hc⟩ | ⟨-, hq, hb, hc⟩
  · simp only [List.mem_cons, List.not_mem_nil, or_false] at hc
    rcases hc with rfl | rfl | rfl | rfl | rfl | rfl <;>
      exact readDouble?_letter rfl (by decide) rest
  · have hcode := Json.code?_hexDigits true (lt_of_isControl hcon)
    rw [hc]
    simp only [Json.hexDigits] at hcode ⊢
    simp only [List.cons_append, List.nil_append, readDouble?, hcode, Option.bind_eq_bind,
      Option.bind_some, charOfCode?_toNat]
    cases readDouble? rest <;> rfl
  · rw [hc, List.singleton_append, readDouble?]
    · exact hq
    · rintro a b d e r rfl
      exact absurd rfl hb
    · rintro e r rfl
      exact absurd rfl hb
    · rintro rfl
      exact absurd rfl hb

theorem readDouble?_flatMap : ∀ s : List Char, readDouble? (s.flatMap doubleChar) = some s
  | [] => rfl
  | c :: s => by
    rw [List.flatMap_cons, readDouble?_doubleChar, readDouble?_flatMap s, Option.map_some]

theorem isControl_doubleQuote (s : List Char) : ∀ c ∈ doubleQuote s, isControl c = false := by
  intro c hc
  simp only [doubleQuote, List.mem_cons, List.mem_append, List.mem_flatMap, List.not_mem_nil,
    or_false] at hc
  rcases hc with rfl | ⟨d, -, hc⟩ | rfl
  · decide
  · exact isControl_doubleChar hc
  · decide

/-! ### Literal blocks -/

/-- The lines of a text without their breaks; behind the last break there is no line. -/
def linesOf : List Char → List (List Char)
  | [] => []
  | '\r' :: '\n' :: rest => [] :: linesOf rest
  | c :: rest =>
    if isBreak c then [] :: linesOf rest
    else
      match linesOf rest with
      | [] => [[c]]
      | line :: lines => (c :: line) :: lines

/-- A line that counts as empty where it is indented less than its neighbours. -/
def isSpaces (line : List Char) : Bool := line.all (· == ' ')

def leadingSpaces (line : List Char) : Nat := (line.takeWhile (· == ' ')).length

/-- The indentation of a block: that of the first line that is not empty, or the longest line. -/
def blockIndent (least : Nat) (lines : List (List Char)) : Nat :=
  match lines.find? (!isSpaces ·) with
  | some line => max least (leadingSpaces line)
  | none => (lines.map List.length).foldl max least

/-- The lines of a block without their indentation.  A line that is indented less ends the block. -/
def blockContent (indent : Nat) (lines : List (List Char)) : List (List Char) :=
  -- a line of spaces never ends a block, however short it is
  (lines.takeWhile fun line => isSpaces line || indent ≤ leadingSpaces line).map (·.drop indent)

/-- The text of the lines of a block by the chomping indicator. -/
def chomped (chomp : Chomp) (lines : List (List Char)) : List Char :=
  let text := (lines.rdropWhile List.isEmpty).flatMap (· ++ ['\n'])
  match chomp with
  | .strip => text.dropLast
  | .clip => text
  | .keep => lines.flatMap (· ++ ['\n'])

def literalHeader? : List Char → Option Chomp
  | ['|'] => some .clip
  | ['|', '-'] => some .strip
  | ['|', '+'] => some .keep
  | _ => none

/-- What a literal block stands for, from the line behind its header on; the block that it stands in
asks for at least the given indentation. -/
def readLiteral? (least : Nat) (header text : List Char) : Option (List Char) :=
  (literalHeader? header).map fun chomp =>
    chomped chomp (blockContent (blockIndent least (linesOf text)) (linesOf text))

/-- A text that ends a block: its first line, if there is one, is indented less. -/
def Outside (indent : Nat) (rest : List Char) : Prop :=
  ∀ line ∈ (linesOf rest).head?, isSpaces line = false ∧ leadingSpaces line < indent

instance (indent : Nat) (rest : List Char) : Decidable (Outside indent rest) :=
  inferInstanceAs (Decidable (∀ line ∈ (linesOf rest).head?, _))

/-! #### Lines as they are written -/

/-- A line of a block as it is written. -/
def indented (k : Nat) (line : List Char) : List Char := if line.isEmpty then [] else pad k ++ line

theorem linesOf_line (rest : List Char) : ∀ {line : List Char}, (∀ c ∈ line, isBreak c = false) →
    linesOf (line ++ '\n' :: rest) = line :: linesOf rest
  | [], _ => by
    rw [List.nil_append, linesOf]
    · rfl
    · intro r h
      cases h
  | c :: line, h => by
    have hc := h c (List.mem_cons_self ..)
    rw [List.cons_append, linesOf, linesOf_line rest fun d hd => h d (List.mem_cons_of_mem _ hd), hc]
    · rfl
    · rintro r rfl
      cases hc

variable {k : Nat}

theorem isBreak_indented {line : List Char} (h : ∀ c ∈ line, isBreak c = false) :
    ∀ c ∈ indented k line, isBreak c = false := by
  intro c hc
  rw [indented] at hc
  split at hc
  · cases hc
  · rcases List.mem_append.mp hc with hc | hc
    · obtain rfl := List.eq_of_mem_replicate hc
      decide
    · exact h c hc

theorem linesOf_rows (rest : List Char) : ∀ {lines : List (List Char)},
    (∀ line ∈ lines, ∀ c ∈ line, isBreak c = false) →
    linesOf (rows k lines ++ rest) = lines.map (indented k) ++ linesOf rest
  | [], _ => rfl
  | line :: lines, h => by
    have hrows : rows k (line :: lines) ++ rest =
        indented k line ++ '\n' :: (rows k lines ++ rest) := by
      simp [rows, indented]
    rw [hrows, linesOf_line _ (isBreak_indented (h line (List.mem_cons_self ..))),
      linesOf_rows rest fun l hl => h l (List.mem_cons_of_mem _ hl)]
    rfl

theorem leadingSpaces_pad (k : Nat) (line : List Char) :
    leadingSpaces (pad k ++ line) = k + leadingSpaces line := by
  have hpad : ∀ c ∈ pad k, (c == ' ') = true := fun c hc => by
    simpa using List.eq_of_mem_replicate hc
  rw [leadingSpaces, List.takeWhile_append_of_pos hpad, List.length_append, leadingSpaces, pad,
    List.length_replicate]

theorem drop_indented (k : Nat) (line : List Char) : (indented k line).drop k = line := by
  rw [indented]
  split
  · rename_i h
    rw [List.isEmpty_iff.mp h, List.drop_nil]
  · exact List.drop_left' (List.length_replicate ..)

theorem blockIndent_lines {least : Nat} (hk : least ≤ k) {x : Char} (hx : x ≠ ' ') (r : List Char)
    (lines : List (List Char)) : blockIndent least (indented k (x :: r) :: lines) = k := by
  -- a tab in front is text, so the line counts though it may hold blanks only
  have hline : indented k (x :: r) = pad k ++ x :: r := rfl
  have hsp : isSpaces (pad k ++ x :: r) = false := by simp [isSpaces, hx]
  have hzero : leadingSpaces (x :: r) = 0 := by simp [leadingSpaces, hx]
  rw [blockIndent, hline, List.find?_cons_of_pos (by simp [hsp])]
  simp only [leadingSpaces_pad, hzero, Nat.add_zero, Nat.max_eq_right hk]

theorem blockContent_lines (lines : List (List Char)) {rest : List Char} (h : Outside k rest) :
    blockContent k (lines.map (indented k) ++ linesOf rest) = lines := by
  have hin : ∀ line ∈ lines.map (indented k),
      (isSpaces line || decide (k ≤ leadingSpaces line)) = true := by
    intro line hline
    obtain ⟨l, -, rfl⟩ := List.mem_map.mp hline
    rw [indented]
    split
    · rfl
    · simp [leadingSpaces_pad]
  have hout : (linesOf rest).takeWhile
      (fun line => isSpaces line || decide (k ≤ leadingSpaces line)) = [] := by
    cases hr : linesOf rest with
    | nil => rfl
    | cons line others =>
      obtain ⟨hsp, hlt⟩ := h line (by rw [hr, List.head?_cons, Option.mem_some])
      rw [List.takeWhile_cons_of_neg]
      simp [hsp, hlt]
  rw [blockContent, List.takeWhile_append_of_pos hin, hout, List.append_nil, List.map_map]
  exact (List.map_congr_left fun line _ => drop_indented k line).trans (List.map_id _)

theorem flatMap_lines (line : List Char) : ∀ lines : List (List Char),
    (line :: lines).flatMap (· ++ ['\n']) = line ++ lines.flatMap ('\n' :: ·) ++ ['\n']
  | [] => by simp
  | next :: lines => by
    rw [List.flatMap_cons, flatMap_lines next lines]
    simp

/-- If a text does not end with a break, its last line is not empty. -/
theorem rdropWhile_lines {line : List Char} {lines : List (List Char)} (hne : line ≠ [])
    (hlast : (line ++ lines.flatMap ('\n' :: ·)).getLast? ≠ some '\n') :
    (line :: lines).rdropWhile List.isEmpty = line :: lines := by
  rw [List.rdropWhile_eq_self_iff]
  intro _ hempty
  rcases List.eq_nil_or_concat lines with rfl | ⟨others, last, rfl⟩
  · exact hne (List.isEmpty_iff.mp hempty)
  · obtain rfl : last = [] := by simpa using hempty
    exact hlast (by simp)

/-- The breaks at the end of a text are those that the chomping indicator leaves. -/
theorem chomped_lines {chomp : Chomp} {v line : List Char} {lines : List (List Char)}
    (hne : line ≠ []) (h : chomp.Leaves v (line ++ lines.flatMap ('\n' :: ·))) :
    chomped chomp (line :: lines) = v := by
  cases chomp with
  | strip =>
    obtain ⟨rfl, hlast⟩ := h
    simp only [chomped, rdropWhile_lines hne hlast, flatMap_lines, List.dropLast_concat]
  | clip =>
    obtain ⟨rfl, hlast⟩ := h
    simp only [chomped, rdropWhile_lines hne hlast, flatMap_lines]
  | keep =>
    obtain rfl := h
    exact flatMap_lines line lines

theorem literalHeader?_text (chomp : Chomp) : literalHeader? ('|' :: chomp.text) = some chomp := by
  cases chomp <;> rfl

/-- A literal block is read as the text of its node, at any indentation. -/
theorem readLiteral?_blockLines {n : Node} {header body rest : List Char}
    (h : n.literalBlock? = some (header, body)) {least : Nat} (hk : least ≤ k)
    (hrest : Outside k rest) :
    readLiteral? least header (blockLines k body ++ rest) = some n.value.toList := by
  obtain ⟨chomp, rfl, hleaves⟩ := leaves_of_literalBlock h
  obtain ⟨line, lines, hsplit, rfl, hshown, x, r, rfl, hx⟩ := lines_of_literalBlock h
  have hbreak : ∀ l ∈ (x :: r) :: lines, ∀ c ∈ l, isBreak c = false :=
    fun l hl c hc => isBreak_of_not_isHidden (hshown l hl c hc)
  rw [readLiteral?, literalHeader?_text, Option.map_some, blockLines_eq, hsplit,
    linesOf_rows rest hbreak]
  have hindent : blockIndent least (((x :: r) :: lines).map (indented k) ++ linesOf rest) = k :=
    blockIndent_lines hk hx r _
  rw [hindent, blockContent_lines _ hrest, chomped_lines (List.cons_ne_nil x r) hleaves]

/-! ### All forms -/

/-- Each form in which a text is written is undone by its reading rule, and it holds no character that
the form cannot hold: no break and no single quote alone between single quotes, no control character
and no quote without a backslash between double quotes.  A literal block is undone at any indentation
that the block around it admits, whatever stands behind it, if that is indented less. -/
theorem forms_undone (v : String) :
    ((writeString v.toList).head? = some '\'' →
      (∃ inner, writeString v.toList = '\'' :: (inner ++ ['\'']) ∧
        readSingle? inner = some v.toList) ∧
      ∀ c ∈ writeString v.toList, isBreak c = false) ∧
    ((∃ inner, doubleQuote v.toList = '"' :: (inner ++ ['"']) ∧
        readDouble? inner = some v.toList) ∧
      ∀ c ∈ doubleQuote v.toList, isControl c = false) ∧
    ∀ (n : Node) (header body : List Char), n.value = v → n.literalBlock? = some (header, body) →
      ∀ (k least : Nat) (rest : List Char), least ≤ k → Outside k rest →
        readLiteral? least header (blockLines k body ++ rest) = some v.toList := by
  refine ⟨fun h => ?_, ⟨?_, isControl_doubleQuote _⟩, ?_⟩
  · obtain ⟨hquote, hshown⟩ := writeString_of_head h
    rw [hquote]
    exact ⟨⟨_, rfl, readSingle?_flatMap _⟩, isBreak_singleQuote hshown⟩
  · exact ⟨_, rfl, readDouble?_flatMap _⟩
  · rintro n header body rfl h k least rest hk hrest
    exact readLiteral?_blockLines h hk hrest

/-- Quotes side by side, and a block with a tab in front, a line of blanks and empty lines at its end. -/
theorem forms_undone_quotes_and_blanks :
    (∃ inner, writeString "''it's ' \t'".toList = '\'' :: (inner ++ ['\'']) ∧
      readSingle? inner = some "''it's ' \t'".toList) ∧
    readLiteral? 3 ['|', '+'] (blockLines 4 "\ta\n\n \t\n".toList ++ "b: 1\n".toList) =
      some "\ta\n\n \t\n\n".toList :=
  ⟨((forms_undone _).1 (by decide)).1,
    (forms_undone "\ta\n\n \t\n\n").2.2 { kind := .scalar, value := "\ta\n\n \t\n\n" } _ _ rfl
      (by decide) 4 3 _ (by decide) (by decide)⟩

end TaggedYaml
