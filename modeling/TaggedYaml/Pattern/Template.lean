import TaggedYaml.Pattern.Match

/-!
# Template — what a match is replaced by

A template is text with references to groups: a dollar sign and the longest run of letters, digits
and underscores behind it, or whatever stands between braces.  Two dollar signs are one, and one
that begins no reference stands for itself.
-/

namespace TaggedYaml.Pattern

/-- A group, by its number or its name. -/
inductive Ref where
  | number (n : Nat)
  | name (s : String)
deriving DecidableEq, Repr

/-- Digits, with or without a plus sign, are a number; anything else is a name. -/
def Ref.ofText (s : List Char) : Ref :=
  let ds := if s.head? == some '+' then s.tail else s
  if !ds.isEmpty && ds.all Char.isDigit then
    .number (ds.foldl (fun n d => 10 * n + (d.toNat - '0'.toNat)) 0)
  else .name (String.ofList s)

/-- A part of a template. -/
inductive Piece where
  | char (c : Char)
  | ref (r : Ref)
deriving DecidableEq, Repr

def isRefChar (c : Char) : Bool := Unicode.isAsciiWord c.toNat

/-- The reference behind a dollar sign, and what follows it. -/
def readRef? (s : List Char) : Option (Ref × List Char) :=
  match s with
  | '\x7b' :: rest =>
    match rest.dropWhile (· != '\x7d') with
    | _ :: tail => some (.ofText (rest.takeWhile (· != '\x7d')), tail)
    | [] => none
  | _ =>
    match s.takeWhile isRefChar with
    | [] => none
    | name => some (.ofText name, s.dropWhile isRefChar)

theorem length_dropWhile_le (p : Char → Bool) (s : List Char) :
    (s.dropWhile p).length ≤ s.length :=
  (List.dropWhile_sublist p).length_le

theorem length_readRef? {s rest : List Char} {r : Ref} (h : readRef? s = some (r, rest)) :
    rest.length ≤ s.length := by
  unfold readRef? at h
  split at h
  · rename_i tail
    have := length_dropWhile_le (· != '\x7d') tail
    split at h
    · rename_i heq
      simp only [Option.some.injEq, Prod.mk.injEq] at h
      rw [heq] at this
      simp only [List.length_cons, ← h.2] at this ⊢
      omega
    · simp at h
  · split at h
    · simp at h
    · simp only [Option.some.injEq, Prod.mk.injEq] at h
      rw [← h.2]
      exact length_dropWhile_le _ _

/-- The parts of a template. -/
def readTemplate (s : List Char) : List Piece :=
  match s with
  | [] => []
  | '$' :: '$' :: rest => .char '$' :: readTemplate rest
  | '$' :: rest =>
    match _h : readRef? rest with
    | some (r, tail) => .ref r :: readTemplate tail
    | none => .char '$' :: readTemplate rest
  | c :: rest => .char c :: readTemplate rest
termination_by s.length
decreasing_by
  · simp only [List.length_cons]
    omega
  · have := length_readRef? ‹_›
    simp only [List.length_cons]
    omega
  · simp
  · simp

/-- What a group of a match matched; number 0 is the whole match. -/
def Match.groupText (m : Match) (r : Ref) : List Char :=
  match r with
  | .number 0 => m.text
  | .number n => ((m.stop.groups.find? (·.index == n)).map (·.text)).getD []
  | .name s => ((m.stop.groups.find? (·.name == some s)).map (·.text)).getD []

/-- A template with the texts of a match in it. -/
def Match.expand (m : Match) (template : List Piece) : List Char :=
  template.flatMap fun
    | .char c => [c]
    | .ref r => m.groupText r

/-- Rounds of `replaceAll`, each over a match or a character.  Directly behind a match, where
`behind` is true, an empty match does not count. -/
def replaceFrom (p : Pattern) (template : List Piece) (rounds : Nat) :
    Nat → Bool → Option Char → Nat → List Char → List Char
  | 0, _, _, _, text => text
  | fuel + 1, behind, before, offset, text =>
    match p.search rounds before offset text with
    | none => text
    | some m =>
      if behind && m.skipped.isEmpty && m.text.isEmpty then
        match text with
        | [] => []
        | c :: rest => c :: replaceFrom p template rounds fuel false (some c) (offset + 1) rest
      else
        m.skipped ++ (m.expand template ++
          replaceFrom p template rounds fuel true m.stop.before m.stop.offset m.stop.rest)

/-- Replaces all matches that do not overlap, from left to right. -/
def replaceAll (p : Pattern) (template : String) (text : String) : String :=
  let text := text.toList
  String.ofList <|
    replaceFrom p (readTemplate template.toList) (roundsIn text) (2 * text.length + 2) false none 0
      text

end TaggedYaml.Pattern
