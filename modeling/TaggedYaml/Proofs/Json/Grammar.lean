import Mathlib.Data.List.Forall2
import TaggedYaml.Proofs.Scan.Quoted
import TaggedYaml.Value.Json

/-!
# Grammar — JSON texts whose leaves are strings

`SpellsText` relates plain data to the JSON texts that say it, with any blanks between the tokens and
any escapes in the strings.  Entries are those of the text, so a key may come more than once.  A
character beyond U+FFFF may be written as two escapes only with `pairs`, for not every reader puts
them together.  What a value is written as, on one line or on several, is one of its texts
(`spellsText_compact`, `spellsText_pretty`).
-/

namespace TaggedYaml

namespace Json

/-- What may stand between two tokens. -/
def IsBlank (gap : List Char) : Prop := ∀ c ∈ gap, c = ' ' ∨ c = '\n' ∨ c = '\t' ∨ c = '\r'

theorem IsBlank.nil : IsBlank [] := fun _ hc => absurd hc List.not_mem_nil

/-- What stands before a member: blanks, and a comma unless the member is the first one. -/
def Separates (first : Bool) (sep : List Char) : Prop :=
  if first then IsBlank sep else ∃ gap gap', IsBlank gap ∧ IsBlank gap' ∧ sep = gap ++ ',' :: gap'

/-- The escapes of two characters: what stands behind the backslash, and what it stands for. -/
def shortEscapes : List (Char × Char) :=
  [('"', '"'), ('\\', '\\'), ('/', '/'), ('b', '\x08'), ('f', '\x0c'), ('n', '\n'), ('r', '\r'),
    ('t', '\t')]

/-- The number of four hexadecimal digits. -/
def code? : List Char → Option Nat
  | [a, b, c, d] => do
    return 16 * (16 * (16 * (← hexValue? a) + (← hexValue? b)) + (← hexValue? c)) + (← hexValue? d)
  | _ => none

/-- The ways to write a character in a string. -/
inductive SpellsChar (pairs : Bool) (c : Char) : List Char → Prop
  | plain (h : 0x20 ≤ c.toNat) (hq : c ≠ '"') (hb : c ≠ '\\') : SpellsChar pairs c [c]
  | short {e : Char} (h : (e, c) ∈ shortEscapes) : SpellsChar pairs c ['\\', e]
  | code {ds : List Char} (h : code? ds = some c.toNat) : SpellsChar pairs c ('\\' :: 'u' :: ds)
  | pair {ds ds' : List Char} (hp : pairs = true) (hc : 0x10000 ≤ c.toNat)
      (h : code? ds = some (0xD800 + (c.toNat - 0x10000) / 0x400))
      (h' : code? ds' = some (0xDC00 + (c.toNat - 0x10000) % 0x400)) :
      SpellsChar pairs c ('\\' :: 'u' :: (ds ++ '\\' :: 'u' :: ds'))

/-- The ways to write a string. -/
def SpellsString (pairs : Bool) (s : String) (text : List Char) : Prop :=
  ∃ units, List.Forall₂ (SpellsChar pairs) s.toList units ∧ text = '"' :: (units.flatten ++ ['"'])

mutual

/-- The ways to write plain data. -/
inductive Spells (pairs : Bool) : Value → List Char → Prop
  | text {s : String} {here : List Char} (h : SpellsString pairs s here) :
      Spells pairs (.text s) here
  | list {items : List Value} {there : List Char} (h : SpellsItems pairs true items there) :
      Spells pairs (.list items) ('[' :: there)
  | map {entries : List (String × Value)} {there : List Char}
      (h : SpellsEntries pairs true entries there) : Spells pairs (.map entries) ('\x7b' :: there)

/-- The ways to write items and the bracket behind them. -/
inductive SpellsItems (pairs : Bool) : Bool → List Value → List Char → Prop
  | close {first : Bool} {gap : List Char} (hg : IsBlank gap) :
      SpellsItems pairs first [] (gap ++ [']'])
  | item {first : Bool} {v : Value} {rest : List Value} {sep here there : List Char}
      (hs : Separates first sep) (hv : Spells pairs v here) (hr : SpellsItems pairs false rest there) :
      SpellsItems pairs first (v :: rest) (sep ++ (here ++ there))

/-- The ways to write entries and the brace behind them. -/
inductive SpellsEntries (pairs : Bool) : Bool → List (String × Value) → List Char → Prop
  | close {first : Bool} {gap : List Char} (hg : IsBlank gap) :
      SpellsEntries pairs first [] (gap ++ ['\x7d'])
  | entry {first : Bool} {k : String} {v : Value} {rest : List (String × Value)}
      {sep key gap gap' here there : List Char} (hs : Separates first sep)
      (hk : SpellsString pairs k key) (hg : IsBlank gap) (hg' : IsBlank gap')
      (hv : Spells pairs v here) (hr : SpellsEntries pairs false rest there) :
      SpellsEntries pairs first ((k, v) :: rest)
        (sep ++ (key ++ (gap ++ ':' :: (gap' ++ (here ++ there)))))

end

/-- The JSON texts of plain data. -/
def SpellsText (pairs : Bool) (v : Value) (text : List Char) : Prop :=
  ∃ gap here gap', IsBlank gap ∧ Spells pairs v here ∧ IsBlank gap' ∧ text = gap ++ (here ++ gap')

/-- A value begins with a quote, a bracket or a brace. -/
theorem Spells.head {pairs : Bool} {v : Value} {here : List Char} (h : Spells pairs v here) :
    ∃ c rest, here = c :: rest ∧ (c = '"' ∨ c = '[' ∨ c = '\x7b') := by
  cases h with
  | text h =>
    obtain ⟨units, -, rfl⟩ := h
    exact ⟨'"', _, rfl, .inl rfl⟩
  | list => exact ⟨'[', _, rfl, .inr (.inl rfl)⟩
  | map => exact ⟨'\x7b', _, rfl, .inr (.inr rfl)⟩

theorem code?_eq_some {ds : List Char} {n : Nat} (h : code? ds = some n) :
    ∃ a b c d w x y z, ds = [a, b, c, d] ∧ hexValue? a = some w ∧ hexValue? b = some x ∧
      hexValue? c = some y ∧ hexValue? d = some z ∧ n = 16 * (16 * (16 * w + x) + y) + z := by
  unfold code? at h
  split at h
  · rename_i a b c d
    obtain ⟨w, hw, h⟩ := Option.bind_eq_some_iff.mp h
    obtain ⟨x, hx, h⟩ := Option.bind_eq_some_iff.mp h
    obtain ⟨y, hy, h⟩ := Option.bind_eq_some_iff.mp h
    obtain ⟨z, hz, h⟩ := Option.bind_eq_some_iff.mp h
    exact ⟨a, b, c, d, w, x, y, z, rfl, hw, hx, hy, hz, (Option.some.inj h).symm⟩
  · cases h

/-! ### What is written -/

theorem code?_hexDigits (upper : Bool) {n : Nat} (h : n < 65536) :
    code? (hexDigits upper n) = some n := by
  have hdigit (k : Nat) := hexValue?_hexDigit upper (Nat.mod_lt k (by decide : 0 < 16))
  have hcode : 16 * (16 * (16 * (n / 4096 % 16) + n / 256 % 16) + n / 16 % 16) + n % 16 = n := by
    omega
  simp only [hexDigits, code?, hdigit, Option.bind_eq_bind, Option.bind_some]
  exact congrArg some hcode

theorem spellsChar_quoteChar (pairs : Bool) (c : Char) : SpellsChar pairs c (quoteChar c) := by
  unfold quoteChar
  split
  · exact .short (by decide)
  · exact .short (by decide)
  · exact .short (by decide)
  · exact .short (by decide)
  · exact .short (by decide)
  · exact .short (by decide)
  · exact .short (by decide)
  · rename_i hq hb _ _ _ _ _
    by_cases hc : c.toNat < 0x20
    · rw [if_pos hc]
      exact .code (code?_hexDigits false (by omega))
    · rw [if_neg hc]
      exact .plain (by omega) hq hb

theorem spellsString_quote (pairs : Bool) (s : String) : SpellsString pairs s (quote s) := by
  refine ⟨s.toList.map quoteChar, ?_, ?_⟩
  · rw [List.forall₂_map_right_iff, List.forall₂_same]
    exact fun c _ => spellsChar_quoteChar pairs c
  · rw [quote, List.flatMap_def]

theorem separates_comma (first : Bool) {gap : List Char} (hg : IsBlank gap) :
    Separates first ((if first then [] else [',']) ++ gap) := by
  cases first with
  | true => exact hg
  | false => exact ⟨[], gap, .nil, hg, rfl⟩

theorem isBlank_newLine (depth : Nat) : IsBlank (Value.newLine depth) := by
  intro c hc
  rw [Value.newLine, List.mem_cons, List.mem_replicate] at hc
  exact hc.elim (fun h => .inr (.inl h)) fun h => .inl h.2

mutual

theorem spells_compact (pairs : Bool) : ∀ v : Value, Spells pairs v v.compact
  | .text s => .text (spellsString_quote pairs s)
  | .list items => .list (spellsItems_compact pairs true items)
  | .map entries => .map (spellsEntries_compact pairs true entries)

theorem spellsItems_compact (pairs first : Bool) :
    ∀ items : List Value, SpellsItems pairs first items (Value.compactItems first items)
  | [] => .close .nil
  | v :: rest => by
    have hsep := separates_comma first .nil
    rw [List.append_nil] at hsep
    exact .item hsep (spells_compact pairs v) (spellsItems_compact pairs false rest)

theorem spellsEntries_compact (pairs first : Bool) : ∀ entries : List (String × Value),
    SpellsEntries pairs first entries (Value.compactEntries first entries)
  | [] => .close .nil
  | (k, v) :: rest => by
    have hsep := separates_comma first .nil
    rw [List.append_nil] at hsep
    exact .entry hsep (spellsString_quote pairs k) .nil .nil (spells_compact pairs v)
      (spellsEntries_compact pairs false rest)

end

mutual

theorem spells_pretty (pairs : Bool) : ∀ (depth : Nat) (v : Value), Spells pairs v (v.pretty depth)
  | _, .text s => .text (spellsString_quote pairs s)
  | _, .list [] => .list (.close .nil)
  | depth, .list (v :: rest) => .list (spellsItems_pretty pairs true depth (v :: rest))
  | _, .map [] => .map (.close .nil)
  | depth, .map (e :: rest) => .map (spellsEntries_pretty pairs true depth (e :: rest))

theorem spellsItems_pretty (pairs first : Bool) : ∀ (depth : Nat) (items : List Value),
    SpellsItems pairs first items (Value.prettyItems depth first items)
  | depth, [] => .close (isBlank_newLine depth)
  | depth, v :: rest => by
    rw [Value.prettyItems, ← List.append_assoc]
    exact .item (separates_comma first (isBlank_newLine (depth + 1)))
      (spells_pretty pairs (depth + 1) v) (spellsItems_pretty pairs false depth rest)

theorem spellsEntries_pretty (pairs first : Bool) :
    ∀ (depth : Nat) (entries : List (String × Value)),
      SpellsEntries pairs first entries (Value.prettyEntries depth first entries)
  | depth, [] => .close (isBlank_newLine depth)
  | depth, (k, v) :: rest => by
    have hspace : IsBlank [' '] := fun c hc => .inl (List.mem_singleton.mp hc)
    rw [Value.prettyEntries, ← List.append_assoc]
    exact .entry (separates_comma first (isBlank_newLine (depth + 1))) (spellsString_quote pairs k)
      .nil hspace (spells_pretty pairs (depth + 1) v) (spellsEntries_pretty pairs false depth rest)

end

theorem spellsText_of_spells {pairs : Bool} {v : Value} {here : List Char}
    (h : Spells pairs v here) : SpellsText pairs v here :=
  ⟨[], here, [], .nil, h, .nil, (List.append_nil _).symm⟩

/-- A value is written as one of its texts. -/
theorem spellsText_compact (pairs : Bool) (v : Value) : SpellsText pairs v v.compact :=
  spellsText_of_spells (spells_compact pairs v)

/-- So it is on several lines. -/
theorem spellsText_pretty (pairs : Bool) (v : Value) : SpellsText pairs v (v.pretty 0) :=
  spellsText_of_spells (spells_pretty pairs 0 v)

end Json

end TaggedYaml
