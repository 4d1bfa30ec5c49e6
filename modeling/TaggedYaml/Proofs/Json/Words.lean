import TaggedYaml.Proofs.Json.Grammar
import TaggedYaml.Proofs.Scan.Ready
import TaggedYaml.Proofs.Shape.Events

/-!
# Words — JSON is read as words of flow collections

A scan over JSON text yields strings between double quotes and the brackets, commas and keys of flow
collections, however the text is spelled (`tokens_spells`).  Characters that are written as two escapes
are left out.
-/

namespace TaggedYaml

namespace Value

mutual

/-- The words of a value between brackets. -/
def flowWords : Value → List Token
  | text s => [.scalar .double s]
  | list items => .flowSequenceStart :: (commas (itemWords items) ++ [.flowSequenceEnd])
  | map entries => .flowMappingStart :: (commas (entryWords entries) ++ [.flowMappingEnd])

def itemWords : List Value → List (List Token)
  | [] => []
  | v :: rest => flowWords v :: itemWords rest

def entryWords : List (String × Value) → List (List Token)
  | [] => []
  | (k, v) :: rest => (.key :: .scalar .double k :: .value :: flowWords v) :: entryWords rest

end

mutual

/-- How many brackets are open at once at most. -/
def height : Value → Nat
  | text _ => 0
  | list items => itemsHeight items + 1
  | map entries => entriesHeight entries + 1

def itemsHeight : List Value → Nat
  | [] => 0
  | v :: rest => max (height v) (itemsHeight rest)

def entriesHeight : List (String × Value) → Nat
  | [] => 0
  | (_, v) :: rest => max (height v) (entriesHeight rest)

end

end Value

open Json Progress

theorem edge_nil_lt (column : Nat) : edge [] < (column : Int) := by
  rw [edge_nil]
  omega

/-! ### Strings -/

theorem Json.IsBlank.space {gap : List Char} (h : IsBlank gap) : IsSpace [] gap := by
  intro c hc
  refine ⟨?_, fun _ => rfl⟩
  rcases h c hc with rfl | rfl | rfl | rfl <;> rfl

/-- What a character is written as is read as that character, but for two escapes together. -/
theorem Json.SpellsChar.written {c : Char} {unit : List Char} (h : SpellsChar false c unit) :
    IsRaw c unit ∨ Ink '"' c unit := by
  cases h with
  | plain hge hq hb =>
    refine written_plainChar hq hb ?_
    simp only [isBreak, Bool.or_eq_false_iff, beq_eq_false_iff_ne]
    constructor <;> rintro rfl <;> exact absurd hge (by decide)
  | short h =>
    right
    simp only [shortEscapes, List.mem_cons, Prod.mk.injEq, List.not_mem_nil, or_false] at h
    rcases h with h | h | h | h | h | h | h | h <;> obtain ⟨rfl, rfl⟩ := h <;> exact ink_escape rfl rfl
  | code h =>
    right
    obtain ⟨a, b, d, e, w, x, y, z, rfl, ha, hb, hd, he, hn⟩ := code?_eq_some h
    exact ink_code ha hb hd he hn
  | pair hp => cases hp

theorem Json.SpellsString.written {s : String} {here : List Char} (h : SpellsString false s here) :
    ∃ units, Written '"' s.toList units ∧ here = '"' :: (units.flatten ++ ['"']) := by
  obtain ⟨units, hu, rfl⟩ := h
  exact ⟨units, hu.imp fun _ _ => SpellsChar.written, rfl⟩

/-! ### What comes next -/

/-- A text begins with space and then a token, behind a first member one that may follow a quote. -/
def Front (first : Bool) (text : List Char) : Prop :=
  ∃ gap t, text = gap ++ t ∧ IsSpace [] gap ∧ Solid t ∧
    (first = false → ∀ c ∈ t.head?, FollowsQuote true c)

/-- A scan stands before a text, or within the space at its beginning. -/
def Before (p : Progress) (text : List Char) : Prop :=
  ∃ gap t column, text = gap ++ t ∧ IsSpace [] gap ∧ Solid t ∧ p.lexer.cursor.Faces [] column t

/-- The words of members, those behind the first one with a comma before them. -/
def parted (first : Bool) : List (List Token) → List Token
  | [] => []
  | w :: rest => (if first then [] else [.flowEntry]) ++ (w ++ parted false rest)

theorem parted_false (ws : List (List Token)) : parted false ws = ws.flatMap (.flowEntry :: ·) := by
  induction ws with
  | nil => rfl
  | cons w rest ih => simp [parted, ih]

theorem parted_true (ws : List (List Token)) : parted true ws = commas ws := by
  cases ws with
  | nil => rfl
  | cons w rest => simp [parted, commas, parted_false]

section

variable {p : Progress} {ws : List Token} {r s : KeySpot} {n column : Nat} {loose braces first : Bool}
  {gap sep t y here there : List Char} {v : Value}

theorem Before.faces (h : Before p (gap ++ t)) (hg : IsSpace [] gap) (ht : Solid t) :
    ∃ column, p.lexer.cursor.Faces [] column t := by
  obtain ⟨gap', t', column, heq, hg', ht', hf⟩ := h
  obtain ⟨-, rfl⟩ := space_unique heq hg hg' ht ht'
  exact ⟨column, hf⟩

theorem Before.of_faces (hg : IsSpace [] gap) (ht : Solid t) (hf : p.lexer.cursor.Faces [] column t) :
    Before p (gap ++ t) :=
  ⟨gap, t, column, rfl, hg, ht, hf⟩

theorem solid_close (mapping : Bool) (y : List Char) : Solid (closeChar mapping :: y) :=
  Solid.cons (by cases mapping <;> decide) (by cases mapping <;> decide)

theorem Json.Spells.solid {pairs : Bool} (h : Spells pairs v here) (y : List Char) :
    Solid (here ++ y) := by
  obtain ⟨c, rest, rfl, rfl | rfl | rfl⟩ := h.head <;> exact Solid.cons (by decide) (by decide)

theorem Json.SpellsString.solid {pairs : Bool} {k : String} {key : List Char}
    (h : SpellsString pairs k key) (y : List Char) : Solid (key ++ y) := by
  obtain ⟨units, -, rfl⟩ := h
  exact Solid.cons (by decide) (by decide)

theorem front_separates (hs : Separates first sep) (ht : Solid t) : Front first (sep ++ t) := by
  cases first with
  | true => exact ⟨sep, t, rfl, IsBlank.space hs, ht, fun h => by cases h⟩
  | false =>
    obtain ⟨gap, gap', hg, -, rfl⟩ := hs
    refine ⟨gap, ',' :: (gap' ++ t), by simp, hg.space, Solid.cons (by decide) (by decide),
      fun _ c hc => ?_⟩
    obtain rfl : ',' = c := by simpa using hc
    simp [FollowsQuote]

theorem front_close (hg : IsBlank gap) (mapping first : Bool) (y : List Char) :
    Front first (gap ++ closeChar mapping :: y) := by
  refine ⟨gap, _, rfl, hg.space, solid_close mapping y, fun _ c hc => ?_⟩
  obtain rfl : closeChar mapping = c := by simpa using hc
  cases mapping <;> simp [FollowsQuote, closeChar]

theorem Json.SpellsItems.front {pairs : Bool} {items : List Value}
    (h : SpellsItems pairs first items there) (y : List Char) : Front first (there ++ y) := by
  cases h with
  | close hg => simpa [closeChar] using front_close hg false first y
  | item hs hv _ => simpa using front_separates hs (hv.solid _)

theorem Json.SpellsEntries.front {pairs : Bool} {entries : List (String × Value)}
    (h : SpellsEntries pairs first entries there) (y : List Char) : Front first (there ++ y) := by
  cases h with
  | close hg => simpa [closeChar] using front_close hg true first y
  | entry hs hk _ _ _ _ => simpa using front_separates hs (hk.solid _)

/-! ### Members -/

/-- What stands before a member is read, and a key may begin there. -/
theorem reads_separates (hs : Separates first sep) (hp : Inside p ws r n [] loose s braces)
    (hk : first = true → p.lexer.keyAllowed = true) (hb : Before p (sep ++ t)) (ht : Solid t) :
    Reads p fun q => ∃ r' column,
      Inside q (ws ++ if first then [] else [.flowEntry]) r' n [] loose s braces ∧
      q.lexer.cursor.Faces [] column t ∧ q.lexer.keyAllowed = true := by
  cases first with
  | true =>
    obtain ⟨column, hf⟩ := hb.faces (IsBlank.space hs) ht
    exact Reads.here ⟨r, column, by simpa using hp, hf, hk rfl⟩
  | false =>
    obtain ⟨gap, gap', hg, hg', rfl⟩ := hs
    rw [List.append_assoc, List.cons_append] at hb
    obtain ⟨column, hf⟩ := hb.faces hg.space (Solid.cons (by decide) (by decide))
    exact (hp.reads_comma hf (edge_nil_lt column) hg'.space ht).mono
      fun q ⟨r', hq, hfq, hkq⟩ => ⟨r', _, hq, hfq, hkq⟩

/-- A string that is a value. -/
theorem reads_string {k : String} (hk : SpellsString false k here)
    (hp : Inside p ws r n [] loose s braces) (hf : p.lexer.cursor.Faces [] column (here ++ y))
    (hy : Front false y) :
    Reads p fun q => ∃ r', Inside q (ws ++ [.scalar .double k]) r' n [] loose s braces ∧
      Before q y := by
  obtain ⟨units, hu, rfl⟩ := hk.written
  obtain ⟨gap, t, rfl, hg, ht, hnext⟩ := hy
  rw [List.cons_append, List.append_assoc, List.singleton_append] at hf
  refine (hp.reads_quoted hu hf (edge_nil_lt column) hg ht (hnext rfl)).mono
    fun q ⟨r', hq, hrest, hcol, _, _⟩ => ⟨r', ?_, .of_faces hg ht ⟨[], .nil, hrest, hcol⟩⟩
  simpa using hq

/-- A string that is a key, with the colon behind it. -/
theorem reads_key {k : String} {key gap' : List Char} (hk : SpellsString false k key)
    (hg : IsBlank gap) (hg' : IsBlank gap') (hv : Spells false v here)
    (hp : Inside p ws r n [] loose s true) (hallow : p.lexer.keyAllowed = true)
    (hf : p.lexer.cursor.Faces [] column (key ++ (gap ++ ':' :: (gap' ++ (here ++ y))))) :
    Reads p fun q => ∃ r' column,
      Inside q (ws ++ [.key, .scalar .double k, .value]) r' n [] loose s true ∧
      q.lexer.cursor.Faces [] column (here ++ y) := by
  obtain ⟨units, hu, rfl⟩ := hk.written
  rw [List.cons_append, List.append_assoc, List.singleton_append] at hf
  refine (hp.reads_quoted hu hf (edge_nil_lt column) hg.space (Solid.cons (by decide) (by decide))
    fun c hc => ?_).trans fun q ⟨r₁, hq, hrest, hcol, hoff, hkey⟩ => ?_
  · obtain rfl : ':' = c := by simpa using hc
    exact .inl rfl
  obtain ⟨hpos, hnum⟩ := hkey hallow
  -- a tab behind the colon stands before a quote, a bracket or a brace
  have htab : '\t' ∈ gap' → ∀ c ∈ (here ++ y).head?, c ≠ '-' ∧ isNameChar c = false := by
    obtain ⟨x, rest, rfl, hx⟩ := hv.head
    intro _ c hc
    obtain rfl : x = c := by simpa using hc
    rcases hx with rfl | rfl | rfl <;> decide
  refine (hq.reads_colon hpos hnum hrest hcol hoff (edge_nil_lt _) hg'.space (hv.solid y) htab).mono
    fun q' ⟨r₂, hq', hfq'⟩ => ⟨r₂, _, ?_, hfq'⟩
  simpa using hq'

/-- Members that are read inside brackets up to the closing one. -/
structure Members (n : Nat) (braces mapping : Bool) (there : List Char) (w : List Token) : Prop where
  front : ∀ y, Front true (there ++ y)
  read : ∀ {p : Progress} {ws : List Token} {r s : KeySpot} {loose : Bool} {y : List Char},
    Inside p ws r n [] loose s braces → p.lexer.keyAllowed = true → Before p (there ++ y) →
    Reads p fun q => ∃ r' column, Inside q (ws ++ w) r' n [] loose s braces ∧
      q.lexer.cursor.Faces [] column (closeChar mapping :: y)

variable {mapping : Bool} {w : List Token}

/-- Brackets inside others. -/
theorem reads_brackets (hm : Members (n + 1) (braces || mapping) mapping there w)
    (hn : n + 1 < Lexer.maxFlowDepth) (hp : Inside p ws r n [] loose s braces)
    (hf : p.lexer.cursor.Faces [] column (openChar mapping :: (there ++ y))) (hy : Front false y) :
    Reads p fun q => ∃ r',
      Inside q (ws ++ (openToken mapping :: (w ++ [closeToken mapping]))) r' n [] loose s braces ∧
      Before q y := by
  obtain ⟨gap, t, heq, hg, ht, -⟩ := hm.front y
  obtain ⟨gap', t', rfl, hg', ht', -⟩ := hy
  rw [heq] at hf
  refine (hp.reads_open mapping hn hf (edge_nil_lt column) hg ht).trans
    fun q ⟨r₁, hq, hfq, hk⟩ => ?_
  refine (hm.read hq hk ⟨gap, t, _, heq, hg, ht, hfq⟩).trans fun q' ⟨r₂, column₂, hq', hfq'⟩ => ?_
  refine (hq'.reads_close mapping (b := braces) (fun h => by simp [h]) hfq' (edge_nil_lt column₂)
    hg' ht').mono fun q'' ⟨r₃, hq'', hfq''⟩ => ⟨r₃, ?_, .of_faces hg' ht' hfq''⟩
  simpa using hq''

/-- Brackets that are a whole text. -/
theorem reads_outermost {keys : Bool} (hm : Members 0 mapping mapping there w)
    (hp : Ready p ws [] column keys (openChar mapping :: (there ++ gap))) (hg : IsSpace [] gap) :
    Reads p fun q => ∃ column keys,
      Ready q (ws ++ (openToken mapping :: (w ++ [closeToken mapping]))) [] column keys [] := by
  obtain ⟨gap₁, t, heq, hg₁, ht, -⟩ := hm.front gap
  rw [heq] at hp
  refine (hp.reads_open mapping (edge_nil_lt column) hg₁ ht).trans
    fun q ⟨r₁, loose, s, hq, hs, hfq, hk⟩ => ?_
  refine (hm.read hq hk ⟨gap₁, t, _, heq, hg₁, ht, hfq⟩).trans fun q' ⟨r₂, column₂, hq', hfq'⟩ => ?_
  refine (hq'.reads_close_last mapping gap [] hs (by simpa using hfq') (edge_nil_lt column₂) hg
    Solid.nil).mono fun q'' hq'' => ?_
  simp only [List.append_assoc, List.singleton_append] at hq''
  exact ⟨_, _, hq''⟩

end

/-! ### Values -/

mutual

/-- A value inside brackets is read, if it does not open too many. -/
theorem reads_spells : ∀ {v : Value} {here : List Char}, Spells false v here →
    ∀ {n : Nat}, v.height + n + 1 ≤ Lexer.maxFlowDepth →
    ∀ {p : Progress} {ws : List Token} {r s : KeySpot} {loose braces : Bool} {column : Nat}
      {y : List Char}, Inside p ws r n [] loose s braces →
      p.lexer.cursor.Faces [] column (here ++ y) → Front false y →
      Reads p fun q => ∃ r', Inside q (ws ++ v.flowWords) r' n [] loose s braces ∧ Before q y
  | _, _, .text h, _, _, _, _, _, _, _, _, _, _, hp, hf, hy => reads_string h hp hf hy
  | _, _, @Spells.list _ items there h, n, hn, p, ws, r, s, loose, braces, column, y, hp, hf, hy => by
    rw [Value.height] at hn
    have hm : Members (n + 1) (braces || false) false there (parted true (Value.itemWords items)) :=
      ⟨h.front, fun hp hk hb => reads_items h (by omega) hp (fun _ => hk) hb⟩
    rw [Value.flowWords, ← parted_true]
    exact reads_brackets hm (by omega) hp hf hy
  | _, _, @Spells.map _ entries there h, n, hn, p, ws, r, s, loose, braces, column, y, hp, hf, hy => by
    rw [Value.height] at hn
    have hm : Members (n + 1) (braces || true) true there (parted true (Value.entryWords entries)) := by
      rw [Bool.or_true]
      exact ⟨h.front, fun hp hk hb => reads_entries h (by omega) hp (fun _ => hk) hb⟩
    rw [Value.flowWords, ← parted_true]
    exact reads_brackets hm (by omega) hp hf hy

/-- Items are read up to the closing bracket. -/
theorem reads_items : ∀ {first : Bool} {items : List Value} {there : List Char},
    SpellsItems false first items there →
    ∀ {n : Nat}, Value.itemsHeight items + n + 1 ≤ Lexer.maxFlowDepth →
    ∀ {p : Progress} {ws : List Token} {r s : KeySpot} {loose braces : Bool} {y : List Char},
      Inside p ws r n [] loose s braces → (first = true → p.lexer.keyAllowed = true) →
      Before p (there ++ y) →
      Reads p fun q => ∃ r' column,
        Inside q (ws ++ parted first (Value.itemWords items)) r' n [] loose s braces ∧
        q.lexer.cursor.Faces [] column (closeChar false :: y)
  | first, _, _, @SpellsItems.close _ _ gap hg, n, _, p, ws, r, s, loose, braces, y, hp, _, hb => by
    rw [List.append_assoc] at hb
    obtain ⟨column, hf⟩ := hb.faces hg.space (solid_close false y)
    exact Reads.here ⟨r, column, by simpa [Value.itemWords, parted] using hp, hf⟩
  | first, _, _, @SpellsItems.item _ _ v rest sep here there hs hv hr, n, hn, p, ws, r, s, loose, braces,
      y, hp, hk, hb => by
    rw [Value.itemsHeight] at hn
    rw [List.append_assoc, List.append_assoc] at hb
    refine (reads_separates hs hp hk hb (hv.solid _)).trans fun q ⟨r₁, column₁, hq, hfq, _⟩ => ?_
    refine (reads_spells hv (by omega) hq hfq (hr.front y)).trans fun q' ⟨r₂, hq', hbq'⟩ => ?_
    refine (reads_items hr (by omega) hq' (fun h => by cases h) hbq').mono
      fun q'' ⟨r₃, column₃, hq'', hfq''⟩ => ⟨r₃, column₃, ?_, hfq''⟩
    simpa [Value.itemWords, parted] using hq''

/-- Entries are read up to the closing brace. -/
theorem reads_entries : ∀ {first : Bool} {entries : List (String × Value)} {there : List Char},
    SpellsEntries false first entries there →
    ∀ {n : Nat}, Value.entriesHeight entries + n + 1 ≤ Lexer.maxFlowDepth →
    ∀ {p : Progress} {ws : List Token} {r s : KeySpot} {loose : Bool} {y : List Char},
      Inside p ws r n [] loose s true → (first = true → p.lexer.keyAllowed = true) →
      Before p (there ++ y) →
      Reads p fun q => ∃ r' column,
        Inside q (ws ++ parted first (Value.entryWords entries)) r' n [] loose s true ∧
        q.lexer.cursor.Faces [] column (closeChar true :: y)
  | first, _, _, @SpellsEntries.close _ _ gap hg, n, _, p, ws, r, s, loose, y, hp, _, hb => by
    rw [List.append_assoc] at hb
    obtain ⟨column, hf⟩ := hb.faces hg.space (solid_close true y)
    exact Reads.here ⟨r, column, by simpa [Value.entryWords, parted] using hp, hf⟩
  | first, _, _, @SpellsEntries.entry _ _ k v rest sep key gap gap' here there hs hkey hg hg' hv hr, n,
      hn, p, ws, r, s, loose, y, hp, hk, hb => by
    rw [Value.entriesHeight] at hn
    simp only [List.append_assoc, List.cons_append] at hb
    refine (reads_separates hs hp hk hb (hkey.solid _)).trans
      fun q ⟨r₁, column₁, hq, hfq, hallow⟩ => ?_
    refine (reads_key hkey hg hg' hv hq hallow hfq).trans fun q₁ ⟨r₂, column₂, hq₁, hfq₁⟩ => ?_
    refine (reads_spells hv (by omega) hq₁ hfq₁ (hr.front y)).trans fun q₂ ⟨r₃, hq₂, hbq₂⟩ => ?_
    refine (reads_entries hr (by omega) hq₂ (fun h => by cases h) hbq₂).mono
      fun q₃ ⟨r₄, column₄, hq₃, hfq₃⟩ => ⟨r₄, column₄, ?_, hfq₃⟩
    simpa [Value.entryWords, parted] using hq₃

end

/-! ### Whole texts -/

theorem hexValue?_ne_nul {c : Char} {n : Nat} (h : hexValue? c = some n) : c ≠ '\x00' := by
  rintro rfl
  cases h

theorem nul_not_mem_code {ds : List Char} {n : Nat} (h : code? ds = some n) : '\x00' ∉ ds := by
  obtain ⟨a, b, c, d, w, x, y, z, rfl, ha, hb, hc, hd, -⟩ := code?_eq_some h
  simp only [List.mem_cons, List.not_mem_nil, or_false, not_or]
  exact ⟨(hexValue?_ne_nul ha).symm, (hexValue?_ne_nul hb).symm, (hexValue?_ne_nul hc).symm,
    (hexValue?_ne_nul hd).symm⟩

section

variable {pairs first : Bool}

theorem Json.SpellsChar.nul_not_mem {c : Char} {unit : List Char} (h : SpellsChar pairs c unit) :
    '\x00' ∉ unit := by
  cases h with
  | plain hge =>
    rw [List.mem_singleton]
    rintro rfl
    exact absurd hge (by decide)
  | short h =>
    simp only [shortEscapes, List.mem_cons, Prod.mk.injEq, List.not_mem_nil, or_false] at h
    rcases h with h | h | h | h | h | h | h | h <;> obtain ⟨rfl, -⟩ := h <;> decide
  | code h => simp [nul_not_mem_code h]
  | pair _ _ h h' => simp [nul_not_mem_code h, nul_not_mem_code h']

theorem Json.SpellsString.nul_not_mem {s : String} {here : List Char}
    (h : SpellsString pairs s here) : '\x00' ∉ here := by
  obtain ⟨units, hu, rfl⟩ := h
  have hflat : '\x00' ∉ units.flatten := by
    generalize s.toList = cs at hu
    induction hu with
    | nil => simp
    | cons hc _ ih => simp [hc.nul_not_mem, ih]
  simp [hflat]

theorem Json.IsBlank.nul_not_mem {gap : List Char} (h : IsBlank gap) : '\x00' ∉ gap := by
  intro hm
  rcases h _ hm with hc | hc | hc | hc <;> exact absurd hc (by decide)

theorem Json.Separates.nul_not_mem {sep : List Char} (h : Separates first sep) : '\x00' ∉ sep := by
  cases first with
  | true => exact IsBlank.nul_not_mem h
  | false =>
    obtain ⟨gap, gap', hg, hg', rfl⟩ := h
    simp [hg.nul_not_mem, hg'.nul_not_mem]

mutual

theorem nul_not_mem_spells : ∀ {v : Value} {here : List Char}, Spells pairs v here → '\x00' ∉ here
  | _, _, .text h => h.nul_not_mem
  | _, _, .list h => by simp [nul_not_mem_items h]
  | _, _, .map h => by simp [nul_not_mem_entries h]

theorem nul_not_mem_items : ∀ {first : Bool} {items : List Value} {there : List Char},
    SpellsItems pairs first items there → '\x00' ∉ there
  | _, _, _, .close hg => by simp [hg.nul_not_mem]
  | _, _, _, .item hs hv hr => by
    simp [hs.nul_not_mem, nul_not_mem_spells hv, nul_not_mem_items hr]

theorem nul_not_mem_entries : ∀ {first : Bool} {entries : List (String × Value)} {there : List Char},
    SpellsEntries pairs first entries there → '\x00' ∉ there
  | _, _, _, .close hg => by simp [hg.nul_not_mem]
  | _, _, _, .entry hs hk hg hg' hv hr => by
    simp [hs.nul_not_mem, hk.nul_not_mem, hg.nul_not_mem, hg'.nul_not_mem, nul_not_mem_spells hv,
      nul_not_mem_entries hr]

end

end

/-- JSON text is read as the words of its value, however it is spelled. -/
theorem tokens_spells {v : Value} {text : List Char} (h : SpellsText false v text)
    (hv : v.height ≤ Lexer.maxFlowDepth) :
    (scan text).tokens.map (·.item) = v.flowWords ++ [.textEnd] := by
  obtain ⟨gap, here, gap', hg, hhere, hg', rfl⟩ := h
  have hnul : '\x00' ∉ gap ++ (here ++ gap') := by
    simp [hg.nul_not_mem, nul_not_mem_spells hhere, hg'.nul_not_mem]
  have hstart := Ready.start gap (here ++ gap') rfl hnul hg.space
  have hread : Reads ⟨[], .ofList (gap ++ (here ++ gap'))⟩ fun q => ∃ column keys,
      Ready q v.flowWords [] column keys [] := by
    cases hhere with
    | text hs =>
      obtain ⟨units, hu, rfl⟩ := hs.written
      have hstart' : Ready ⟨[], .ofList (gap ++ (('"' :: (units.flatten ++ ['"'])) ++ gap'))⟩ [] []
          (columnAfter 0 gap) true ('"' :: (units.flatten ++ '"' :: (gap' ++ []))) := by
        simpa using hstart
      refine (Ready.reads_quoted .double hstart' (.inl rfl) (fun _ => rfl) hu (edge_nil_lt _)
        hg'.space Solid.nil (.inr rfl) fun hq => absurd hq (by decide)).mono fun q hq => ?_
      rw [List.nil_append, String.ofList_toList] at hq
      exact ⟨_, _, hq⟩
    | @list items there h =>
      rw [Value.height] at hv
      have hm : Members 0 false false there (parted true (Value.itemWords items)) :=
        ⟨h.front, fun hp hk hb => reads_items h (by omega) hp (fun _ => hk) hb⟩
      rw [Value.flowWords, ← parted_true]
      exact reads_outermost hm hstart hg'.space
    | @map entries there h =>
      rw [Value.height] at hv
      have hm : Members 0 true true there (parted true (Value.entryWords entries)) :=
        ⟨h.front, fun hp hk hb => reads_entries h (by omega) hp (fun _ => hk) hb⟩
      rw [Value.flowWords, ← parted_true]
      exact reads_outermost hm hstart hg'.space
  obtain ⟨q, hsteps, column, keys, hq⟩ := hread
  simpa using Reads.tokens ⟨q, hsteps, hq⟩

end TaggedYaml
