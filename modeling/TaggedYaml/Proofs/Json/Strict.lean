import TaggedYaml.Json.Data
import TaggedYaml.Proofs.Except
import TaggedYaml.Proofs.Json.Grammar
import TaggedYaml.Proofs.Json.Words

/-!
# Strict — the JSON reader accepts the grammar

Every JSON text whose leaves are strings is read as its data, if it does not nest too deep
(`Data.read_spells`).  A reader goes on from the text behind a token, whatever its place; so what is
said of each step is which text it leaves.
-/

namespace TaggedYaml.Json

mutual

/-- Plain data as data from a source. -/
def Data.ofValue : Value → Data
  | .text s => .text s
  | .list items => .list (itemsOfValue items)
  | .map entries => .map (entriesOfValue entries)

def Data.itemsOfValue : List Value → List Data
  | [] => []
  | v :: rest => ofValue v :: itemsOfValue rest

def Data.entriesOfValue : List (String × Value) → List (Data × Data)
  | [] => []
  | (k, v) :: rest => (.text k, ofValue v) :: entriesOfValue rest

end

namespace Reader

variable {r : Reader} {pairs : Bool} {c : Char} {rest tail : List Char}

@[simp] theorem rest_skip (r : Reader) : r.skip.rest = r.rest.tail := by
  unfold skip
  split <;> simp [*]

theorem rest_skip_cons (h : r.rest = c :: rest) : r.skip.rest = rest := by
  rw [rest_skip, h, List.tail_cons]

/-- A text that does not begin with a blank. -/
def Inked (text : List Char) : Prop :=
  ∀ c ∈ text.head?, c ≠ ' ' ∧ c ≠ '\n' ∧ c ≠ '\t' ∧ c ≠ '\r'

/-- Blanks are passed up to the next token. -/
theorem rest_skipBlanks {gap : List Char} (hg : IsBlank gap) (ht : Inked tail)
    (h : r.rest = gap ++ tail) : r.skipBlanks.rest = tail := by
  show r.rest.dropWhile _ = tail
  rw [h, List.dropWhile_append_of_pos]
  · cases tail with
    | nil => rfl
    | cons x tail =>
      obtain ⟨h1, h2, h3, h4⟩ := ht x rfl
      simp [h1, h2, h3, h4]
  · intro x hx
    rcases hg x hx with rfl | rfl | rfl | rfl <;> rfl

/-! ### Strings -/

theorem readHexDigits_code {ds : List Char} {n : Nat} (hd : code? ds = some n)
    (h : r.rest = ds ++ rest) : ∃ r', r.readHexDigits = .ok (n, r') ∧ r'.rest = rest := by
  obtain ⟨a, b, c, d, w, x, y, z, rfl, ha, hb, hc, hz, rfl⟩ := code?_eq_some hd
  have htake : r.rest.take 4 = [a, b, c, d] := by simp [h]
  have hbytes : ¬ (r.rest.take 4).foldr (fun c n => c.utf8Size + n) 0 < 4 := by
    have h1 := Char.utf8Size_pos a
    have h2 := Char.utf8Size_pos b
    have h3 := Char.utf8Size_pos c
    have h4 := Char.utf8Size_pos d
    simp only [htake, List.foldr_cons, List.foldr_nil]
    omega
  have hdigits : (r.rest.take 4).mapM hexValue? = some [w, x, y, z] := by
    simp [htake, ha, hb, hc, hz]
  refine ⟨r.skip.skip.skip.skip, ?_, by simp [h]⟩
  rw [readHexDigits]
  simp only [hbytes, if_false, hdigits]
  simp

/-- The digits of an escape are read as a character. -/
theorem readCode_eq {ds : List Char} (hd : code? ds = some c.toNat) (h : r.rest = ds ++ rest) :
    ∃ r', r.readCode = .ok (c, r') ∧ r'.rest = rest := by
  obtain ⟨r', hr', hrest⟩ := readHexDigits_code hd h
  have hvalid : c.toNat < 0xD800 ∨ 0xDFFF < c.toNat ∧ c.toNat < 0x110000 := c.valid
  refine ⟨r', ?_, hrest⟩
  rw [readCode, bind_ok hr']
  simp only
  rw [if_neg (by omega), if_pos (by omega), Char.ofNat_toNat]
  rfl

theorem skipPairMark_eq (h : r.rest = c :: rest) : r.skipPairMark c = .ok r.skip := by
  rw [skipPairMark, h]
  simp

/-- Two escapes are read as one character. -/
theorem readCode_pair {ds ds' : List Char} (hc : 0x10000 ≤ c.toNat)
    (hd : code? ds = some (0xD800 + (c.toNat - 0x10000) / 0x400))
    (hd' : code? ds' = some (0xDC00 + (c.toNat - 0x10000) % 0x400))
    (h : r.rest = ds ++ '\\' :: 'u' :: (ds' ++ rest)) :
    ∃ r', r.readCode = .ok (c, r') ∧ r'.rest = rest := by
  have hvalid : c.toNat < 0xD800 ∨ 0xDFFF < c.toNat ∧ c.toNat < 0x110000 := c.valid
  have hhigh : (c.toNat - 0x10000) / 0x400 < 0x400 := by omega
  have hlow : (c.toNat - 0x10000) % 0x400 < 0x400 := Nat.mod_lt _ (by decide)
  obtain ⟨r₁, hr₁, hrest₁⟩ := readHexDigits_code hd h
  have hrest₂ : r₁.skip.rest = 'u' :: (ds' ++ rest) := rest_skip_cons hrest₁
  obtain ⟨r₂, hr₂, hrest₃⟩ := readHexDigits_code hd' (rest_skip_cons hrest₂)
  have hcode : (0xD800 + (c.toNat - 0x10000) / 0x400 - 0xD800) * 1024 +
      (0xDC00 + (c.toNat - 0x10000) % 0x400 - 0xDC00) + 0x10000 = c.toNat := by omega
  refine ⟨r₂, ?_, hrest₃⟩
  rw [readCode, bind_ok hr₁]
  simp only
  rw [if_neg (by omega), if_neg (by omega), bind_ok (skipPairMark_eq hrest₁),
    bind_ok (skipPairMark_eq hrest₂), bind_ok hr₂]
  simp only
  rw [if_neg (by omega), hcode, Char.ofNat_toNat]
  rfl

theorem escape?_of_mem {e : Char} (h : (e, c) ∈ shortEscapes) : escape? e = some c := by
  simp only [shortEscapes, List.mem_cons, Prod.mk.injEq, List.not_mem_nil, or_false] at h
  rcases h with h | h | h | h | h | h | h | h <;> obtain ⟨rfl, rfl⟩ := h <;> rfl

/-- A character in a string is read in one round, however it is written. -/
theorem readStringLoop_char {unit : List Char} (hu : SpellsChar pairs c unit)
    (h : r.rest = unit ++ rest) : ∃ r', r'.rest = rest ∧ ∀ fuel text,
      readStringLoop (fuel + 1) text r = readStringLoop fuel (c :: text) r' := by
  have hescape {u : List Char} {r' : Reader} (hrest : r.rest = '\\' :: u)
      (hread : r.skip.readEscape = .ok (c, r')) (fuel : Nat) (text : List Char) :
      readStringLoop (fuel + 1) text r = readStringLoop fuel (c :: text) r' := by
    rw [readStringLoop, hrest]
    simp only [show ('\\' == '"') = false from rfl, Bool.false_eq_true, if_false, beq_self_eq_true,
      if_true]
    rw [bind_ok hread]
  have hcode {u : List Char} {r' : Reader} (hrest : r.rest = '\\' :: 'u' :: u)
      (hread : r.skip.skip.readCode = .ok (c, r')) : r.skip.readEscape = .ok (c, r') := by
    rw [readEscape, rest_skip_cons hrest]
    exact hread
  cases hu with
  | plain hge hq hb =>
    refine ⟨r.skip, rest_skip_cons h, fun fuel text => ?_⟩
    rw [readStringLoop, h]
    simp [hq, hb, Nat.not_lt.mpr hge]
  | @short e he =>
    refine ⟨r.skip.skip, by simp [h], hescape h ?_⟩
    rw [readEscape, rest_skip_cons h]
    simp [escape?_of_mem he]
  | code hd =>
    obtain ⟨r', hr', hrest⟩ := readCode_eq hd (show r.skip.skip.rest = _ ++ rest by simp [h])
    exact ⟨r', hrest, hescape h (hcode h hr')⟩
  | pair _ hc hd hd' =>
    obtain ⟨r', hr', hrest⟩ := readCode_pair hc hd hd'
      (show r.skip.skip.rest = _ ++ '\\' :: 'u' :: (_ ++ rest) by simp [h])
    exact ⟨r', hrest, hescape h (hcode h hr')⟩

theorem readStringLoop_units {cs : List Char} {units : List (List Char)}
    (hu : List.Forall₂ (SpellsChar pairs) cs units) : ∀ (fuel : Nat) (text : List Char) {r : Reader},
      r.rest = units.flatten ++ '"' :: tail → units.length < fuel →
      ∃ r', readStringLoop fuel text r = .ok (cs.reverse ++ text, r') ∧ r'.rest = tail := by
  induction hu with
  | nil =>
    intro fuel text r h hf
    obtain ⟨n, rfl⟩ : ∃ n, fuel = n + 1 := ⟨fuel - 1, by omega⟩
    refine ⟨r.skip, ?_, rest_skip_cons h⟩
    rw [readStringLoop, h]
    rfl
  | @cons c unit cs units hc hcs ih =>
    intro fuel text r h hf
    obtain ⟨n, rfl⟩ : ∃ n, fuel = n + 1 := ⟨fuel - 1, by omega⟩
    rw [List.flatten_cons, List.append_assoc] at h
    obtain ⟨r₁, hrest₁, hround⟩ := readStringLoop_char hc h
    obtain ⟨r', hr', hrest'⟩ := ih n (c :: text) hrest₁ (by simpa using hf)
    refine ⟨r', ?_, hrest'⟩
    rw [hround, hr']
    simp

theorem SpellsChar.length_pos {unit : List Char} (h : SpellsChar pairs c unit) : 0 < unit.length := by
  cases h <;> simp

theorem length_units {cs : List Char} {units : List (List Char)}
    (hu : List.Forall₂ (SpellsChar pairs) cs units) : units.length ≤ units.flatten.length := by
  induction hu with
  | nil => exact Nat.le_refl _
  | cons hc _ ih =>
    have hpos := SpellsChar.length_pos hc
    simp only [List.length_cons, List.flatten_cons, List.length_append]
    omega

/-- A string is read behind its opening quote. -/
theorem readString_spells {s : String} {here : List Char} (hs : SpellsString pairs s here)
    (h : r.rest = here ++ tail) :
    ∃ r', r.skip.readString = .ok (s, r') ∧ r'.rest = tail := by
  obtain ⟨units, hu, rfl⟩ := hs
  have hrest : r.skip.rest = units.flatten ++ '"' :: tail := by
    rw [rest_skip, h]
    simp
  have hfuel : units.length < r.skip.rest.length + 1 := by
    have := length_units hu
    rw [hrest, List.length_append]
    omega
  obtain ⟨r', hr', hrest'⟩ := readStringLoop_units hu _ [] hrest hfuel
  refine ⟨r', ?_, hrest'⟩
  rw [readString, bind_ok hr']
  simp [pure, Except.pure]

/-! ### Members -/

theorem inked_cons (h : isGap c = false) : Inked (c :: rest) := by
  intro x hx
  obtain rfl : c = x := by simpa using hx
  simp only [isGap, isBlank, isBreak, Bool.or_eq_false_iff, beq_eq_false_iff_ne] at h
  exact ⟨h.1.1, h.2.1, h.1.2, h.2.2⟩

/-- The closing bracket of a list. -/
theorem nextItem?_close {gap : List Char} (hg : IsBlank gap) (h : r.rest = gap ++ ']' :: tail)
    (first : Bool) : r.nextItem? first = .ok none ∧ r.closed.rest = tail := by
  have hrest := rest_skipBlanks hg (inked_cons (by decide)) h
  refine ⟨?_, rest_skip_cons hrest⟩
  rw [nextItem?, head?, hrest]
  rfl

/-- The next item of a list. -/
theorem nextItem?_item {first : Bool} {sep : List Char} (hs : Separates first sep)
    (hc : isGap c = false) (hb : c ≠ ']') (h : r.rest = sep ++ c :: tail) :
    ∃ r', r.nextItem? first = .ok (some r') ∧ r'.rest = c :: tail := by
  cases first with
  | true =>
    have hrest := rest_skipBlanks hs (inked_cons hc) h
    refine ⟨r.skipBlanks, ?_, hrest⟩
    rw [nextItem?, head?, hrest]
    simp
  | false =>
    obtain ⟨gap, gap', hg, hg', rfl⟩ := hs
    rw [List.append_assoc] at h
    have hrest := rest_skipBlanks hg (inked_cons (by decide)) h
    have hrest' := rest_skipBlanks hg' (inked_cons hc) (rest_skip_cons hrest)
    refine ⟨r.skipBlanks.skip.skipBlanks, ?_, hrest'⟩
    rw [nextItem?, head?, hrest]
    simp [head?, hrest']

/-- The closing brace of an object. -/
theorem nextKey?_close {gap : List Char} (hg : IsBlank gap) (h : r.rest = gap ++ '\x7d' :: tail)
    (first : Bool) : r.nextKey? first = .ok none ∧ r.closed.rest = tail := by
  have hrest := rest_skipBlanks hg (inked_cons (by decide)) h
  refine ⟨?_, rest_skip_cons hrest⟩
  rw [nextKey?, nextQuote?, head?, hrest]
  rfl

/-- The next key of an object. -/
theorem nextKey?_key {first : Bool} {sep key : List Char} {k : String} (hs : Separates first sep)
    (hk : SpellsString pairs k key) (h : r.rest = sep ++ (key ++ tail)) :
    ∃ r', r.nextKey? first = .ok (some (k, r')) ∧ r'.rest = tail := by
  obtain ⟨there, hthere⟩ : ∃ there, key ++ tail = '"' :: there := by
    obtain ⟨units, -, rfl⟩ := hk
    exact ⟨_, rfl⟩
  have hq : Inked (key ++ tail) := hthere ▸ inked_cons (by decide)
  cases first with
  | true =>
    have hrest := rest_skipBlanks hs hq h
    obtain ⟨r', hr', hrest'⟩ := readString_spells hk hrest
    have hquote : r.nextQuote? true = .ok (some r.skipBlanks.skip) := by
      rw [nextQuote?, head?, hrest, hthere]
      rfl
    refine ⟨r', ?_, hrest'⟩
    rw [nextKey?, bind_ok hquote]
    simp only [bind_ok hr']
    rfl
  | false =>
    obtain ⟨gap, gap', hg, hg', rfl⟩ := hs
    rw [List.append_assoc] at h
    have hcomma := rest_skipBlanks hg (inked_cons (by decide)) h
    have hrest := rest_skipBlanks hg' hq (rest_skip_cons hcomma)
    obtain ⟨r', hr', hrest'⟩ := readString_spells hk hrest
    have hquote : r.nextQuote? false = .ok (some r.skipBlanks.skip.skipBlanks.skip) := by
      rw [nextQuote?, head?, hcomma]
      simp [head?, hrest, hthere]
    refine ⟨r', ?_, hrest'⟩
    rw [nextKey?, bind_ok hquote]
    simp only [bind_ok hr']
    rfl

theorem passColon_eq {gap : List Char} (hg : IsBlank gap) (h : r.rest = gap ++ ':' :: tail) :
    ∃ r', r.passColon = .ok r' ∧ r'.rest = tail := by
  have hrest := rest_skipBlanks hg (inked_cons (by decide)) h
  refine ⟨r.skipBlanks.skip, ?_, rest_skip_cons hrest⟩
  rw [passColon, head?, hrest]
  rfl

/-! ### Values -/

theorem SpellsItems.length_pos {first : Bool} {items : List Value} {there : List Char}
    (h : SpellsItems pairs first items there) : 0 < there.length := by
  cases h with
  | close hg => simp
  | item _ hv _ =>
    obtain ⟨c, u, rfl, -⟩ := Spells.head hv
    simp only [List.length_append, List.length_cons]
    omega

theorem SpellsEntries.length_pos {first : Bool} {entries : List (String × Value)}
    {there : List Char} (h : SpellsEntries pairs first entries there) : 0 < there.length := by
  cases h with
  | close hg => simp
  | entry =>
    simp only [List.length_append, List.length_cons]
    omega

mutual

/-- A value is read behind blanks; there is fuel enough for as many rounds as its text is long. -/
theorem readData_spells : ∀ {v : Value} {here : List Char}, Spells pairs v here →
    ∀ (fuel room : Nat) {r : Reader} {gap tail : List Char}, IsBlank gap →
      r.rest = gap ++ (here ++ tail) → here.length ≤ fuel → v.height < room →
      ∃ r', readData fuel room .value r = .ok (.ofValue v, r') ∧ r'.rest = tail
  | _, _, .text h, fuel, room, r, gap, tail, hg, hr, hf, _ => by
    obtain ⟨units, hu, rfl⟩ := h
    obtain ⟨fuel, rfl⟩ : ∃ n, fuel = n + 1 := ⟨fuel - 1, by simp at hf; omega⟩
    have hrest := rest_skipBlanks hg (inked_cons (by decide)) hr
    obtain ⟨r', hr', hrest'⟩ := readString_spells ⟨units, hu, rfl⟩ hrest
    refine ⟨r', ?_, hrest'⟩
    rw [readData, head?, hrest]
    simp only [List.head?_cons, bind_ok hr']
    rfl
  | _, _, @Spells.list _ items there h, fuel, room, r, gap, tail, hg, hr, hf, hroom => by
    rw [Value.height] at hroom
    obtain ⟨fuel, rfl⟩ : ∃ n, fuel = n + 1 := ⟨fuel - 1, by simp at hf; omega⟩
    have hrest : r.skipBlanks.rest = '[' :: (there ++ tail) :=
      rest_skipBlanks hg (inked_cons (by decide)) hr
    obtain ⟨r', hr', hrest'⟩ := readData_items h fuel (room - 1) []
      (rest_skip_cons hrest) (by simpa using hf) (by omega)
    refine ⟨r', ?_, hrest'⟩
    rw [readData, head?, hrest]
    simp only [List.head?_cons]
    rw [if_neg (by omega), hr']
    rfl
  | _, _, @Spells.map _ entries there h, fuel, room, r, gap, tail, hg, hr, hf, hroom => by
    rw [Value.height] at hroom
    obtain ⟨fuel, rfl⟩ : ∃ n, fuel = n + 1 := ⟨fuel - 1, by simp at hf; omega⟩
    have hrest : r.skipBlanks.rest = '\x7b' :: (there ++ tail) :=
      rest_skipBlanks hg (inked_cons (by decide)) hr
    obtain ⟨r', hr', hrest'⟩ := readData_entries h fuel (room - 1) []
      (rest_skip_cons hrest) (by simpa using hf) (by omega)
    refine ⟨r', ?_, hrest'⟩
    rw [readData, head?, hrest]
    simp only [List.head?_cons]
    rw [if_neg (by omega), hr']
    rfl

theorem readData_items : ∀ {first : Bool} {items : List Value} {there : List Char},
    SpellsItems pairs first items there →
    ∀ (fuel room : Nat) (before : List Data) {r : Reader} {tail : List Char},
      r.rest = there ++ tail → there.length ≤ fuel → Value.itemsHeight items < room →
      ∃ r', readData fuel room (.items first before) r =
        .ok (.list (before.reverse ++ Data.itemsOfValue items), r') ∧ r'.rest = tail
  | first, _, _, .close hg, fuel, room, before, r, tail, hr, hf, _ => by
    obtain ⟨fuel, rfl⟩ : ∃ n, fuel = n + 1 := ⟨fuel - 1, by simp at hf; omega⟩
    rw [List.append_assoc] at hr
    obtain ⟨hnext, hrest⟩ := nextItem?_close hg hr first
    refine ⟨r.closed, ?_, hrest⟩
    rw [readData, bind_ok hnext, Data.itemsOfValue, List.append_nil]
    rfl
  | _, _, _, @SpellsItems.item _ first v rest sep here there hs hv hrest, fuel, room, before, r, tail,
      hr, hf, hroom => by
    rw [Value.itemsHeight] at hroom
    obtain ⟨c, u, hu, hc⟩ := Spells.head hv
    have hstart : isGap c = false ∧ c ≠ ']' := by rcases hc with rfl | rfl | rfl <;> decide
    have hpos : 0 < here.length := by simp [hu]
    have hpos' := SpellsItems.length_pos hrest
    rw [List.length_append, List.length_append] at hf
    obtain ⟨fuel, rfl⟩ : ∃ n, fuel = n + 1 := ⟨fuel - 1, by omega⟩
    have hr' : r.rest = sep ++ c :: (u ++ (there ++ tail)) := by simp [hr, hu]
    obtain ⟨r₁, hnext, hrest₁⟩ := nextItem?_item hs hstart.1 hstart.2 hr'
    have hr₁ : r₁.rest = [] ++ (here ++ (there ++ tail)) := by simp [hrest₁, hu]
    obtain ⟨r₂, hvalue, hrest₂⟩ := readData_spells hv fuel room .nil hr₁ (by omega) (by omega)
    obtain ⟨r₃, hitems, hrest₃⟩ := readData_items hrest fuel room (.ofValue v :: before) hrest₂
      (by omega) (by omega)
    refine ⟨r₃, ?_, hrest₃⟩
    rw [readData, bind_ok hnext]
    simp only [bind_ok hvalue, hitems]
    simp [Data.itemsOfValue]

theorem readData_entries : ∀ {first : Bool} {entries : List (String × Value)} {there : List Char},
    SpellsEntries pairs first entries there →
    ∀ (fuel room : Nat) (before : List (Data × Data)) {r : Reader} {tail : List Char},
      r.rest = there ++ tail → there.length ≤ fuel → Value.entriesHeight entries < room →
      ∃ r', readData fuel room (.entries first before) r =
        .ok (.map (before.reverse ++ Data.entriesOfValue entries), r') ∧ r'.rest = tail
  | first, _, _, .close hg, fuel, room, before, r, tail, hr, hf, _ => by
    obtain ⟨fuel, rfl⟩ : ∃ n, fuel = n + 1 := ⟨fuel - 1, by simp at hf; omega⟩
    rw [List.append_assoc] at hr
    obtain ⟨hnext, hrest⟩ := nextKey?_close hg hr first
    refine ⟨r.closed, ?_, hrest⟩
    rw [readData, bind_ok hnext, Data.entriesOfValue, List.append_nil]
    rfl
  | _, _, _, @SpellsEntries.entry _ first k v rest sep key gap gap' here there hs hk hg hg' hv hrest,
      fuel, room, before, r, tail, hr, hf, hroom => by
    rw [Value.entriesHeight] at hroom
    have hpos := SpellsEntries.length_pos hrest
    simp only [List.length_append, List.length_cons] at hf
    obtain ⟨fuel, rfl⟩ : ∃ n, fuel = n + 1 := ⟨fuel - 1, by omega⟩
    have hr' : r.rest = sep ++ (key ++ (gap ++ ':' :: (gap' ++ (here ++ (there ++ tail))))) := by
      simp [hr]
    obtain ⟨r₁, hnext, hrest₁⟩ := nextKey?_key hs hk hr'
    obtain ⟨r₂, hcolon, hrest₂⟩ := passColon_eq hg hrest₁
    obtain ⟨r₃, hvalue, hrest₃⟩ := readData_spells hv fuel room hg' hrest₂ (by omega) (by omega)
    obtain ⟨r₄, hentries, hrest₄⟩ := readData_entries hrest fuel room
      ((.text k, .ofValue v) :: before) hrest₃ (by omega) (by omega)
    refine ⟨r₄, ?_, hrest₄⟩
    rw [readData, bind_ok hnext]
    simp only [bind_ok hcolon, bind_ok hvalue, hentries]
    simp [Data.entriesOfValue]

end

end Reader

/-- Texts of the grammar are read as their data. -/
theorem Data.read_spells {pairs : Bool} {v : Value} {text : String}
    (h : SpellsText pairs v text.toList) (hv : v.height < depthLimit) :
    Data.read text = .ok (.ofValue v) := by
  obtain ⟨gap, here, gap', hg, hhere, hg', htext⟩ := h
  have hlen : here.length ≤ 2 * text.toList.length + 2 := by
    rw [htext, List.length_append, List.length_append]
    omega
  obtain ⟨r, hr, hrest⟩ := Reader.readData_spells hhere (2 * text.toList.length + 2) depthLimit
    (r := .ofList text.toList) hg htext hlen hv
  have hfinish : r.finish = .ok () := by
    have hend : r.skipBlanks.rest = [] :=
      Reader.rest_skipBlanks hg' (fun c hc => by simp at hc) (by rw [hrest, List.append_nil])
    rw [Reader.finish, hend]
    rfl
  rw [Data.read]
  simp only [bind_ok hr, bind_ok hfinish]
  rfl

end TaggedYaml.Json
