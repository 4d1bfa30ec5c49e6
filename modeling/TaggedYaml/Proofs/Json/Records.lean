import Mathlib.Data.List.Pairwise
import TaggedYaml.Json.Record
import TaggedYaml.Proofs.Json.Strict

/-!
# Records — fields that are read from text and from data

A record is read from a JSON text as it is from the data of this text (`Record.ofText_spells`): known
fields in the order of their entries, and other entries, if they are strings, are passed.  The text is
more strict in one thing only, for no field may come twice in it.
-/

namespace TaggedYaml.Json

/-- What is read of a text is what is made of its data, and it leaves a rest; or neither can be. -/
def Follows {α : Type} (read : Except Fault (α × Reader)) (made : Except Defect α)
    (tail : List Char) : Prop :=
  match made with
  | .ok x => ∃ r, read = .ok (x, r) ∧ r.rest = tail
  | .error _ => ∃ f, read = .error f

namespace Follows

variable {α β : Type} {read : Except Fault (α × Reader)} {made : Except Defect α}
  {mid tail : List Char}

theorem ok {x : α} {r : Reader} (h : read = .ok (x, r)) (hr : r.rest = tail) :
    Follows read (.ok x) tail := ⟨r, h, hr⟩

theorem bind {next : α × Reader → Except Fault (β × Reader)} {make : α → Except Defect β}
    (h : Follows read made mid)
    (hnext : ∀ x r, made = .ok x → r.rest = mid → Follows (next (x, r)) (make x) tail) :
    Follows (read >>= next) (made >>= make) tail := by
  cases made with
  | error e =>
    obtain ⟨f, rfl⟩ := h
    exact ⟨f, rfl⟩
  | ok x =>
    obtain ⟨r, rfl, hr⟩ := h
    exact hnext x r rfl hr

theorem map (h : Follows read made tail) (g : α → β) :
    Follows (read.map fun (x, r) => (g x, r)) (made.map g) tail := by
  cases made with
  | error e =>
    obtain ⟨f, rfl⟩ := h
    exact ⟨f, rfl⟩
  | ok x =>
    obtain ⟨r, rfl, hr⟩ := h
    exact ⟨r, rfl, hr⟩

end Follows

namespace Reader

variable {r : Reader} {pairs : Bool} {c : Char} {gap rest tail : List Char}

/-! ### Strings that are passed -/

theorem passEscape_code {ds : List Char} {n : Nat} (hd : code? ds = some n)
    (h : r.rest = 'u' :: (ds ++ rest)) : ∃ r', r.passEscape = .ok r' ∧ r'.rest = rest := by
  obtain ⟨r', hr', hrest⟩ := readHexDigits_code hd (rest_skip_cons h)
  refine ⟨r', ?_, hrest⟩
  rw [passEscape, head?, h]
  simp only [List.head?_cons, hr']
  rfl

theorem passEscape_short {e : Char} (he : (e, c) ∈ shortEscapes) (h : r.rest = e :: rest) :
    r.passEscape = .ok r.skip := by
  have hu : e ≠ 'u' := by
    rintro rfl
    simp [shortEscapes] at he
  rw [passEscape, head?, h]
  simp [hu, escape?_of_mem he]

/-- A round over an escape. -/
theorem passStringLoop_escape {r' : Reader} (h : r.rest = '\\' :: rest)
    (he : r.skip.passEscape = .ok r') (fuel : Nat) :
    passStringLoop (fuel + 1) r = passStringLoop fuel r' := by
  rw [passStringLoop, head?, h]
  simp only [List.head?_cons]
  rw [if_neg (by decide), if_pos (by decide), bind_ok he]

/-- A character in a string is passed in as many rounds as it is written with escapes. -/
theorem passStringLoop_char {unit : List Char} (hu : SpellsChar pairs c unit)
    (h : r.rest = unit ++ rest) : ∃ r' k, r'.rest = rest ∧ k < unit.length ∧
      ∀ fuel, passStringLoop (fuel + 1 + k) r = passStringLoop fuel r' := by
  cases hu with
  | plain hge hq hb =>
    refine ⟨r.skip, 0, rest_skip_cons h, by simp, fun fuel => ?_⟩
    rw [Nat.add_zero, passStringLoop, head?, h]
    simp [hq, hb, Nat.not_lt.mpr hge]
  | @short e he =>
    have hrest : r.skip.rest = e :: rest := rest_skip_cons h
    exact ⟨r.skip.skip, 0, rest_skip_cons hrest, by simp,
      passStringLoop_escape h (passEscape_short he hrest)⟩
  | code hd =>
    obtain ⟨r', hr', hrest⟩ := passEscape_code hd (rest_skip_cons h)
    exact ⟨r', 0, hrest, by simp, passStringLoop_escape h hr'⟩
  | @pair ds ds' _ _ hd hd' =>
    have h' : r.rest = '\\' :: 'u' :: (ds ++ '\\' :: 'u' :: (ds' ++ rest)) := by simp [h]
    obtain ⟨r₁, hr₁, hrest₁⟩ := passEscape_code hd (rest_skip_cons h')
    obtain ⟨r₂, hr₂, hrest₂⟩ := passEscape_code hd' (rest_skip_cons hrest₁)
    refine ⟨r₂, 1, hrest₂, by simp, fun fuel => ?_⟩
    rw [passStringLoop_escape h' hr₁, passStringLoop_escape hrest₁ hr₂]

theorem passStringLoop_units {cs : List Char} {units : List (List Char)}
    (hu : List.Forall₂ (SpellsChar pairs) cs units) : ∀ (fuel : Nat) {r : Reader},
      r.rest = units.flatten ++ '"' :: tail → units.flatten.length < fuel →
      ∃ r', passStringLoop fuel r = .ok r' ∧ r'.rest = tail := by
  induction hu with
  | nil =>
    intro fuel r h hf
    obtain ⟨n, rfl⟩ : ∃ n, fuel = n + 1 := ⟨fuel - 1, by omega⟩
    refine ⟨r.skip, ?_, rest_skip_cons h⟩
    rw [passStringLoop, head?, h]
    rfl
  | @cons c unit cs units hc hcs ih =>
    intro fuel r h hf
    rw [List.flatten_cons, List.length_append] at hf
    rw [List.flatten_cons, List.append_assoc] at h
    obtain ⟨r₁, k, hrest₁, hk, hrounds⟩ := passStringLoop_char hc h
    obtain ⟨n, rfl⟩ : ∃ n, fuel = n + 1 + k := ⟨fuel - 1 - k, by omega⟩
    obtain ⟨r', hr', hrest'⟩ := ih n hrest₁ (by omega)
    exact ⟨r', (hrounds n).trans hr', hrest'⟩

/-- A string is passed behind its opening quote. -/
theorem passString_spells {s : String} {here : List Char} (hs : SpellsString pairs s here)
    (h : r.rest = here ++ tail) : ∃ r', r.skip.passString = .ok r' ∧ r'.rest = tail := by
  obtain ⟨units, hu, rfl⟩ := hs
  have hrest : r.skip.rest = units.flatten ++ '"' :: tail := by
    rw [rest_skip, h]
    simp
  refine passStringLoop_units hu _ hrest ?_
  rw [hrest, List.length_append]
  omega

/-- A value that is a string is passed. -/
theorem pass_text {s : String} {here : List Char} (hg : IsBlank gap) (hs : SpellsString pairs s here)
    (h : r.rest = gap ++ (here ++ tail)) : ∃ r', r.pass = .ok r' ∧ r'.rest = tail := by
  obtain ⟨there, hthere⟩ : ∃ there, here ++ tail = '"' :: there := by
    obtain ⟨units, -, rfl⟩ := hs
    exact ⟨_, rfl⟩
  have hrest := rest_skipBlanks hg (hthere ▸ inked_cons (by decide)) h
  obtain ⟨r', hr', hrest'⟩ := passString_spells hs hrest
  obtain ⟨n, hn⟩ : ∃ n, 2 * r.rest.length + 2 = n + 2 := ⟨_, rfl⟩
  refine ⟨r', ?_, hrest'⟩
  rw [pass, hn, passLoop]
  simp only [head?, hrest, hthere, List.head?_cons, bind_ok hr']
  rw [passLoop]

/-! ### Values that are read -/

/-- A string is read as a text. -/
theorem readText_spells {s : String} {here : List Char} (hg : IsBlank gap)
    (hs : SpellsString pairs s here) (h : r.rest = gap ++ (here ++ tail)) :
    ∃ r', r.readText = .ok (s, r') ∧ r'.rest = tail := by
  obtain ⟨there, hthere⟩ : ∃ there, here ++ tail = '"' :: there := by
    obtain ⟨units, -, rfl⟩ := hs
    exact ⟨_, rfl⟩
  have hrest := rest_skipBlanks hg (hthere ▸ inked_cons (by decide)) h
  obtain ⟨r', hr', hrest'⟩ := readString_spells hs hrest
  refine ⟨r', ?_, hrest'⟩
  rw [readText]
  simp only [head?, hrest, hthere, List.head?_cons, hr']

/-- What is no `null` is read as what it is. -/
theorem readOptional_spells {α : Type} {item : Reader → Except Fault (α × Reader)}
    {made : Except Defect α} {v : Value} {here : List Char} (hg : IsBlank gap)
    (hv : Spells pairs v here)
    (hitem : ∀ r : Reader, r.rest = here ++ tail → Follows (item r) made tail)
    (h : r.rest = gap ++ (here ++ tail)) :
    Follows (r.readOptional item) (made.map some) tail := by
  obtain ⟨c, there, hhere, hc⟩ := hv.head
  have hinked : Inked (here ++ tail) := by
    rw [hhere]
    exact inked_cons (by rcases hc with rfl | rfl | rfl <;> decide)
  have hrest := rest_skipBlanks hg hinked h
  have hnull : (r.skipBlanks.head? == some 'n') = false := by
    rw [head?, hrest, hhere]
    rcases hc with rfl | rfl | rfl <;> rfl
  rw [readOptional]
  simp only [hnull, Bool.false_eq_true, if_false]
  exact (hitem r.skipBlanks hrest).map some

theorem readItems_spells {α : Type} {item : Reader → Except Fault (α × Reader)}
    {make : Value → Except Defect α} : ∀ {items : List Value} {there : List Char} (fuel : Nat)
    (before : List α) {r : Reader}, SpellsItems pairs before.isEmpty items there →
      (∀ v ∈ items, ∀ (r : Reader) (here tail : List Char), Spells pairs v here →
        r.rest = here ++ tail → Follows (item r) (make v) tail) →
      r.rest = there ++ tail → there.length ≤ fuel →
      Follows (readItems item fuel before r) ((items.mapM make).map (before.reverse ++ ·)) tail
  | [], there, fuel, before, r, hs, _, h, hf => by
    cases hs with
    | close hg =>
      obtain ⟨n, rfl⟩ : ∃ n, fuel = n + 1 := ⟨fuel - 1, by simp at hf; omega⟩
      rw [List.append_assoc] at h
      obtain ⟨hnext, hrest⟩ := nextItem?_close hg h before.isEmpty
      refine ⟨r.closed, ?_, hrest⟩
      rw [readItems, bind_ok hnext]
      simp [pure, Except.pure]
  | v :: rest, there, fuel, before, r, hs, hitem, h, hf => by
    cases hs with
    | @item _ _ _ sep here there hsep hv hrest =>
      rw [List.forall_mem_cons] at hitem
      obtain ⟨c, u, hu, hc⟩ := hv.head
      have hstart : isGap c = false ∧ c ≠ ']' := by rcases hc with rfl | rfl | rfl <;> decide
      have hpos : 0 < here.length := by simp [hu]
      rw [List.length_append, List.length_append] at hf
      obtain ⟨n, rfl⟩ : ∃ n, fuel = n + 1 := ⟨fuel - 1, by omega⟩
      have h' : r.rest = sep ++ c :: (u ++ (there ++ tail)) := by simp [h, hu]
      obtain ⟨r₁, hnext, hrest₁⟩ := nextItem?_item hsep hstart.1 hstart.2 h'
      have hr₁ : r₁.rest = here ++ (there ++ tail) := by simp [hrest₁, hu]
      have hmade : ((v :: rest).mapM make).map (before.reverse ++ ·) =
          make v >>= fun x => (rest.mapM make).map ((x :: before).reverse ++ ·) := by
        rw [List.mapM_cons]
        cases make v with
        | error e => rfl
        | ok x => cases rest.mapM make <;> simp [bind, Except.bind, pure, Except.pure, Except.map]
      rw [readItems, bind_ok hnext, hmade]
      refine (hitem.1 r₁ here _ hv hr₁).bind fun x r₂ _ hrest₂ => ?_
      exact readItems_spells n (x :: before) hrest hitem.2 hrest₂ (by omega)

/-- A list is read item by item. -/
theorem readList_spells {α : Type} {item : Reader → Except Fault (α × Reader)}
    {make : Value → Except Defect α} {items : List Value} {here : List Char} (hg : IsBlank gap)
    (hv : Spells pairs (.list items) here)
    (hitem : ∀ v ∈ items, ∀ (r : Reader) (here tail : List Char), Spells pairs v here →
      r.rest = here ++ tail → Follows (item r) (make v) tail)
    (h : r.rest = gap ++ (here ++ tail)) : Follows (r.readList item) (items.mapM make) tail := by
  cases hv with
  | @list _ there hs =>
    have hrest : r.skipBlanks.rest = '[' :: (there ++ tail) :=
      rest_skipBlanks hg (inked_cons (by decide)) h
    have hread := readItems_spells (r.skipBlanks.rest.length + 1) [] hs hitem (rest_skip_cons hrest)
      (by rw [hrest, List.length_cons, List.length_append]; omega)
    have hmade : (items.mapM make).map ([].reverse ++ ·) = items.mapM make := by
      cases items.mapM make <;> rfl
    rw [hmade] at hread
    rw [readList]
    simpa only [head?, hrest, List.head?_cons] using hread

end Reader

/-! ### Fields -/

/-- To set a field is not to set the other one, and both can be set in either order. -/
structure Field.Apart {σ : Type} (f g : Field σ) : Prop where
  swap : ∀ x v w, (f.ofValue x v >>= fun x => g.ofValue x w).toOption =
    (g.ofValue x w >>= fun x => f.ofValue x v).toOption
  left : ∀ x v x', f.ofValue x v = .ok x' → g.isSet x' = g.isSet x
  right : ∀ x v x', g.ofValue x v = .ok x' → f.isSet x' = f.isSet x

instance {σ : Type} : Std.Symm (@Field.Apart σ) :=
  ⟨fun _ _ h => ⟨fun x v w => (h.swap x w v).symm, h.right, h.left⟩⟩

/-- Fields that are put into different places keep apart. -/
theorem Field.apart_of_sets {σ α β : Type} {f g : Field σ} {parse : Value → Except Defect α}
    {parse' : Value → Except Defect β} {set : σ → α → σ} {set' : σ → β → σ}
    (hf : ∀ x v, f.ofValue x v = (parse v).map (set x))
    (hg : ∀ x v, g.ofValue x v = (parse' v).map (set' x))
    (hswap : ∀ x a b, set' (set x a) b = set (set' x b) a)
    (hleft : ∀ x a, g.isSet (set x a) = g.isSet x)
    (hright : ∀ x b, f.isSet (set' x b) = f.isSet x) : f.Apart g := by
  refine ⟨fun x v w => ?_, fun x v x' h => ?_, fun x v x' h => ?_⟩
  · simp only [hf, hg]
    cases parse v with
    | error e => cases parse' w <;> rfl
    | ok a =>
      cases parse' w with
      | error e => rfl
      | ok b => exact congrArg some (hswap x a b)
  · rw [hf] at h
    obtain ⟨a, -, rfl⟩ := map_eq_ok h
    exact hleft x a
  · rw [hg] at h
    obtain ⟨b, -, rfl⟩ := map_eq_ok h
    exact hright x b

namespace Record

variable {σ : Type} {d : Record σ} {pairs : Bool} {entries : List (String × Value)}

/-- A key that is the name of a field. -/
def knows (d : Record σ) (key : String) : Bool := (d.fields.find? (·.name == key)).isSome

/-- No field comes twice. -/
def Once (d : Record σ) (entries : List (String × Value)) : Prop :=
  ((entries.map (·.1)).filter d.knows).Nodup

instance (d : Record σ) (entries : List (String × Value)) : Decidable (d.Once entries) :=
  inferInstanceAs (Decidable (List.Nodup _))

/-- All fields keep apart. -/
def Apart (d : Record σ) : Prop := d.fields.Pairwise Field.Apart

theorem Apart.fields (h : d.Apart) {f g : Field σ} (hf : f ∈ d.fields) (hg : g ∈ d.fields)
    (hne : f.name ≠ g.name) : f.Apart g :=
  h.forall hf hg fun heq => hne (congrArg Field.name heq)

/-- An entry is read from text as from data: that of a field as its value, and another if it is a
string. -/
def Reads (d : Record σ) (pairs : Bool) (key : String) (v : Value) : Prop :=
  match d.fields.find? (·.name == key) with
  | none => ∃ s, v = .text s
  | some f => ∀ (x : σ) (r : Reader) (gap here tail : List Char), IsBlank gap → Spells pairs v here →
      r.rest = gap ++ (here ++ tail) → Follows (f.ofText x r) (f.ofValue x v) tail

theorem field_of_find {key : String} {f : Field σ} (h : d.fields.find? (·.name == key) = some f) :
    f ∈ d.fields ∧ f.name = key :=
  ⟨List.mem_of_find?_eq_some h, by simpa using List.find?_some h⟩

theorem Once.tail {e : String × Value} (h : d.Once (e :: entries)) : d.Once entries := by
  rw [Once, List.map_cons] at h
  exact h.sublist ((List.sublist_cons_self _ _).filter d.knows)

theorem Once.head {e : String × Value} (h : d.Once (e :: entries)) (hk : d.knows e.1 = true) :
    e.1 ∉ entries.map (·.1) := by
  rw [Once, List.map_cons, List.filter_cons_of_pos hk, List.nodup_cons] at h
  exact fun hmem => h.1 (List.mem_filter.mpr ⟨hmem, hk⟩)

theorem readEntries_spells (hapart : d.Apart) : ∀ {entries : List (String × Value)} {first : Bool}
    {there tail : List Char} (fuel : Nat) (x : σ) {r : Reader},
      SpellsEntries pairs first entries there → (∀ e ∈ entries, d.Reads pairs e.1 e.2) →
      d.Once entries → (∀ f ∈ d.fields, f.isSet x = true → f.name ∉ entries.map (·.1)) →
      r.rest = there ++ tail → there.length ≤ fuel →
      Follows (d.readEntries fuel first x r) (d.ofEntries x entries) tail
  | [], first, there, tail, fuel, x, r, hs, _, _, _, h, hf => by
    cases hs with
    | close hg =>
      obtain ⟨n, rfl⟩ : ∃ n, fuel = n + 1 := ⟨fuel - 1, by simp at hf; omega⟩
      rw [List.append_assoc] at h
      obtain ⟨hnext, hrest⟩ := Reader.nextKey?_close hg h first
      refine ⟨r.closed, ?_, hrest⟩
      rw [readEntries, bind_ok hnext]
      rfl
  | (k, v) :: rest, first, there, tail, fuel, x, r, hs, hreads, honce, hset, h, hf => by
    cases hs with
    | @entry _ _ _ _ sep key gap gap' here there hsep hk hg hg' hv hrest =>
      rw [List.forall_mem_cons] at hreads
      have hpos := Reader.SpellsEntries.length_pos hrest
      simp only [List.length_append, List.length_cons] at hf
      obtain ⟨n, rfl⟩ : ∃ n, fuel = n + 1 := ⟨fuel - 1, by omega⟩
      have h' : r.rest = sep ++ (key ++ (gap ++ ':' :: (gap' ++ (here ++ (there ++ tail))))) := by
        simp [h]
      obtain ⟨r₁, hnext, hrest₁⟩ := Reader.nextKey?_key hsep hk h'
      obtain ⟨r₂, hcolon, hrest₂⟩ := Reader.passColon_eq hg hrest₁
      rw [readEntries, bind_ok hnext, ofEntries]
      cases hfind : d.fields.find? (·.name == k) with
      | none =>
        obtain ⟨s, rfl⟩ : ∃ s, v = .text s := by
          have hread := hreads.1
          rwa [Reads, hfind] at hread
        cases hv with
        | text hv =>
          obtain ⟨r₃, hpass, hrest₃⟩ := Reader.pass_text hg' hv hrest₂
          simp only [hfind, bind_ok hcolon, bind_ok hpass]
          refine readEntries_spells hapart n x hrest hreads.2 honce.tail (fun f hf hx hmem => ?_)
            hrest₃ (by omega)
          exact hset f hf hx (List.mem_cons_of_mem _ hmem)
      | some field =>
        obtain ⟨hmem, hname⟩ := field_of_find hfind
        have hfresh : field.isSet x = false := by
          rw [Bool.eq_false_iff]
          exact fun hx => hset field hmem hx (by simp [hname])
        have hfollows : Follows (field.ofText x r₂) (field.ofValue x v) (there ++ tail) := by
          have hread := hreads.1
          rw [Reads, hfind] at hread
          exact hread x r₂ gap' here _ hg' hv hrest₂
        simp only [hfind, hfresh, Bool.false_eq_true, if_false, bind_ok hcolon]
        refine hfollows.bind fun x' r₃ hx' hrest₃ => ?_
        refine readEntries_spells hapart n x' hrest hreads.2 honce.tail (fun f hf hx hlater => ?_)
          hrest₃ (by omega)
        by_cases heq : field.name = f.name
        · rw [← heq, hname] at hlater
          refine honce.head ?_ hlater
          simp [knows, hfind]
        · rw [(hapart.fields hmem hf heq).left x v x' hx'] at hx
          exact hset f hf hx (List.mem_cons_of_mem _ hlater)

/-- A record that is written as an object is read from the text as it is made of the data. -/
theorem ofText_spells (hapart : d.Apart) {blank : σ} {here gap tail : List Char} {r : Reader}
    (hblank : ∀ f ∈ d.fields, f.isSet blank = false) (hv : Spells pairs (.map entries) here)
    (hreads : ∀ e ∈ entries, d.Reads pairs e.1 e.2) (honce : d.Once entries) (hg : IsBlank gap)
    (h : r.rest = gap ++ (here ++ tail)) :
    Follows (d.ofText blank r) (d.ofValue blank (.map entries)) tail := by
  cases hv with
  | @map _ there hs =>
    have hrest : r.skipBlanks.rest = '\x7b' :: (there ++ tail) :=
      Reader.rest_skipBlanks hg (Reader.inked_cons (by decide)) h
    have hread := readEntries_spells hapart (r.skipBlanks.rest.length + 1) blank hs hreads honce
      (fun f hf hx => by rw [hblank f hf] at hx; cases hx) (Reader.rest_skip_cons hrest)
      (by rw [hrest, List.length_cons, List.length_append]; omega)
    rw [ofText, ofValue]
    simp only [Reader.head?, hrest, List.head?_cons] at hread ⊢
    refine hread.bind fun x r' _ hrest' => ?_
    cases d.missing? x with
    | none => exact .ok rfl hrest'
    | some f => exact ⟨_, rfl⟩

end Record

end TaggedYaml.Json
