import TaggedYaml.Proofs.Pattern.Unquote

/-!
# Strip — the pattern for tags in quotes finds them line by line

The loop of the pattern takes the rest of the line and gives it back up to the last quote
(`star_line`).  A search that led nowhere leaves no quote on the line behind the places that it tried
(`Stale`), so what was tried once need not be tried again.
-/

namespace TaggedYaml.Pattern

/-- The quotes around a tag. -/
def quoteSet : CharSet := .union (.union .empty (.one '\'')) (.one '"')

theorem contains_quoteSet (c : Char) : quoteSet.contains c = isQuote c := by
  simp [quoteSet, CharSet.contains, CharSet.contains_one, isQuote]

/-- What was tried from an offset on stands before no quote of its line. -/
def Stale (whole : List Char) (offset : Nat) (seen : Seen) : Prop :=
  ∀ x, offset ≤ x → seen.has 0 x = true → lastQuote? (whole.drop x) = none

variable {whole : List Char} {offset : Nat} {seen : Seen}

theorem stale_empty (whole : List Char) (offset : Nat) : Stale whole offset ∅ := by
  intro x _ hx
  simp [Seen.has] at hx

theorem Stale.mono {later : Nat} (h : Stale whole offset seen) (hle : offset ≤ later) :
    Stale whole later seen :=
  fun x hx => h x (Nat.le_trans hle hx)

/-- A choice that is made now does not count behind its place. -/
theorem Stale.add (h : Stale whole offset seen) : Stale whole (offset + 1) (seen.add 0 offset) := by
  intro x hx hhas
  rw [Seen.has_add, Bool.or_eq_true] at hhas
  rcases hhas with hhas | hhas
  · have : offset = x := by simpa using hhas
    omega
  · exact h x (Nat.le_of_succ_le hx) hhas

/-- A place behind which there is no quote may be left. -/
theorem Stale.leave (h : Stale whole (offset + 1) seen) (hnone : lastQuote? (whole.drop offset) = none) :
    Stale whole offset seen := by
  intro x hx hhas
  rcases Nat.eq_or_lt_of_le hx with rfl | hlt
  · exact hnone
  · exact h x hlt hhas

/-! ### The loop -/

/-- Another round of the loop over a line: it goes on, or what is behind it begins here. -/
theorem star_succ (rounds n : Nat) (p : Place) (k : Place → Search) (seen : Seen)
    (hnew : seen.has 0 p.offset = false) :
    star ((Expr.set (.compl (.one '\n'))).run rounds) 0 true (n + 1) p k seen =
      match (Expr.set (.compl (.one '\n'))).run rounds 1 p
        (fun r => star ((Expr.set (.compl (.one '\n'))).run rounds) 0 true n r k)
        (seen.add 0 p.offset) with
      | (some q, seen) => (some q, seen)
      | (none, seen) => k p seen := by
  rw [star, Place.again, if_pos rfl, Place.choose, hnew]
  rfl

/-- The loop passes a character of its line, and then goes on or ends before it. -/
theorem star_pass (rounds n : Nat) (before : Option Char) {c : Char} (s : List Char) (offset : Nat)
    (groups : List Group) (k : Place → Search) (seen : Seen) (hnew : seen.has 0 offset = false)
    (hc : c ≠ '\n') :
    star ((Expr.set (.compl (.one '\n'))).run rounds) 0 true (n + 1) ⟨before, c :: s, offset, groups⟩ k
        seen =
      match star ((Expr.set (.compl (.one '\n'))).run rounds) 0 true n
          ⟨some c, s, offset + 1, groups⟩ k (seen.add 0 offset) with
      | (some q, seen) => (some q, seen)
      | (none, seen) => k ⟨before, c :: s, offset, groups⟩ seen := by
  rw [star_succ rounds n _ k seen hnew, Expr.run]
  simp [CharSet.contains, CharSet.contains_one, hc]

/-- The loop ends where its line does. -/
theorem star_halt (rounds n : Nat) {p : Place} (k : Place → Search) (seen : Seen)
    (hnew : seen.has 0 p.offset = false) (hend : ∀ c ∈ p.rest.head?, c = '\n') :
    star ((Expr.set (.compl (.one '\n'))).run rounds) 0 true (n + 1) p k seen =
      k p (seen.add 0 p.offset) := by
  rw [star_succ rounds n p k seen hnew, Expr.run]
  cases hrest : p.rest with
  | nil => rfl
  | cons c s =>
    obtain rfl := hend c (by simp [hrest])
    simp only [CharSet.contains, CharSet.contains_one]
    rfl

/-- The loop over the rest of a line, with a quote behind it, ends before the last quote. -/
theorem star_line (rounds : Nat) {k : Place → Search} (finish : Place → Place)
    (hk : ∀ q seen, k q seen = (if q.rest.head?.any isQuote then some (finish q) else none, seen)) :
    ∀ {n : Nat} {p : Place} {seen : Seen}, whole.drop p.offset = p.rest → p.rest.length < n →
      Stale whole p.offset seen →
      (lastQuote? p.rest = none → ∃ seen', Stale whole p.offset seen' ∧
        star ((Expr.set (.compl (.one '\n'))).run rounds) 0 true n p k seen = (none, seen')) ∧
      ∀ content rest, lastQuote? p.rest = some (content, rest) → ∃ before c seen',
        star ((Expr.set (.compl (.one '\n'))).run rounds) 0 true n p k seen =
          (some (finish ⟨before, c :: rest, p.offset + content.length, p.groups⟩), seen') := by
  intro n
  induction n with
  | zero =>
    intro p seen _ hn
    omega
  | succ n ih =>
    intro p seen hw hn hstale
    cases hhas : seen.has 0 p.offset with
    | true =>
      -- a round came here before, and there was no quote
      have hnone : lastQuote? p.rest = none := hw ▸ hstale p.offset (Nat.le_refl _) hhas
      refine ⟨fun _ => ⟨seen, hstale, ?_⟩, fun content rest h => ?_⟩
      · rw [star, Place.again, if_pos rfl, Place.choose, hhas]
        rfl
      · rw [hnone] at h
        cases h
    | false =>
      obtain ⟨before, rest, offset, groups⟩ := p
      cases rest with
      | nil =>
        refine ⟨fun _ => ⟨seen.add 0 offset, hstale.add.leave (hw ▸ rfl), ?_⟩, fun _ _ h => by cases h⟩
        rw [star_halt rounds n k seen hhas (by simp), hk]
        rfl
      | cons c s =>
        by_cases hc : c = '\n'
        · subst hc
          refine ⟨fun _ => ⟨seen.add 0 offset, hstale.add.leave (hw ▸ rfl), ?_⟩, fun _ _ h => by cases h⟩
          rw [star_halt rounds n k seen hhas (by simp), hk]
          rfl
        have hw' : whole.drop (offset + 1) = s := by
          rw [← List.tail_drop, hw]
          rfl
        rw [star_pass rounds n before s offset groups k seen hhas hc, lastQuote?_cons hc]
        obtain ⟨hnone, hsome⟩ := ih (p := ⟨some c, s, offset + 1, groups⟩) hw'
          (Nat.lt_of_succ_lt_succ hn) hstale.add
        cases hl : lastQuote? s with
        | some z =>
          obtain ⟨content, rest⟩ := z
          refine ⟨(by cases ·), fun content' rest' h => ?_⟩
          obtain ⟨rfl, rfl⟩ := Prod.mk.inj (Option.some.inj h)
          obtain ⟨before', c', seen', hrun⟩ := hsome content rest hl
          refine ⟨before', c', seen', ?_⟩
          rw [hrun, List.length_cons, Nat.add_assoc, Nat.add_comm 1]
        | none =>
          -- the rest of the line has no quote, so the loop comes back to this place
          obtain ⟨seen', hstale', hrun⟩ := hnone hl
          rw [hrun]
          cases hq : isQuote c with
          | false =>
            refine ⟨fun h => ⟨seen', hstale'.leave ?_, ?_⟩, fun _ _ h => by cases h⟩
            · rw [hw, lastQuote?_cons hc, hl, hq]
              rfl
            · simp only [hk, List.head?_cons, Option.any_some, hq]
              rfl
          | true =>
            refine ⟨(by cases ·), fun content rest h => ?_⟩
            obtain ⟨rfl, rfl⟩ := Prod.mk.inj (Option.some.inj h)
            refine ⟨before, c, seen', ?_⟩
            simp only [hk, List.head?_cons, Option.any_some, hq]
            rfl

/-! ### Searches -/

/-- What ends a match behind the loop: the group is noted and the quote is passed. -/
def Place.close (q start : Place) : Place :=
  ⟨q.rest.head?, q.rest.tail, q.offset + 1,
    ⟨1, some "content", start.rest, q.offset - start.offset⟩ :: q.groups⟩

/-- A tag in quotes is a quote, a mark, the rest of the line up to a quote, and this quote. -/
theorem run_quotedTag (rounds : Nat) (before : Option Char) (c : Char) (s : List Char) (offset : Nat) :
    quotedTag.expr.runAt rounds before offset (c :: s) =
      if isQuote c && s.head? == some '!' then
        star ((Expr.set (.compl (.one '\n'))).run rounds) 0 true rounds
          ⟨some '!', s.tail, offset + 2, []⟩ fun q seen =>
            (if q.rest.head?.any isQuote then some (q.close ⟨some c, s, offset + 1, []⟩) else none, seen)
      else .fail := by
  have hexpr : quotedTag.expr = .seq (.set quoteSet) (.seq (.group 1 (some "content")
      (.seq (.set (.one '!')) (.loop (.set (.compl (.one '\n'))) 0 none true))) (.set quoteSet)) := rfl
  rw [hexpr, Expr.runAt]
  simp only [Expr.run, contains_quoteSet, CharSet.contains_one]
  cases hq : isQuote c with
  | false => rfl
  | true =>
    cases s with
    | nil => rfl
    | cons d s =>
      by_cases hd : d = '!'
      · subst hd
        show star ((Expr.set (.compl (.one '\n'))).run rounds) 0 true rounds
          ⟨some '!', s, offset + 2, []⟩ _ = _
        refine congrArg _ ?_
        funext q seen
        cases hrest : q.rest with
        | nil => simp [Search.fail]
        | cons e rest =>
          cases he : isQuote e with
          | true => simp [hrest, he, Place.close]
          | false => simp [he, Search.fail]
      · simp [hd]

/-- Where a tag in quotes begins, it is found up to the last quote of the line. -/
theorem runAt_quotedTag {rounds : Nat} (before : Option Char) {c : Char} {s : List Char}
    (hw : whole.drop offset = c :: s) (hrounds : s.length < rounds)
    (hstale : Stale whole (offset + 2) seen) :
    (closing? c s = none → ∃ seen', Stale whole (offset + 2) seen' ∧
      quotedTag.expr.runAt rounds before offset (c :: s) seen = (none, seen')) ∧
    ∀ content rest, closing? c s = some (content, rest) → ∃ q seen',
      quotedTag.expr.runAt rounds before offset (c :: s) seen = (some q, seen') ∧ q.rest = rest ∧
      q.offset = offset + content.length + 3 ∧
      q.groups = [⟨1, some "content", s, content.length + 1⟩] := by
  rw [run_quotedTag, closing?]
  cases hcond : isQuote c && s.head? == some '!' with
  | false => exact ⟨fun _ => ⟨seen, hstale, rfl⟩, fun _ _ h => by cases h⟩
  | true =>
    have hw' : whole.drop (offset + 2) = s.tail := by
      rw [← List.drop_drop, hw]
      cases s <;> rfl
    have hlength : s.tail.length < rounds := by
      rw [List.length_tail]
      omega
    obtain ⟨hnone, hsome⟩ := star_line rounds (·.close ⟨some c, s, offset + 1, []⟩)
      (fun q seen => rfl) (p := ⟨some '!', s.tail, offset + 2, []⟩) hw' hlength hstale
    refine ⟨hnone, fun content rest h => ?_⟩
    obtain ⟨before', c', seen', hrun⟩ := hsome content rest h
    refine ⟨_, seen', hrun, rfl, ?_, ?_⟩
    · simp only [Place.close]
      omega
    · simp only [Place.close]
      congr 2
      omega

/-- The first tag in quotes is the first match. -/
theorem searchFrom_quotedTag {rounds : Nat} : ∀ {text : List Char} (passed : List Char)
    (before : Option Char) {offset : Nat} {seen : Seen}, whole.drop offset = text → text.length ≤ rounds →
    Stale whole (offset + 2) seen →
    (nextTag? text = none → quotedTag.expr.searchFrom rounds seen before offset passed text = none) ∧
    ∀ skipped content rest, nextTag? text = some (skipped, content, rest) → ∃ m,
      quotedTag.expr.searchFrom rounds seen before offset passed text = some m ∧
      m.skipped = passed.reverse ++ skipped ∧ m.text ≠ [] ∧ m.stop.rest = rest ∧
      m.groupText (.name "content") = '!' :: content := by
  intro text
  induction text with
  | nil =>
    intro passed before offset seen _ _ _
    exact ⟨fun _ => rfl, fun _ _ _ h => by cases h⟩
  | cons c s ih =>
    intro passed before offset seen hw hrounds hstale
    have hw' : whole.drop (offset + 1) = s := by
      rw [← List.tail_drop, hw]
      rfl
    obtain ⟨hnone, hsome⟩ := runAt_quotedTag before hw hrounds hstale
    rw [nextTag?, Expr.searchFrom]
    cases hc : closing? c s with
    | none =>
      obtain ⟨seen', hstale', hrun⟩ := hnone hc
      obtain ⟨hnone', hsome'⟩ := ih (c :: passed) (some c) hw'
        (Nat.le_of_succ_le hrounds) (hstale'.mono (Nat.le_succ _))
      simp only [hrun]
      refine ⟨fun h => hnone' (Option.map_eq_none_iff.mp h), fun skipped content rest h => ?_⟩
      obtain ⟨⟨skipped', found⟩, hs, heq⟩ := Option.map_eq_some_iff.mp h
      cases heq
      obtain ⟨m, hm, hskipped, hmatch⟩ := hsome' skipped' content rest hs
      exact ⟨m, hm, by simp [hskipped], hmatch⟩
    | some z =>
      obtain ⟨content, rest⟩ := z
      obtain ⟨q, seen', hrun, hrest, hoffset, hgroups⟩ := hsome content rest hc
      obtain ⟨-, s', rfl, hlast⟩ := closing?_eq_some hc
      obtain ⟨quote, rfl⟩ := lastQuote?_append hlast
      simp only [hrun]
      refine ⟨(by cases ·), fun _ _ _ h => ?_⟩
      cases h
      refine ⟨_, rfl, by simp, ?_, hrest, ?_⟩
      · rw [hoffset, show offset + content.length + 3 - offset = content.length + 2 + 1 by omega]
        exact List.cons_ne_nil _ _
      · rw [Match.groupText, hgroups]
        simp [Group.text]

/-! ### Texts -/

theorem readTemplate_content : readTemplate "$\x7bcontent\x7d".toList = [.ref (.name "content")] := by
  decide +kernel

/-- All tags in quotes are freed of them. -/
theorem replaceFrom_quotedTag {rounds : Nat} : ∀ {fuel : Nat} {behind : Bool} {before : Option Char}
    {offset : Nat} {text : List Char}, text.length < fuel → text.length ≤ rounds →
    replaceFrom quotedTag [.ref (.name "content")] rounds fuel behind before offset text =
      unquote text := by
  intro fuel
  induction fuel with
  | zero =>
    intro behind before offset text hfuel
    omega
  | succ fuel ih =>
    intro behind before offset text hfuel hrounds
    have hw : (List.replicate offset ' ' ++ text).drop offset = text := by simp
    obtain ⟨hnone, hsome⟩ := searchFrom_quotedTag [] before hw hrounds
      (stale_empty _ _)
    rw [replaceFrom.eq_def]
    simp only [search]
    cases ht : nextTag? text with
    | none => rw [hnone ht, unquote_of_nextTag?_none ht]
    | some z =>
      obtain ⟨skipped, content, rest⟩ := z
      obtain ⟨m, hm, hskipped, htext, hrest, hgroup⟩ := hsome skipped content rest ht
      have hlength := length_nextTag? ht
      have hexpand : m.expand [.ref (.name "content")] = '!' :: content := by
        rw [Match.expand, List.flatMap_singleton]
        exact hgroup
      rw [hm, unquote_of_nextTag? ht]
      simp only [List.isEmpty_eq_false_iff.mpr htext, Bool.and_false, Bool.false_eq_true, if_false,
        hskipped, hexpand, hrest, ih (show rest.length < fuel by omega) (show rest.length ≤ rounds by omega)]
      rfl

/-- The rule takes the quotes of a tag from each line. -/
theorem replaceAll_quotedTag (text : String) :
    quotedTag.replaceAll "$\x7bcontent\x7d" text = String.ofList (unquote text.toList) := by
  rw [replaceAll, readTemplate_content]
  refine congrArg String.ofList (replaceFrom_quotedTag ?_ ?_)
  · omega
  · rw [roundsIn]
    omega

end TaggedYaml.Pattern

namespace TaggedYaml

/-- Where no settings are given, the quotes of a tag are taken from each line. -/
theorem Settings.strip_default (text : String) :
    default.strip text = String.ofList (unquote text.toList) :=
  Pattern.replaceAll_quotedTag text

end TaggedYaml
