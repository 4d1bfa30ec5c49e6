import Mathlib.Logic.Relation
import TaggedYaml.Token.Scan

/-!
# Progress — a scan, one token at a time

A `Progress` is a scan under way.  `Reads p Q` says that some rounds of `scan` lead from `p` to a
scan with `Q`; each round shortens the text, so `scan` has enough of them (`scanLoop_of_steps`).
Tokens leave the queue when no key can begin before them; the list of all words (`words`) does not
depend on that, and the places of keys are counted in it (`Sound`).
-/

namespace TaggedYaml

/-- A scan under way: the tokens handed on, last first, and the lexer behind them. -/
structure Progress where
  sent : List (Marked Token)
  lexer : Lexer

namespace Progress

/-- The words read so far, whether or not they were handed on. -/
def words (p : Progress) : List Token :=
  (p.sent.reverse ++ p.lexer.queue.toList).map (·.item)

/-- What is left of the text. -/
def rest (p : Progress) : List Char := p.lexer.cursor.rest

/-- Hands on what need not wait. -/
def release (p : Progress) : Progress := ⟨p.lexer.release.1.reverse ++ p.sent, p.lexer.release.2⟩

/-- Tokens are counted as they are handed on, and no key begins before one of them. -/
structure Sound (p : Progress) : Prop where
  sent_length : p.sent.length = p.lexer.sent
  spots : ∀ s ∈ p.lexer.spots, s.possible → p.lexer.sent ≤ s.number ∧ s.number ≤ p.lexer.count

/-- One round of `scan`. -/
def Step (p q : Progress) : Prop :=
  ∃ l, p.lexer.readToken.bind Lexer.dropStale = .ok l ∧ l.finished = false ∧
    q = release ⟨p.sent, l⟩ ∧ q.rest.length < p.rest.length

/-- Some rounds of `scan` lead from `p` to a scan with `Q`. -/
def Reads (p : Progress) (Q : Progress → Prop) : Prop := ∃ q, Relation.ReflTransGen Step p q ∧ Q q

variable {p q : Progress} {Q Q' : Progress → Prop}

theorem Reads.here (h : Q p) : Reads p Q := ⟨p, .refl, h⟩

theorem Reads.mono (h : Reads p Q) (hQ : ∀ q, Q q → Q' q) : Reads p Q' := by
  obtain ⟨q, hs, hq⟩ := h
  exact ⟨q, hs, hQ q hq⟩

theorem Reads.trans (h : Reads p Q) (hQ : ∀ q, Q q → Reads q Q') : Reads p Q' := by
  obtain ⟨q, hs, hq⟩ := h
  obtain ⟨r, hs', hr⟩ := hQ q hq
  exact ⟨r, hs.trans hs', hr⟩

theorem Reads.of_step (h : Step p q) (hQ : Q q) : Reads p Q := ⟨q, .single h, hQ⟩

/-! ### Rounds -/

theorem scanLoop_of_step (h : Step p q) (fuel : Nat) :
    Lexer.scanLoop (fuel + 1) p.sent p.lexer = Lexer.scanLoop fuel q.sent q.lexer := by
  obtain ⟨l, hl, hf, rfl, -⟩ := h
  have hf' : l.release.2.finished = false := hf
  simp only [Lexer.scanLoop, hl, hf', release]
  rfl

/-- Where the rounds are more than the characters left, there are still more behind some steps. -/
theorem scanLoop_of_steps (h : Relation.ReflTransGen Step p q) {fuel : Nat}
    (hf : p.rest.length < fuel) :
    ∃ fuel', q.rest.length < fuel' ∧
      Lexer.scanLoop fuel p.sent p.lexer = Lexer.scanLoop fuel' q.sent q.lexer := by
  induction h with
  | refl => exact ⟨fuel, hf, rfl⟩
  | tail _ hs ih =>
    obtain ⟨fuel', hlt, heq⟩ := ih
    obtain ⟨n, rfl⟩ : ∃ n, fuel' = n + 1 := ⟨fuel' - 1, by omega⟩
    have hlen := hs.choose_spec.2.2.2
    exact ⟨n, by omega, heq.trans (scanLoop_of_step hs n)⟩

/-! ### Handing tokens on -/

theorem words_release (p : Progress) : p.release.words = p.words := by
  have h (n : Nat) : (p.lexer.queue.extract n).toList = p.lexer.queue.toList.drop n := by
    rw [Array.toList_extract, List.extract_eq_take_drop]
    exact List.take_of_length_le (by simp)
  simp only [words, release, Lexer.release, h, Array.toList_extract, List.extract_eq_take_drop,
    List.reverse_append, List.reverse_reverse, List.append_assoc, List.drop_zero, Nat.sub_zero,
    List.take_append_drop]

/-- The number of the first token that a key may begin before, if it is less than `n`. -/
def firstNumber (spots : List KeySpot) (n : Nat) : Nat :=
  spots.foldl (fun n s => if s.possible then min n s.number else n) n

theorem firstNumber_le (spots : List KeySpot) (n : Nat) :
    firstNumber spots n ≤ n ∧ ∀ s ∈ spots, s.possible → firstNumber spots n ≤ s.number := by
  induction spots generalizing n with
  | nil => simp [firstNumber]
  | cons s spots ih =>
    obtain ⟨h1, h2⟩ := ih (if s.possible then min n s.number else n)
    have heq : firstNumber (s :: spots) n =
        firstNumber spots (if s.possible then min n s.number else n) := rfl
    rw [heq]
    refine ⟨Nat.le_trans h1 (by split <;> omega), fun r hr hp => ?_⟩
    rcases List.mem_cons.mp hr with rfl | hr
    · exact Nat.le_trans h1 (by rw [if_pos hp]; omega)
    · exact h2 r hr hp

theorem le_firstNumber {spots : List KeySpot} {m n : Nat} (hn : m ≤ n)
    (h : ∀ s ∈ spots, s.possible → m ≤ s.number) : m ≤ firstNumber spots n := by
  induction spots generalizing n with
  | nil => exact hn
  | cons s spots ih =>
    have hm : m ≤ if s.possible then min n s.number else n := by
      split
      · have := h s (List.mem_cons_self ..) (by assumption)
        omega
      · exact hn
    exact ih hm fun r hr => h r (List.mem_cons_of_mem _ hr)

theorem Sound.le_ready (h : Sound p) : p.lexer.sent ≤ p.lexer.ready :=
  le_firstNumber (Nat.le_add_right ..) fun s hs hp => (h.spots s hs hp).1

theorem ready_le_count (l : Lexer) : l.ready ≤ l.count := (firstNumber_le _ _).1

/-- Handing tokens on leaves the count of tokens as it is. -/
theorem Sound.release (h : Sound p) :
    Sound p.release ∧ p.release.lexer.count = p.lexer.count := by
  have h1 := h.le_ready
  have h2 := ready_le_count p.lexer
  have hcount : p.release.lexer.count = p.lexer.count := by
    simp only [Progress.release, Lexer.release, Lexer.count, Array.size_extract] at h2 ⊢
    omega
  refine ⟨⟨?_, fun s hs hp => ?_⟩, hcount⟩
  · simp only [Progress.release, Lexer.release, List.length_append, List.length_reverse,
      Array.length_toList, Array.size_extract, h.sent_length, Lexer.count] at h2 ⊢
    omega
  · have h3 : p.lexer.ready ≤ s.number := (firstNumber_le _ _).2 s hs hp
    rw [hcount]
    exact ⟨by simp only [Progress.release, Lexer.release]; omega, (h.spots s hs hp).2⟩

/-! ### Words -/

theorem words_push (sent : List (Marked Token)) (l : Lexer) (m : Mark) (t : Token) :
    words ⟨sent, l.push m t⟩ = words ⟨sent, l⟩ ++ [t] := by
  simp [words, Lexer.push]

theorem words_append (sent : List (Marked Token)) (l : Lexer) (n : Nat) (m : Mark) (t : Token) :
    words ⟨sent, { l with queue := l.queue ++ Array.replicate n ⟨m, t⟩ }⟩ =
      words ⟨sent, l⟩ ++ List.replicate n t := by
  simp [words]

theorem insertIdx_append_length {α : Type} (xs ys : List α) (a : α) :
    (xs ++ ys).insertIdx xs.length a = xs ++ a :: ys := by
  induction xs with
  | nil => simp
  | cons x xs ih => simp [ih]

theorem length_words (p : Progress) (h : p.sent.length = p.lexer.sent) :
    p.words.length = p.lexer.count := by
  simp [words, Lexer.count, h]

/-- A token goes in front of the one with its number. -/
theorem words_insert {sent : List (Marked Token)} {l : Lexer} {xs ys : List Token}
    (h : sent.length = l.sent) (hle : l.sent ≤ xs.length)
    (hw : words ⟨sent, l⟩ = xs ++ ys) (m : Mark) (t : Token) :
    words ⟨sent, l.insert xs.length m t⟩ = xs ++ t :: ys := by
  obtain ⟨qs, hq⟩ : ∃ qs, l.queue = qs.toArray := ⟨l.queue.toList, by simp⟩
  simp only [words, hq, List.map_append] at hw
  have hle' : (sent.reverse.map (·.item)).length ≤ xs.length := by simpa [h] using hle
  obtain ⟨as, rfl⟩ : ∃ as, xs = sent.reverse.map (·.item) ++ as := by
    rcases List.append_eq_append_iff.mp hw with ⟨a, hx, -⟩ | ⟨a, hx, -⟩
    · exact ⟨a, hx⟩
    · rw [hx, List.length_append] at hle'
      have : a = [] := List.length_eq_zero_iff.mp (by omega)
      exact ⟨[], by simpa [this] using hx.symm⟩
  rw [List.append_assoc, List.append_cancel_left_eq] at hw
  obtain ⟨us, vs, rfl, rfl, rfl⟩ := List.map_eq_append_iff.mp hw
  have hn : (sent.reverse.map (·.item) ++ us.map (·.item)).length - l.sent = us.length := by
    simp [h]
  simp only [words, Lexer.insert, hq, hn, List.insertIdxIfInBounds_toArray,
    insertIdx_append_length]
  simp

/-- A token may go in front of one that is still in the queue. -/
theorem Sound.insert {sent : List (Marked Token)} {l : Lexer} {xs ys : List Token}
    (h : Sound ⟨sent, l⟩) (hle : l.sent ≤ xs.length) (hw : words ⟨sent, l⟩ = xs ++ ys) (m : Mark)
    (t : Token) : Sound ⟨sent, l.insert xs.length m t⟩ := by
  have h1 := length_words ⟨sent, l⟩ h.sent_length
  have h2 := length_words ⟨sent, l.insert xs.length m t⟩ h.sent_length
  rw [words_insert h.sent_length hle hw] at h2
  rw [hw] at h1
  simp only [List.length_append, List.length_cons] at h1 h2
  refine ⟨h.sent_length, fun s hs hp => ?_⟩
  have := h.spots s hs hp
  simp only at this ⊢
  exact ⟨this.1, by omega⟩

theorem back?_extract {α : Type} (xs : Array α) (n : Nat) :
    (xs.extract n).back? = none ∨ (xs.extract n).back? = xs.back? := by
  rcases Nat.lt_or_ge n xs.size with h | h
  · right
    simp only [Array.back?, Array.size_extract, Array.getElem?_extract]
    rw [if_pos (by omega)]
    congr 1
    omega
  · left
    simp [Array.back?]
    omega

/-! ### A round from what it reads -/

/-- The spots that are left when keys too far back are given up. -/
def freshSpots (l : Lexer) : List KeySpot := l.spots.map fun s => if l.isStale s then s.clear else s

theorem dropStale_eq {l : Lexer} (h : ∀ s ∈ l.spots, l.isStale s → s.required = false) :
    l.dropStale = .ok { l with spots := freshSpots l } := by
  rw [Lexer.dropStale, if_neg]
  · rfl
  · simp only [List.any_eq_true, Bool.and_eq_true, not_exists, not_and, Bool.not_eq_true]
    intro s hs hst
    exact h s hs hst

theorem Sound.fresh {sent : List (Marked Token)} {l : Lexer} (h : Sound ⟨sent, l⟩) :
    Sound ⟨sent, { l with spots := freshSpots l }⟩ := by
  refine ⟨h.sent_length, fun s hs hp => ?_⟩
  obtain ⟨r, hr, rfl⟩ := List.mem_map.mp hs
  by_cases hst : l.isStale r
  · simp [hst, KeySpot.clear] at hp
  · simp only [hst, Bool.false_eq_true, if_false] at hp ⊢
    exact h.spots r hr hp

/-- The scan behind a token, by the lexer that read it. -/
structure Behind (sent : List (Marked Token)) (l : Lexer) (q : Progress) : Prop where
  sound : Sound q
  words_eq : q.words = words ⟨sent, l⟩
  lone : q.lexer.loneProperty? = none ∨ q.lexer.loneProperty? = l.loneProperty?
  lexer_eq : q.lexer =
    { l with queue := q.lexer.queue, sent := q.lexer.sent, spots := freshSpots l }

theorem exists_step {p : Progress} {l : Lexer} (h : p.lexer.readToken = .ok l)
    (hf : l.finished = false) (hlen : l.cursor.rest.length < p.rest.length)
    (hs : Sound ⟨p.sent, l⟩) (hst : ∀ s ∈ l.spots, l.isStale s → s.required = false) :
    ∃ q, Step p q ∧ Behind p.sent l q := by
  have hd := dropStale_eq hst
  have hsound := hs.fresh.release
  refine ⟨_, ⟨{ l with spots := freshSpots l }, ?_, hf, rfl, hlen⟩, hsound.1, ?_, ?_, rfl⟩
  · rw [h]
    exact hd
  · exact words_release _
  · rcases back?_extract l.queue
      ({ l with spots := freshSpots l }.ready - l.sent) with hb | hb
    · left
      simp only [release, Lexer.release, Lexer.loneProperty?, hb]
    · right
      simp only [release, Lexer.release, Lexer.loneProperty?, hb]

/-! ### The end of a scan -/

/-- Behind the last token nothing waits. -/
theorem scanLoop_of_finished {l : Lexer} (h : q.lexer.readToken.bind Lexer.dropStale = .ok l)
    (hf : l.finished = true) (hs : ∀ s ∈ l.spots, s.possible = false)
    (fuel : Nat) :
    (Lexer.scanLoop (fuel + 1) q.sent q.lexer).tokens = q.sent.reverse ++ l.queue.toList := by
  have hready : l.ready = l.count :=
    Nat.le_antisymm (ready_le_count l) (le_firstNumber (Nat.le_refl _) fun s hm hp => by
      simp [hs s hm] at hp)
  simp only [Lexer.scanLoop, h, Lexer.release, hf, if_true, hready, Lexer.count,
    List.reverse_append, List.reverse_reverse]
  simp

end Progress

end TaggedYaml
