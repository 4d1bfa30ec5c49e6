import Mathlib.Data.List.Forall2

/-!
# Steps that may fail

A sequence of steps succeeds if each of its steps does.
-/

namespace TaggedYaml

variable {ε α α' β β' : Type}

theorem bind_ok {x : Except ε α} {a : α} (h : x = .ok a) (f : α → Except ε β) :
    (x >>= f) = f a := by
  rw [h]
  rfl

theorem bind_eq_ok {x : Except ε α} {f : α → Except ε β} {b : β} (h : x >>= f = .ok b) :
    ∃ a, x = .ok a ∧ f a = .ok b := by
  cases x with
  | error e => simp [bind, Except.bind] at h
  | ok a => exact ⟨a, rfl, h⟩

theorem bind_eq_error {x : Except ε α} {f : α → Except ε β} {e : ε} (h : x >>= f = .error e) :
    x = .error e ∨ ∃ a, x = .ok a ∧ f a = .error e := by
  cases x with
  | error e' => exact .inl (congrArg _ (Except.error.inj h))
  | ok a => exact .inr ⟨a, rfl, h⟩

theorem map_eq_ok {x : Except ε α} {f : α → β} {b : β} (h : x.map f = .ok b) :
    ∃ a, x = .ok a ∧ f a = b := by
  cases x with
  | error e => cases h
  | ok a => exact ⟨a, rfl, Except.ok.inj h⟩

theorem map_eq_error {x : Except ε α} {f : α → β} {e : ε} (h : x.map f = .error e) :
    x = .error e := by
  cases x with
  | error e' => exact congrArg _ (Except.error.inj h)
  | ok a => cases h

/-- A step ends, if it does not fail, in what has a property. -/
def Ends (x : Except ε α) (P : α → Prop) : Prop := ∀ a, x = .ok a → P a

variable {P : α → Prop} {Q : β → Prop}

theorem ends_ok {a : α} (h : P a) : Ends (.ok a : Except ε α) P := by
  intro b hb
  cases hb
  exact h

theorem ends_error (e : ε) : Ends (.error e) P := by
  intro a ha
  cases ha

theorem Ends.mono {x : Except ε α} (h : Ends x P) {P' : α → Prop} (hP : ∀ a, P a → P' a) :
    Ends x P' :=
  fun a ha => hP a (h a ha)

theorem Ends.bind {x : Except ε α} {f : α → Except ε β} (h : ∀ a, x = .ok a → Ends (f a) Q) :
    Ends (x >>= f) Q := by
  intro b hb
  obtain ⟨a, ha, hb⟩ := bind_eq_ok hb
  exact h a ha b hb

/-- What is done after a first step. -/
theorem Ends.andThen {x : Except ε α} {f : α → Except ε β} (hx : Ends x P)
    (h : ∀ a, P a → Ends (f a) Q) : Ends (x >>= f) Q :=
  .bind fun a ha => h a (hx a ha)

theorem Ends.mapError {ε' : Type} {x : Except ε α} (h : Ends x P) (f : ε → ε') :
    Ends (x.mapError f) P := by
  cases x with
  | error e => exact ends_error (f e)
  | ok a => exact ends_ok (h a rfl)

theorem forall₂_of_mapM {f : α → Except ε β} : ∀ {xs : List α} {ys : List β},
    xs.mapM f = .ok ys → List.Forall₂ (fun x y => f x = .ok y) xs ys
  | [], ys, h => by
    obtain rfl : [] = ys := by simpa [pure, Except.pure] using h
    exact .nil
  | x :: xs, ys, h => by
    rw [List.mapM_cons] at h
    obtain ⟨y, hy, h⟩ := bind_eq_ok h
    obtain ⟨ys', hys, h⟩ := bind_eq_ok h
    obtain rfl : y :: ys' = ys := by simpa [pure, Except.pure] using h
    exact .cons hy (forall₂_of_mapM hys)

theorem mapM_of_forall₂ {f : α → Except ε β} {xs : List α} {ys : List β}
    (h : List.Forall₂ (fun x y => f x = .ok y) xs ys) : xs.mapM f = .ok ys := by
  induction h with
  | nil => rfl
  | cons hy _ ih =>
    rw [List.mapM_cons, bind_ok hy, bind_ok ih]
    rfl

theorem exists_of_mapM {f : α → Except ε β} : ∀ {xs : List α} {ys : List β},
    xs.mapM f = .ok ys → ∀ x ∈ xs, ∃ y ∈ ys, f x = .ok y
  | [], _, _, x, hx => by simp at hx
  | x :: xs, ys, h, x', hx => by
    rw [List.mapM_cons] at h
    obtain ⟨y, hy, h⟩ := bind_eq_ok h
    obtain ⟨ys', hys, h⟩ := bind_eq_ok h
    obtain rfl := Except.ok.inj h
    rcases List.mem_cons.mp hx with rfl | hx
    · exact ⟨y, List.mem_cons_self, hy⟩
    · obtain ⟨y', hy', h⟩ := exists_of_mapM hys x' hx
      exact ⟨y', List.mem_cons_of_mem _ hy', h⟩

/-- What becomes of each result may be done to all of them. -/
theorem mapM_map {γ : Type} {f : α → Except ε β} (g : β → γ) : ∀ xs : List α,
    (xs.mapM f).map (List.map g) = xs.mapM fun x => (f x).map g
  | [] => rfl
  | x :: xs => by
    rw [List.mapM_cons, List.mapM_cons, ← mapM_map g xs]
    cases f x with
    | error e => rfl
    | ok y =>
      cases xs.mapM f with
      | error e => rfl
      | ok ys => rfl

/-- A sequence of steps fails with the error of one of them. -/
theorem exists_of_mapM_error {f : α → Except ε β} {e : ε} : ∀ {xs : List α},
    xs.mapM f = .error e → ∃ x ∈ xs, f x = .error e
  | [], h => by cases h
  | x :: xs, h => by
    rw [List.mapM_cons] at h
    rcases bind_eq_error h with h | ⟨y, -, h⟩
    · exact ⟨x, List.mem_cons_self, h⟩
    rcases bind_eq_error h with h | ⟨ys, -, h⟩
    · obtain ⟨x', hx', h⟩ := exists_of_mapM_error h
      exact ⟨x', List.mem_cons_of_mem _ hx', h⟩
    · cases h

/-- Steps fail where the first of them does. -/
theorem mapM_eq_error {f : α → Except ε β} {e : ε} : ∀ {xs : List α},
    xs.mapM f = .error e ↔ ∃ before x behind, xs = before ++ x :: behind ∧
      (∀ y ∈ before, ∃ b, f y = .ok b) ∧ f x = .error e
  | [] => by simp [pure, Except.pure]
  | x :: xs => by
    rw [List.mapM_cons]
    cases hx : f x with
    | error e' =>
      constructor
      · intro h
        obtain rfl := Except.error.inj h
        exact ⟨[], x, xs, rfl, by simp, hx⟩
      · rintro ⟨before, y, behind, heq, hbefore, hy⟩
        cases before with
        | nil =>
          obtain ⟨rfl, -⟩ := List.cons_eq_cons.mp heq
          exact congrArg Except.error (Except.error.inj (hx.symm.trans hy))
        | cons z before =>
          obtain ⟨rfl, -⟩ := List.cons_eq_cons.mp heq
          obtain ⟨b, hb⟩ := hbefore x List.mem_cons_self
          rw [hx] at hb
          cases hb
    | ok b =>
      have hrest : (do
          let bs ← xs.mapM f
          pure (b :: bs) : Except ε (List β)) = .error e ↔ xs.mapM f = .error e := by
        cases xs.mapM f <;> simp [bind, Except.bind, pure, Except.pure]
      rw [bind_ok rfl, hrest, mapM_eq_error]
      constructor
      · rintro ⟨before, y, behind, rfl, hbefore, hy⟩
        exact ⟨x :: before, y, behind, rfl, List.forall_mem_cons.mpr ⟨⟨b, hx⟩, hbefore⟩, hy⟩
      · rintro ⟨before, y, behind, heq, hbefore, hy⟩
        cases before with
        | nil =>
          obtain ⟨rfl, -⟩ := List.cons_eq_cons.mp heq
          rw [hx] at hy
          cases hy
        | cons z before =>
          obtain ⟨-, rfl⟩ := List.cons_eq_cons.mp heq
          exact ⟨before, y, behind, rfl, (List.forall_mem_cons.mp hbefore).2, hy⟩

theorem exists_of_foldlM_error {f : β → α → Except ε β} {e : ε} : ∀ {xs : List α} {b : β},
    xs.foldlM f b = .error e → ∃ x ∈ xs, ∃ b', f b' x = .error e
  | [], _, h => by cases h
  | x :: xs, b, h => by
    rw [List.foldlM_cons] at h
    rcases bind_eq_error h with h | ⟨b₁, -, h⟩
    · exact ⟨x, List.mem_cons_self, b, h⟩
    · obtain ⟨x', hx', h⟩ := exists_of_foldlM_error h
      exact ⟨x', List.mem_cons_of_mem _ hx', h⟩

theorem exists_of_foldlM {f : β → α → Except ε β} : ∀ {xs : List α} {b b' : β},
    xs.foldlM f b = .ok b' → ∀ x ∈ xs, ∃ b₁ b₂, f b₁ x = .ok b₂
  | [], _, _, _, x, hx => by simp at hx
  | x :: xs, b, b', h, x', hx => by
    rw [List.foldlM_cons] at h
    obtain ⟨b₁, hb₁, h⟩ := bind_eq_ok h
    rcases List.mem_cons.mp hx with rfl | hx
    · exact ⟨b, b₁, hb₁⟩
    · exact exists_of_foldlM h x' hx

theorem mapM_ok {f : α → Except ε β} : ∀ {xs : List α}, (∀ x ∈ xs, ∃ y, f x = .ok y) →
    ∃ ys, xs.mapM f = .ok ys
  | [], _ => ⟨[], rfl⟩
  | x :: xs, h => by
    rw [List.forall_mem_cons] at h
    obtain ⟨y, hy⟩ := h.1
    obtain ⟨ys, hys⟩ := mapM_ok h.2
    refine ⟨y :: ys, ?_⟩
    rw [List.mapM_cons, bind_ok hy, bind_ok hys]
    rfl

theorem foldlM_ok {f : β → α → Except ε β} : ∀ {xs : List α}, (∀ x ∈ xs, ∀ b, ∃ b', f b x = .ok b') →
    ∀ b, ∃ b', xs.foldlM f b = .ok b'
  | [], _, b => ⟨b, rfl⟩
  | x :: xs, h, b => by
    rw [List.forall_mem_cons] at h
    obtain ⟨b₁, hb₁⟩ := h.1 b
    rw [List.foldlM_cons, bind_ok hb₁]
    exact foldlM_ok h.2 b₁

/-! ### Steps of which only the result matters -/

theorem toOption_bind (x : Except ε α) (f : α → Except ε β) :
    (x >>= f).toOption = x.toOption.bind fun a => (f a).toOption := by
  cases x <;> rfl

theorem toOption_map (x : Except ε α) (f : α → β) : (x.map f).toOption = x.toOption.map f := by
  cases x <;> rfl

theorem toOption_eq_some {x : Except ε α} {a : α} : x.toOption = some a ↔ x = .ok a := by
  cases x <;> simp [Except.toOption]

theorem toOption_mapM_congr {f g : α → Except ε β} : ∀ {xs : List α},
    (∀ x ∈ xs, (f x).toOption = (g x).toOption) → (xs.mapM f).toOption = (xs.mapM g).toOption
  | [], _ => rfl
  | x :: xs, h => by
    rw [List.forall_mem_cons] at h
    rw [List.mapM_cons, List.mapM_cons, toOption_bind, toOption_bind, h.1]
    refine congrArg _ (funext fun y => ?_)
    rw [toOption_bind, toOption_bind, toOption_mapM_congr h.2]

/-! ### Two sequences of steps -/

theorem mapM_congr {f g : α → Except ε β} : ∀ {xs : List α}, (∀ x ∈ xs, f x = g x) →
    xs.mapM f = xs.mapM g
  | [], _ => rfl
  | x :: xs, h => by
    rw [List.forall_mem_cons] at h
    rw [List.mapM_cons, List.mapM_cons, h.1, mapM_congr h.2]

theorem foldlM_congr {f g : β → α → Except ε β} : ∀ {xs : List α} {b : β},
    (∀ x ∈ xs, ∀ b, f b x = g b x) → xs.foldlM f b = xs.foldlM g b
  | [], _, _ => rfl
  | x :: xs, b, h => by
    rw [List.forall_mem_cons] at h
    rw [List.foldlM_cons, List.foldlM_cons, h.1 b]
    exact bind_congr fun _ => foldlM_congr h.2

/-- Steps that succeed where others do have the same results. -/
theorem mapM_mono {f g : α → Except ε β} {xs : List α} {ys : List β}
    (h : ∀ x ∈ xs, ∀ y, f x = .ok y → g x = .ok y) (hf : xs.mapM f = .ok ys) :
    xs.mapM g = .ok ys := by
  have hfg : ∀ x ∈ xs, f x = g x := by
    intro x hx
    obtain ⟨y, -, hy⟩ := exists_of_mapM hf x hx
    rw [hy, h x hx y hy]
  rw [← mapM_congr hfg]
  exact hf

theorem foldlM_mono {f g : β → α → Except ε β} : ∀ {xs : List α} {b b' : β},
    (∀ x ∈ xs, ∀ b b', f b x = .ok b' → g b x = .ok b') → xs.foldlM f b = .ok b' →
    xs.foldlM g b = .ok b'
  | [], _, _, _, hf => hf
  | x :: xs, b, b', h, hf => by
    rw [List.forall_mem_cons] at h
    rw [List.foldlM_cons] at hf ⊢
    obtain ⟨b₁, hb₁, hf⟩ := bind_eq_ok hf
    rw [bind_ok (h.1 b b₁ hb₁)]
    exact foldlM_mono h.2 hf

/-- How a step ends, without its result. -/
def verdict (x : Except ε α) : Except ε Unit := x.map fun _ => ()

theorem verdict_map (f : α → β) (x : Except ε α) : verdict (x.map f) = verdict x := by
  cases x <;> rfl

theorem verdict_eq_error {x : Except ε α} {e : ε} : verdict x = .error e ↔ x = .error e := by
  cases x <;> simp [verdict, Except.map]

theorem verdict_eq_ok {x : Except ε α} : verdict x = .ok () ↔ ∃ a, x = .ok a := by
  cases x <;> simp [verdict, Except.map]

/-- Two steps with one verdict either both succeed or both fail with one error. -/
theorem ends_of_verdict {x : Except ε α} {y : Except ε β} (h : verdict x = verdict y) :
    ((∃ a, x = .ok a) ∧ ∃ b, y = .ok b) ∨ ∃ e, x = .error e ∧ y = .error e := by
  cases x with
  | error e => exact .inr ⟨e, rfl, verdict_eq_error.mp h.symm⟩
  | ok a => exact .inl ⟨⟨a, rfl⟩, verdict_eq_ok.mp h.symm⟩

theorem verdict_bind {x : Except ε α} {y : Except ε β} {f : α → Except ε α'} {g : β → Except ε β'}
    (h : verdict x = verdict y) (hfg : ∀ a b, x = .ok a → y = .ok b → verdict (f a) = verdict (g b)) :
    verdict (x >>= f) = verdict (y >>= g) := by
  rcases ends_of_verdict h with ⟨⟨a, rfl⟩, b, rfl⟩ | ⟨e, rfl, rfl⟩
  · exact hfg a b rfl rfl
  · rfl

/-- Lists of steps with equal verdicts have one verdict. -/
theorem verdict_mapM {f : α → Except ε β} {g : α → Except ε β'} : ∀ {xs : List α},
    (∀ x ∈ xs, verdict (f x) = verdict (g x)) → verdict (xs.mapM f) = verdict (xs.mapM g)
  | [], _ => rfl
  | x :: xs, h => by
    rw [List.forall_mem_cons] at h
    rw [List.mapM_cons, List.mapM_cons]
    refine verdict_bind h.1 ?_
    intro y z _ _
    refine verdict_bind (verdict_mapM h.2) ?_
    intro ys zs _ _
    rfl

/-- Nothing is said of what is passed from step to step. -/
theorem verdict_foldlM {f : β → α → Except ε β} {g : α → Except ε β'} : ∀ {xs : List α} {b : β},
    (∀ x ∈ xs, ∀ b, verdict (f b x) = verdict (g x)) → verdict (xs.foldlM f b) = verdict (xs.mapM g)
  | [], _, _ => rfl
  | x :: xs, b, h => by
    rw [List.forall_mem_cons] at h
    rw [List.foldlM_cons, List.mapM_cons]
    refine verdict_bind (h.1 b) ?_
    intro b₁ y _ _
    rw [← bind_pure (xs.foldlM f b₁)]
    refine verdict_bind (verdict_foldlM h.2) ?_
    intro b₂ ys _ _
    rfl

end TaggedYaml
