import TaggedYaml.Proofs.Event.Anchors

/-!
# Grammar — the reader of events keeps to the grammar of nodes

A text is read as the events of one node, or as none (`Scan.isDocument_events`).
-/

namespace TaggedYaml

open Event

/-- The events of a document: those of its value, if it has one. -/
def Event.IsDocument (es : List Event) : Prop := es = [] ∨ IsNode es

/-- Events that are read towards a goal. -/
def Goal.Reads : Goal → List Event → Prop
  | .node, es | .content _, es | .member, es => IsNode es
  | .items, es => ∃ items, IsItems items ∧ es = items ++ [.closeSequence]
  | .entries, es => ∃ entries, IsEntries entries ∧ es = entries ++ [.closeMapping]
  | .value, es => ∃ value entries, IsNode value ∧ IsEntries entries ∧
      es = value ++ (entries ++ [.closeMapping])
  | .pairKey, es => ∃ key value items, IsNode key ∧ IsNode value ∧ IsItems items ∧
      es = key ++ (value ++ .closeMapping :: (items ++ [.closeSequence]))
  | .pairValue, es => ∃ value items, IsNode value ∧ IsItems items ∧
      es = value ++ .closeMapping :: (items ++ [.closeSequence])

theorem Event.isEntries_pair {key value : List Event} (hk : IsNode key) (hv : IsNode value) :
    IsEntries (key ++ value) := by
  simpa using IsEntries.cons hk hv .nil

namespace EventReader

variable {r r' r₁ : EventReader} {es es' : List Event}

/-- What was read between two moments. -/
def Adds (r : EventReader) (es : List Event) (r' : EventReader) : Prop :=
  r'.past = es.reverse ++ r.past

theorem Adds.trans (h : Adds r es r₁) (h' : Adds r₁ es' r') : Adds r (es ++ es') r' := by
  rw [Adds, h', h, List.reverse_append, List.append_assoc]

theorem Passes.push (h : Passes r r') (m : Mark) (e : Event) : Adds r [e] (r'.push m e) := by
  show e :: r'.past = _
  rw [h.past]
  rfl

/-- Properties are events only with the content behind them. -/
theorem past_properties {p : Properties} (hp : r.properties = .ok (p, r')) : r'.past = r.past := by
  unfold EventReader.properties at hp
  obtain ⟨t, -, hp⟩ := bind_eq_ok hp
  split at hp
  · obtain ⟨u, -, hp⟩ := bind_eq_ok hp
    split at hp
    · obtain ⟨tag, -, hp⟩ := bind_eq_ok hp
      cases hp
      rfl
    · cases hp
      rfl
  · obtain ⟨tag, -, hp⟩ := bind_eq_ok hp
    obtain ⟨u, -, hp⟩ := bind_eq_ok hp
    split at hp
    · cases hp
      rfl
    · cases hp
      rfl
  · cases hp
    rfl

/-- A derivation adds events of its goal. -/
theorem Derives.reads {g : Goal} (h : Derives g r r') : ∃ es, Adds r es r' ∧ g.Reads es := by
  induction h with
  | «alias» m hp _ => exact ⟨_, hp.push m _, .alias _⟩
  | properties hp _ ih =>
    obtain ⟨es, hadds, hes⟩ := ih
    exact ⟨es, by rw [Adds, hadds, past_properties hp], hes⟩
  | scalar m _ _ _ hp => exact ⟨_, hp.push m _, .scalar ..⟩
  | sequence m hp _ ih =>
    obtain ⟨_, hadds, items, hitems, rfl⟩ := ih
    exact ⟨_, (hp.push m _).trans hadds, .sequence _ _ hitems⟩
  | mapping m hp _ ih =>
    obtain ⟨_, hadds, entries, hentries, rfl⟩ := ih
    exact ⟨_, (hp.push m _).trans hadds, .mapping _ _ hentries⟩
  | node hp _ ih =>
    obtain ⟨es, hadds, hes⟩ := ih
    exact ⟨es, by rw [Adds, hadds, hp.past], hes⟩
  | empty m hp => exact ⟨_, hp.push m _, .scalar ..⟩
  | item _ _ ih ih' =>
    obtain ⟨member, hadds, hmember⟩ := ih
    obtain ⟨_, hadds', items, hitems, rfl⟩ := ih'
    exact ⟨_, hadds.trans hadds', _, .cons hmember hitems, by rw [List.append_assoc]⟩
  | pair m hp _ ih =>
    obtain ⟨_, hadds, key, value, items, hk, hv, hitems, rfl⟩ := ih
    refine ⟨_, (hp.push m _).trans hadds, _,
      .cons (.mapping "" none (isEntries_pair hk hv)) hitems, by simp⟩
  | closeItems m hp => exact ⟨_, hp.push m _, [], .nil, rfl⟩
  | key _ _ ih ih' =>
    obtain ⟨key, hadds, hk⟩ := ih
    obtain ⟨_, hadds', value, entries, hv, hentries, rfl⟩ := ih'
    exact ⟨_, hadds.trans hadds', _, .cons hk hv hentries, by simp⟩
  | closeEntries m hp => exact ⟨_, hp.push m _, [], .nil, rfl⟩
  | value _ _ ih ih' =>
    obtain ⟨value, hadds, hv⟩ := ih
    obtain ⟨_, hadds', entries, hentries, rfl⟩ := ih'
    exact ⟨_, hadds.trans hadds', value, entries, hv, hentries, rfl⟩
  | pairKey _ _ ih ih' =>
    obtain ⟨key, hadds, hk⟩ := ih
    obtain ⟨_, hadds', value, items, hv, hitems, rfl⟩ := ih'
    exact ⟨_, hadds.trans hadds', key, value, items, hk, hv, hitems, rfl⟩
  | pairValue m _ _ ih ih' =>
    obtain ⟨value, hadds, hv⟩ := ih
    obtain ⟨_, hadds', items, hitems, rfl⟩ := ih'
    exact ⟨_, (hadds.trans ((Passes.refl _).push m _)).trans hadds', value, items, hv, hitems,
      by simp⟩

end EventReader

/-- The events of a text are those of one node, or there are none. -/
theorem Scan.isDocument_events {s : Scan} {es : List (Marked Event)} (h : s.namedEvents = .ok es) :
    IsDocument (es.map (·.item)) := by
  rw [Scan.namedEvents_eq] at h
  obtain ⟨r, hr, rfl⟩ := map_eq_ok h
  rw [List.map_reverse]
  rcases EventReader.derives_document _ r hr with hp | hd
  · have hpast := hp.past
    exact .inl (by rw [← EventReader.past, hpast]; rfl)
  · obtain ⟨es, hadds, hes⟩ := hd.reads
    have hpast : r.past = es.reverse ++ [] := hadds
    rw [← EventReader.past, hpast, List.append_nil, List.reverse_reverse]
    exact .inr hes

end TaggedYaml
