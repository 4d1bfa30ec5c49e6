import TaggedYaml.Proofs.Event.Derives

/-!
# Anchors — which node an alias means

The reader numbers anchors in the order in which it meets them, gives each of them to one event, and
takes an alias for the latest anchor of its name (`Scan.bound_events`).  No anchor that is written is
left out on the way, so the first anchors of a text are those of its events (`Scan.names_events`), and
to look up a number among the written names gives the name that the reader met
(`Scan.namedEvents_eq`).
-/

namespace TaggedYaml

namespace Event

/-- The anchor of the node that begins with an event. -/
def anchor? : Event → Option Anchor
  | .scalar _ _ _ anchor => anchor
  | .openSequence _ anchor => anchor
  | .openMapping _ anchor => anchor
  | _ => none

/-- The anchors of events. -/
def anchors (es : List Event) : List Anchor := es.filterMap anchor?

/-- A new anchor has the next number, and an alias means the latest anchor of its name; `known` are
the anchors before, latest first. -/
def Fits (known : List Anchor) : Event → Prop
  | .alias a => known.find? (·.name == a.name) = some a
  | e => ∀ a, e.anchor? = some a → a.number = known.length + 1

/-- Events, latest first, each of which fits the anchors before it. -/
def Bound : List Event → Prop
  | [] => True
  | e :: before => e.Fits (anchors before) ∧ Bound before

theorem anchors_cons (e : Event) (es : List Event) :
    anchors (e :: es) = e.anchor?.toList ++ anchors es := by
  rw [anchors, List.filterMap_cons]
  cases e.anchor? with
  | none => rfl
  | some a => rfl

/-! ### Names by numbers -/

variable {e : Event} {past : List Event} {a : Anchor} {names : List String}

/-- The anchor of an event, or the one that it leads to. -/
def mentioned? : Event → Option Anchor
  | .alias a => some a
  | e => e.anchor?

/-- What events mention are their anchors. -/
theorem mem_anchors_of_mentioned (h : Bound past) (he : e ∈ past) (ha : e.mentioned? = some a) :
    a ∈ anchors past := by
  induction past with
  | nil => cases he
  | cons e' before ih =>
    rw [anchors_cons]
    rcases List.mem_cons.mp he with rfl | he
    · cases e with
      | «alias» target =>
        obtain rfl := Option.some.inj ha
        exact List.mem_append_right _ (List.mem_of_find?_eq_some h.1)
      | _ => exact List.mem_append_left _ (Option.mem_toList.mpr ha)
    · exact List.mem_append_right _ (ih h.2 he)

/-- Anchors are numbered from 1 in their order. -/
theorem getElem?_anchors (h : Bound past) (ha : a ∈ anchors past) :
    ∃ place, a.number = place + 1 ∧ (anchors past).reverse[place]? = some a := by
  induction past with
  | nil => cases ha
  | cons e before ih =>
    rw [anchors_cons] at ha ⊢
    rw [List.reverse_append]
    rcases List.mem_append.mp ha with ha | ha
    · have hanchor : e.anchor? = some a := Option.mem_toList.mp ha
      refine ⟨(anchors before).length, ?_, by simp [hanchor]⟩
      have hfits := h.1
      cases e with
      | «alias» target => cases hanchor
      | _ => exact hfits a hanchor
    · obtain ⟨place, hnumber, hplace⟩ := ih h.2 ha
      obtain ⟨hlt, -⟩ := List.getElem?_eq_some_iff.mp hplace
      exact ⟨place, hnumber, (List.getElem?_append_left hlt).trans hplace⟩

/-- Among the names in their order each anchor is found by its number. -/
theorem ofNumber_number (h : Bound past) (ha : a ∈ anchors past)
    (hnames : ((anchors past).map (·.name)).reverse <+: names) : Anchor.ofNumber names a.number = a := by
  obtain ⟨place, hnumber, hplace⟩ := getElem?_anchors h ha
  obtain ⟨later, rfl⟩ := hnames
  have hname : (((anchors past).map (·.name)).reverse ++ later)[place]? = some a.name := by
    have hmap : ((anchors past).map (·.name)).reverse[place]? = some a.name := by
      rw [← List.map_reverse, List.getElem?_map, hplace]
      rfl
    obtain ⟨hlt, -⟩ := List.getElem?_eq_some_iff.mp hmap
    exact (List.getElem?_append_left hlt).trans hmap
  rw [hnumber, Anchor.ofNumber, hname]
  exact congrArg (Anchor.mk · a.name) hnumber.symm

/-- An event is known again by what becomes of its anchor. -/
theorem map_map_of_mentioned {β : Type} {f : Anchor → β} {g : β → Anchor}
    (h : ∀ a, e.mentioned? = some a → g (f a) = a) : (EventOf.map f e).map g = e := by
  have hanchor (anchor : Option Anchor) (h : ∀ a, anchor = some a → g (f a) = a) :
      (anchor.map f).map g = anchor := by
    cases anchor with
    | none => rfl
    | some a => exact congrArg some (h a rfl)
  cases e with
  | scalar style text tag anchor => exact congrArg (EventOf.scalar style text tag) (hanchor anchor h)
  | «alias» target => exact congrArg EventOf.alias (h target rfl)
  | openSequence tag anchor => exact congrArg (EventOf.openSequence tag) (hanchor anchor h)
  | openMapping tag anchor => exact congrArg (EventOf.openMapping tag) (hanchor anchor h)
  | closeSequence | closeMapping => rfl

end Event

/-- The anchor that waits for the content of its node. -/
def Goal.pending : Goal → Option Anchor
  | .content p => p.anchor
  | _ => none

namespace EventReader

variable {r r' : EventReader} {pending : Option Anchor} {written : List String}

/-- All anchors that were met belong to events; the latest may still wait for its event.  Those met
and those to come are the anchors that are written. -/
structure Sound (written : List String) (pending : Option Anchor) (r : EventReader) : Prop where
  bound : Event.Bound r.past
  anchors : r.anchors = pending.toList ++ Event.anchors r.past
  number : ∀ a, pending = some a → a.number = (Event.anchors r.past).length + 1
  names : (r.anchors.map (·.name)).reverse ++ anchorNames r.tokens = written

theorem Sound.passes (h : Sound written pending r) (hp : Passes r r') : Sound written pending r' := by
  have hpast := hp.past
  refine ⟨hpast ▸ h.bound, ?_, ?_, ?_⟩
  · rw [hp.anchors, hpast, h.anchors]
  · rw [hpast]
    exact h.number
  · rw [hp.anchors, hp.names, h.names]

/-- An anchor that waits goes to the next event. -/
theorem Sound.push (h : Sound written pending r) (m : Mark) {e : Event} (he : e.anchor? = pending)
    (hne : ∀ a, e ≠ .alias a) : Sound written none (r.push m e) := by
  have hfits : e.Fits (Event.anchors r.past) := by
    cases e with
    | «alias» a => exact absurd rfl (hne a)
    | _ => exact fun a ha => h.number a (he.symm.trans ha)
  refine ⟨⟨hfits, h.bound⟩, ?_, nofun, h.names⟩
  show r.anchors = Event.anchors (e :: r.past)
  rw [Event.anchors_cons, he, h.anchors]

theorem Sound.pushAlias (h : Sound written none r) (m : Mark) {name : String} {a : Anchor}
    (ha : r.anchors.find? (·.name == name) = some a) : Sound written none (r.push m (.alias a)) := by
  have hname : a.name = name := by simpa using List.find?_some ha
  have hanchors : r.anchors = Event.anchors r.past := h.anchors
  refine ⟨⟨?_, h.bound⟩, hanchors, nofun, h.names⟩
  show (Event.anchors r.past).find? (·.name == a.name) = some a
  rw [← hanchors, hname, ha]

/-- A name that is written becomes an anchor. -/
theorem Sound.declare (h : Sound written none r) {t : Marked Token} {name : String}
    (ht : r.peek = .ok t) (hi : t.item = .anchor name) :
    Sound written (some (r.next.declare name).1) (r.next.declare name).2 := by
  have hanchors : r.anchors = Event.anchors r.past := h.anchors
  refine ⟨h.bound, ?_, ?_, ?_⟩
  · show (r.next.declare name).1 :: r.anchors = (r.next.declare name).1 :: Event.anchors r.past
    rw [hanchors]
  · rintro a ha
    obtain rfl := Option.some.inj ha
    show r.anchors.length + 1 = (Event.anchors r.past).length + 1
    rw [hanchors]
  · have htokens : anchorNames r.tokens = name :: anchorNames r.next.tokens := by
      rw [peek_eq_ok ht, anchorNames, List.filterMap_cons, hi]
      rfl
    show (name :: r.anchors.map (·.name)).reverse ++ anchorNames r.next.tokens = written
    rw [← h.names, htokens, List.reverse_cons, List.append_assoc]
    rfl

theorem Sound.properties (h : Sound written none r) {p : Properties}
    (hp : r.properties = .ok (p, r')) : Sound written p.anchor r' := by
  unfold EventReader.properties at hp
  obtain ⟨t, ht, hp⟩ := bind_eq_ok hp
  split at hp
  · have hd := h.declare ht ‹_›
    obtain ⟨u, hu, hp⟩ := bind_eq_ok hp
    split at hp
    · obtain ⟨tag, -, hp⟩ := bind_eq_ok hp
      cases hp
      exact hd.passes (.next hu ‹_› rfl)
    · cases hp
      exact hd
  · obtain ⟨tag, -, hp⟩ := bind_eq_ok hp
    obtain ⟨u, hu, hp⟩ := bind_eq_ok hp
    have hn := h.passes (.next ht ‹_› rfl)
    split at hp
    · cases hp
      exact hn.declare hu ‹_›
    · cases hp
      exact hn
  · cases hp
    exact h

/-- Behind a derivation no anchor waits. -/
theorem Derives.sound {g : Goal} (h : Derives g r r') (hs : Sound written g.pending r) :
    Sound written none r' := by
  induction h with
  | «alias» m hp ha => exact (hs.passes hp).pushAlias m (hp.anchors ▸ ha)
  | properties hp _ ih => exact ih (hs.properties hp)
  | scalar m _ _ _ hp => exact (hs.passes hp).push m rfl nofun
  | sequence m hp _ ih => exact ih ((hs.passes hp).push m rfl nofun)
  | mapping m hp _ ih => exact ih ((hs.passes hp).push m rfl nofun)
  | node hp _ ih => exact ih (hs.passes hp)
  | empty m hp => exact (hs.passes hp).push m rfl nofun
  | pair m hp _ ih => exact ih ((hs.passes hp).push m rfl nofun)
  | closeItems m hp => exact (hs.passes hp).push m rfl nofun
  | closeEntries m hp => exact (hs.passes hp).push m rfl nofun
  | item _ _ ih ih' => exact ih' (ih hs)
  | key _ _ ih ih' => exact ih' (ih hs)
  | value _ _ ih ih' => exact ih' (ih hs)
  | pairKey _ _ ih ih' => exact ih' (ih hs)
  | pairValue m _ _ ih ih' => exact ih' ((ih hs).push m rfl nofun)

end EventReader

namespace Scan

variable {s : Scan} {es : List (Marked Event)}

open EventReader in
theorem sound_document {r : EventReader}
    (h : EventReader.document ⟨s.tokens, s.stop, [], [], []⟩ = .ok r) :
    Sound (anchorNames s.tokens) none r := by
  have hs : Sound (anchorNames s.tokens) none ⟨s.tokens, s.stop, [], [], []⟩ :=
    ⟨trivial, rfl, nofun, rfl⟩
  rcases derives_document _ r h with hp | hd
  · exact hs.passes hp
  · exact hd.sound hs

/-- The numbers of anchors are looked up as the names that the reader met. -/
theorem namedEvents_eq (s : Scan) : s.namedEvents =
    (EventReader.document ⟨s.tokens, s.stop, [], [], []⟩).map fun r => r.events.reverse := by
  rw [namedEvents, Scan.events]
  cases h : EventReader.document ⟨s.tokens, s.stop, [], [], []⟩ with
  | error f => rfl
  | ok r =>
    obtain ⟨hbound, hanchors, -, hnames⟩ := sound_document h
    have hnames : ((Event.anchors r.past).map (·.name)).reverse <+: anchorNames s.tokens := by
      rw [← hnames, hanchors]
      exact List.prefix_append ..
    refine congrArg Except.ok ((List.map_map ..).trans ?_)
    refine (List.map_congr_left fun e he => ?_).trans (List.map_id _)
    have hpast : e.item ∈ r.past := List.mem_map_of_mem (List.mem_reverse.mp he)
    have hitem := Event.map_map_of_mentioned (e := e.item) fun a ha =>
      Event.ofNumber_number hbound (Event.mem_anchors_of_mentioned hbound hpast ha) hnames
    exact congrArg (Marked.mk e.mark) hitem

open EventReader in
theorem sound_events (h : s.namedEvents = .ok es) :
    ∃ r : EventReader, r.past = (es.map (·.item)).reverse ∧ Sound (anchorNames s.tokens) none r := by
  rw [namedEvents_eq] at h
  obtain ⟨r, hr, rfl⟩ := map_eq_ok h
  exact ⟨r, by rw [List.map_reverse, List.reverse_reverse, past], sound_document hr⟩

/-- Of the events of a text every alias means the latest anchor of its name. -/
theorem bound_events (h : s.namedEvents = .ok es) : Event.Bound (es.map (·.item)).reverse := by
  obtain ⟨r, hpast, hs⟩ := sound_events h
  exact hpast ▸ hs.bound

/-- The events of a text have the first names that are written in it, in their order. -/
theorem names_events (h : s.namedEvents = .ok es) :
    (Event.anchors (es.map (·.item))).map (·.name) <+: anchorNames s.tokens := by
  obtain ⟨r, hpast, hs⟩ := sound_events h
  have hanchors : r.anchors = (Event.anchors (es.map (·.item))).reverse := by
    rw [hs.anchors, hpast, Event.anchors, Event.anchors, List.filterMap_reverse]
    rfl
  refine ⟨anchorNames r.tokens, ?_⟩
  rw [← hs.names, hanchors, List.map_reverse, List.reverse_reverse]

end Scan

end TaggedYaml
