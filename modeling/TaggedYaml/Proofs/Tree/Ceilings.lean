import TaggedYaml.Proofs.Tree.Order
import TaggedYaml.Proofs.Tree.Together
import TaggedYaml.Proofs.Tree.Total

/-!
# Ceilings — building, writing and taking the value have one limit

The builder counts the collections that are open, writing and taking the value what room is left.
The three agree on a document without aliases and without collections as keys: each succeeds exactly
if the ceiling is at least the nesting of the events.  Writing opens what the walk over the tree opens
(`nesting_eventsBelow_le`), the builder at another ceiling does the same or fails for depth
(`Builder.foldlM_or_deep`), and a result at one ceiling is the result at every greater one.
-/

namespace TaggedYaml

/-! ### Lists of events that close what they open -/

namespace Event

variable {xs ys es : List Event}

/-- Behind these events the nesting is what it was. -/
def Balanced (es : List Event) : Prop :=
  ∀ depth ys, nesting depth (es ++ ys) = max (nesting depth es) (nesting depth ys)

theorem balanced_nil : Balanced [] := by
  intro depth ys
  simp [nesting]

theorem balanced_leaf {e : Event} (h : ∀ depth ys, nesting depth (e :: ys) = nesting depth ys) :
    Balanced [e] := by
  intro depth ys
  rw [List.singleton_append, h, h, nesting, Nat.zero_max]

theorem Balanced.append (h : Balanced xs) (h' : Balanced ys) : Balanced (xs ++ ys) := by
  intro depth zs
  rw [List.append_assoc, h, h', h, Nat.max_assoc]

theorem balanced_flatMap {α : Type} {f : α → List Event} {l : List α}
    (h : ∀ x ∈ l, Balanced (f x)) : Balanced (l.flatMap f) := by
  induction l with
  | nil => exact balanced_nil
  | cons x l ih =>
    rw [List.forall_mem_cons] at h
    rw [List.flatMap_cons]
    exact h.1.append (ih h.2)

theorem nesting_collection {tag : String} {anchor : Option Anchor} {kind : Kind} {first last : Event}
    (hends : Tree.EndsOf tag anchor kind first last) (h : Balanced es) (depth : Nat) :
    nesting depth (first :: (es ++ [last])) = max (depth + 1) (nesting (depth + 1) es) := by
  cases hends <;> simp [nesting, h (depth + 1)]

theorem Balanced.collection {tag : String} {anchor : Option Anchor} {kind : Kind}
    {first last : Event} (hends : Tree.EndsOf tag anchor kind first last) (h : Balanced es) :
    Balanced (first :: (es ++ [last])) := by
  intro depth ys
  rw [nesting_collection hends h, List.cons_append, List.append_assoc]
  cases hends <;> simp [nesting, h (depth + 1), Nat.max_assoc]

/-- One list after the other nests no deeper than each of them. -/
theorem nesting_flatMap_le {α : Type} {f : α → List Event} {l : List α} {depth k : Nat}
    (hb : ∀ x ∈ l, Balanced (f x)) (h : ∀ x ∈ l, nesting depth (f x) ≤ k) :
    nesting depth (l.flatMap f) ≤ k := by
  induction l with
  | nil => exact Nat.zero_le k
  | cons x l ih =>
    rw [List.forall_mem_cons] at hb h
    rw [List.flatMap_cons, hb.1]
    exact Nat.max_le.mpr ⟨h.1, ih hb.2 h.2⟩

end Event

theorem exists_of_mem_inPairs {α : Type} : ∀ {xs : List α} {x : α}, x ∈ xs →
    ∃ k v, (k, v) ∈ inPairs xs ∧ (k = x ∨ v = some x)
  | [y], x, h => by
    rw [List.mem_singleton] at h
    exact ⟨y, none, List.mem_singleton_self _, .inl h.symm⟩
  | y :: z :: rest, x, h => by
    rcases List.mem_cons.mp h with rfl | h
    · exact ⟨x, some z, List.mem_cons_self, .inl rfl⟩
    rcases List.mem_cons.mp h with rfl | h
    · exact ⟨y, some x, List.mem_cons_self, .inr rfl⟩
    · obtain ⟨k, v, hkv, hx⟩ := exists_of_mem_inPairs h
      exact ⟨k, v, List.mem_cons_of_mem _ hkv, hx⟩

namespace Tree

variable {t : Tree} {maxDepth room indent : Nat} {position : Position} {id c : NodeId} {n : Node}

theorem Rooted.inside (h : t.Rooted) : t.Inside := by
  intro p c hc
  obtain ⟨n, hn⟩ := exists_get? hc.lt_size
  rw [Child, members_eq hn] at hc
  exact (h.forward p n c hn (Array.mem_toList_iff.mp hc)).2

theorem Rooted.not_child_root (h : t.Rooted) : ∀ p, ¬ t.Child p root := by
  intro p hc
  obtain ⟨n, hn⟩ := exists_get? hc.lt_size
  rw [Child, members_eq hn] at hc
  exact Nat.not_lt_zero p (h.forward p n root hn (Array.mem_toList_iff.mp hc)).1

/-- Without aliases a tree that was built is closed. -/
theorem Rooted.closed (h : t.Rooted) (hno : ∀ id n, t.get? id = some n → n.kind ≠ .alias) :
    t.Closed := by
  refine ⟨fun id n hn => (h.document id n hn).mp, ?_, ?_⟩
  · intro id n c hn hc
    have hchild := child_of_mem hn (Array.mem_toList_iff.mpr hc)
    exact ⟨ne_root_of_child h.not_child_root hchild, h.inside.get? hchild⟩
  · intro id n hn hk
    exact absurd hk (hno id n hn)

/-- No key is a collection. -/
def PlainKeys (t : Tree) : Prop :=
  ∀ id n k v m, t.get? id = some n → n.kind = .mapping → (k, v) ∈ inPairs n.children.toList →
    t.get? k = some m → m.kind.isCollection = false

/-! ### Writing opens what the walk opens -/

section Walk

variable {number : NodeId → Nat} {fuel depth : Nat}

theorem eventsBelow_collection (hn : t.get? id = some n) (hk : n.kind.isCollection = true)
    (number : NodeId → Nat) (fuel : Nat) : ∃ first last,
      EndsOf n.tag (n.anchor.map fun name => ⟨number id, name⟩) n.kind first last ∧
      t.eventsBelow number (fuel + 1) id =
        first :: (n.children.toList.flatMap (t.eventsBelow number fuel) ++ [last]) := by
  cases hkind : n.kind with
  | sequence => exact ⟨_, _, .sequence, by rw [eventsBelow, hn]; simp only [hkind]⟩
  | mapping => exact ⟨_, _, .mapping, by rw [eventsBelow, hn]; simp only [hkind]⟩
  | _ =>
    rw [hkind] at hk
    cases hk

theorem eventsBelow_leaf (hn : t.get? id = some n) (hc : n.kind.isCollection = false)
    (hd : n.kind ≠ .document) (number : NodeId → Nat) (fuel : Nat) :
    ∃ e, t.eventsBelow number (fuel + 1) id = [e] ∧
      ∀ depth ys, Event.nesting depth (e :: ys) = Event.nesting depth ys := by
  cases hk : n.kind with
  | document => exact absurd hk hd
  | scalar =>
    refine ⟨.scalar n.style n.value n.tag (n.anchor.map fun name => ⟨number id, name⟩), ?_, ?_⟩
    · rw [eventsBelow, hn]
      simp only [hk]
    · exact fun _ _ => rfl
  | «alias» =>
    refine ⟨.alias ⟨(n.target.map number).getD 0, n.value⟩, ?_, ?_⟩
    · rw [eventsBelow, hn]
      simp only [hk]
    · exact fun _ _ => rfl
  | sequence => simp [hk, Kind.isCollection] at hc
  | mapping => simp [hk, Kind.isCollection] at hc

theorem balanced_eventsBelow (t : Tree) (number : NodeId → Nat) : ∀ (fuel : Nat) (id : NodeId),
    Event.Balanced (t.eventsBelow number fuel id)
  | 0, _ => Event.balanced_nil
  | fuel + 1, id => by
    cases hn : t.get? id with
    | none =>
      rw [eventsBelow, hn]
      exact Event.balanced_nil
    | some n =>
      have hmembers : Event.Balanced (n.children.toList.flatMap (t.eventsBelow number fuel)) :=
        Event.balanced_flatMap fun c _ => balanced_eventsBelow t number fuel c
      by_cases hc : n.kind.isCollection = true
      · obtain ⟨first, last, hends, hevents⟩ := eventsBelow_collection hn hc number fuel
        rw [hevents]
        exact .collection hends hmembers
      by_cases hd : n.kind = .document
      · rw [eventsBelow, hn]
        simpa only [hd] using hmembers
      · obtain ⟨e, hevents, he⟩ := eventsBelow_leaf hn (by simpa using hc) hd number fuel
        rw [hevents]
        exact Event.balanced_leaf he

/-- Below a node that is no collection nothing is opened. -/
theorem nesting_eventsBelow_leaf (hn : t.get? id = some n) (hc : n.kind.isCollection = false)
    (hd : n.kind ≠ .document) : Event.nesting depth (t.eventsBelow number fuel id) = 0 := by
  cases fuel with
  | zero => rfl
  | succ fuel =>
    obtain ⟨e, hevents, he⟩ := eventsBelow_leaf hn hc hd number fuel
    rw [hevents, he, Event.nesting]

/-- A member of a collection that can be written can be written with less room, or it is a key. -/
theorem writeValue_member (hkeys : t.PlainKeys) (hn : t.get? id = some n)
    (hk : n.kind.isCollection = true) {text : List Char}
    (htext : t.writeValue maxDepth (room + 1) id indent position = .ok text)
    (hc : c ∈ n.children.toList) :
    (∃ indent position text, t.writeValue maxDepth room c indent position = .ok text) ∨
      ∀ m, t.get? c = some m → m.kind.isCollection = false := by
  cases hkind : n.kind with
  | sequence =>
    obtain ⟨inner, hwritten⟩ := verdict_writeValue_sequence hn hkind maxDepth room indent position
    rw [htext] at hwritten
    obtain ⟨items, hitems⟩ := verdict_eq_ok.mp hwritten.symm
    obtain ⟨item, -, hitem⟩ := exists_of_mapM hitems c hc
    obtain ⟨member, hmember, -⟩ := bind_eq_ok hitem
    exact .inl ⟨inner, .seqItem, member, hmember⟩
  | mapping =>
    obtain ⟨inner, hwritten⟩ := verdict_writeValue_mapping hn hkind maxDepth room indent position
    rw [htext] at hwritten
    obtain ⟨entries, hentries⟩ := verdict_eq_ok.mp hwritten.symm
    obtain ⟨k, v, hkv, rfl | rfl⟩ := exists_of_mem_inPairs hc
    · exact .inr fun m hm => hkeys id n k v m hn hkind hkv hm
    · obtain ⟨entry, -, hentry⟩ := exists_of_mapM hentries (k, some c) hkv
      rw [writeEntry_some] at hentry
      obtain ⟨key, -, hentry⟩ := bind_eq_ok hentry
      obtain ⟨member, hmember, -⟩ := map_eq_ok hentry
      exact .inl ⟨inner, .mapValue, member, hmember⟩
  | _ =>
    rw [hkind] at hk
    cases hk

/-- Where a node can be written, the walk opens no more collections than there is room for. -/
theorem nesting_eventsBelow_le (hrooted : t.Rooted) (hkeys : t.PlainKeys) : ∀ {fuel room depth : Nat}
    {id : NodeId} {indent : Nat} {position : Position} {text : List Char},
    t.writeValue maxDepth room id indent position = .ok text →
    Event.nesting depth (t.eventsBelow number fuel id) ≤ depth + room := by
  intro fuel
  induction fuel with
  | zero =>
    intro _ _ _ _ _ _ _
    exact Nat.zero_le _
  | succ fuel ih =>
    intro room depth id indent position text htext
    obtain ⟨n, hn⟩ : ∃ n, t.get? id = some n := by
      rw [writeValue.eq_def] at htext
      obtain ⟨n, hn, -⟩ := bind_eq_ok htext
      exact ⟨n, node_eq_ok.mp hn⟩
    by_cases hc : n.kind.isCollection = true
    · obtain ⟨first, last, hends, hevents⟩ := eventsBelow_collection hn hc number fuel
      have hbalanced : ∀ c ∈ n.children.toList, Event.Balanced (t.eventsBelow number fuel c) :=
        fun c _ => balanced_eventsBelow t number fuel c
      rw [hevents, Event.nesting_collection hends (Event.balanced_flatMap hbalanced)]
      cases room with
      | zero =>
        rw [writeValue_zero hn hc] at htext
        cases htext
      | succ room =>
        refine Nat.max_le.mpr ⟨by omega, Event.nesting_flatMap_le hbalanced ?_⟩
        intro c hmem
        -- The room of a key is not counted, but a key that is no collection opens nothing.
        rcases writeValue_member hkeys hn hc htext hmem with ⟨_, _, _, hmember⟩ | hleaf
        · have hle : Event.nesting (depth + 1) (t.eventsBelow number fuel c) ≤ depth + 1 + room :=
            ih hmember
          omega
        · have hchild := child_of_mem hn hmem
          obtain ⟨m, hm⟩ := hrooted.inside.get? hchild
          have hd : m.kind ≠ .document := by
            intro hk
            exact ne_root_of_child hrooted.not_child_root hchild ((hrooted.document c m hm).mp hk)
          rw [nesting_eventsBelow_leaf hm (hleaf m hm) hd]
          exact Nat.zero_le _
    · have hd : n.kind ≠ .document := by
        intro hk
        rw [writeValue_document hn hk] at htext
        cases htext
      rw [nesting_eventsBelow_leaf hn (by simpa using hc) hd]
      exact Nat.zero_le _

end Walk

/-- A document that can be written nests no deeper than the ceiling. -/
theorem nesting_events_le (hrooted : t.Rooted) (hkeys : t.PlainKeys)
    (hone : t.rootNode.children.size ≤ 1) {text : String} (htext : t.write maxDepth = .ok text) :
    Event.nesting 0 t.events ≤ maxDepth := by
  have hk : t.rootNode.kind = .document := (hrooted.document root _ t.get?_root).mpr rfl
  obtain ⟨fuel, hsize⟩ := Nat.exists_eq_succ_of_ne_zero (Nat.ne_of_gt t.size_pos)
  have hevents : t.events =
      t.rootNode.children.toList.flatMap (t.eventsBelow t.anchorNumber fuel) := by
    rw [events, size, hsize, eventsBelow, t.get?_root]
    simp only [hk]
  rw [hevents]
  refine Event.nesting_flatMap_le (fun c _ => balanced_eventsBelow t _ fuel c) ?_
  intro c hc
  have hvalue : t.rootValue? = some c := by
    rw [rootValue?, ← Array.getElem?_toList]
    rw [← Array.length_toList] at hone
    rcases hlist : t.rootNode.children.toList with _ | ⟨x, _ | ⟨y, rest⟩⟩
    · rw [hlist] at hc
      cases hc
    · rw [hlist] at hc
      rw [List.mem_singleton.mp hc]
      rfl
    · simp [hlist] at hone
  rw [write, hvalue] at htext
  obtain ⟨written, hwritten, -⟩ := bind_eq_ok htext
  have hle : Event.nesting 0 (t.eventsBelow t.anchorNumber fuel c) ≤ 0 + maxDepth :=
    nesting_eventsBelow_le hrooted hkeys hwritten
  omega

/-! ### A greater ceiling -/

section Greater

variable {m m' room' : Nat}

/-- A value is the same with more room. -/
theorem valueAt_mono (hle : room ≤ room') {v : Value} (hv : t.valueAt m room id = .ok v) :
    t.valueAt m' room' id = .ok v := by
  induction room generalizing room' id v with
  | zero =>
    cases hc : t.content contentSteps id with
    | error e =>
      rw [valueAt_of_content_error hc] at hv
      cases hv
    | ok c =>
      rw [valueAt_of_content hc] at hv ⊢
      cases c with
      | collection n => cases hv
      | _ => exact hv
  | succ room ih =>
    obtain ⟨room', rfl⟩ := Nat.exists_eq_succ_of_ne_zero (Nat.ne_of_gt (Nat.lt_of_lt_of_le
      (Nat.succ_pos room) hle))
    have hle : room ≤ room' := Nat.le_of_succ_le_succ hle
    cases hc : t.content contentSteps id with
    | error e =>
      rw [valueAt_of_content_error hc] at hv
      cases hv
    | ok c =>
      rw [valueAt_of_content hc] at hv ⊢
      cases c with
      | collection n =>
        simp only at hv ⊢
        split at hv
        · obtain ⟨values, hvalues, rfl⟩ := map_eq_ok hv
          rw [if_pos ‹_›, mapM_mono (fun c _ value hvalue => ih hle hvalue) hvalues]
          rfl
        · obtain ⟨entries, hentries, rfl⟩ := map_eq_ok hv
          rw [if_neg ‹_›]
          have hput : ∀ p ∈ inPairs n.children.toList, ∀ into into',
              t.putStep (t.valueAt m room) into p = .ok into' →
              t.putStep (t.valueAt m' room') into p = .ok into' := by
            rintro ⟨k, v⟩ - into into' hput
            cases v with
            | none => exact hput
            | some c =>
              rw [putStep_some] at hput ⊢
              obtain ⟨value, hvalue, hput⟩ := bind_eq_ok hput
              rw [bind_ok (ih hle hvalue)]
              exact hput
          have hentries' : t.putAll m' room' [] (inPairs n.children.toList) = .ok entries :=
            foldlM_mono hput hentries
          rw [hentries']
          rfl
      | _ => exact hv

theorem value_mono (hle : m ≤ m') {v : Value} (hv : t.value m = .ok v) : t.value m' = .ok v :=
  valueAt_mono hle hv

theorem write_mono (hle : m ≤ m') {text : String} (htext : t.write m = .ok text) :
    t.write m' = .ok text := by
  cases hv : t.rootValue? with
  | none =>
    rw [write, hv] at htext ⊢
    exact htext
  | some id =>
    rw [write_eq_ok hv] at htext ⊢
    obtain ⟨s, hs, hheight, rfl⟩ := htext
    exact ⟨s, hs, Nat.le_trans hheight hle, rfl⟩

end Greater

end Tree

/-! ### The builder at another ceiling -/

namespace Builder

variable {b b' : Builder} {m m' : Nat} {e : Marked Event} {es : List (Marked Event)}

theorem openNode_or_deep {n : Node} {anchor : Option Anchor} (h : b.openNode m n anchor = .ok b')
    (m' : Nat) : b.openNode m' n anchor = .ok b' ∨
      b.openNode m' n anchor = .error (.depthExceeded m') := by
  rw [openNode] at h ⊢
  split at h
  · cases h
  · by_cases hdeep : b.stack.length ≥ m'
    · exact .inr (if_pos hdeep)
    · rw [if_neg hdeep]
      exact .inl h

/-- A step at another ceiling is the same, or fails for depth. -/
theorem step_or_deep (h : b.step m e = .ok b') (m' : Nat) :
    b.step m' e = .ok b' ∨ b.step m' e = .error (.depthExceeded m') := by
  obtain ⟨mark, e⟩ := e
  cases e with
  | openSequence tag anchor => exact openNode_or_deep h m'
  | openMapping tag anchor => exact openNode_or_deep h m'
  | _ => exact .inl h

theorem foldlM_or_deep (h : es.foldlM (step m) b = .ok b') (m' : Nat) :
    es.foldlM (step m') b = .ok b' ∨ es.foldlM (step m') b = .error (.depthExceeded m') := by
  induction es generalizing b with
  | nil => exact .inl h
  | cons e es ih =>
    rw [List.foldlM_cons] at h ⊢
    obtain ⟨b₁, hb₁, h⟩ := bind_eq_ok h
    rcases step_or_deep hb₁ m' with hstep | hdeep
    · rw [bind_ok hstep]
      exact ih h
    · rw [hdeep]
      exact .inr rfl

end Builder

namespace Tree

variable {es : List (Marked Event)} {t : Tree}

/-- The tree of a document does not depend on the ceiling, but a ceiling below the nesting of its
events is exceeded. -/
theorem exists_ofEvents (hdocument : Event.IsDocument (es.map (·.item)))
    (hnumbered : Event.Numbered 0 (es.map (·.item))) :
    ∃ t, (∀ m, ofEvents m es = if Event.nesting 0 (es.map (·.item)) ≤ m then .ok t
        else .error (.depthExceeded m)) ∧
      t.events = es.map (·.item) ∧ t.rootNode.children.size ≤ 1 := by
  obtain ⟨t, ids, ht, hlength, hroot, hsize, hregains⟩ :=
    exists_regains hdocument hnumbered (Nat.le_refl _)
  obtain ⟨b, hb, rfl⟩ := exists_of_ofEvents ht
  refine ⟨b.tree, ?_, ?_, ?_⟩
  · intro m
    split
    · rename_i hle
      obtain ⟨t', -, ht', -⟩ := exists_regains hdocument hnumbered hle
      rcases Builder.foldlM_or_deep hb m with hm | hm
      · rw [ofEvents, hm]
        rfl
      · rw [ofEvents, hm] at ht'
        cases ht'
    · rename_i hlt
      rcases Builder.foldlM_or_deep hb m with hm | hm
      · exact absurd (Builder.nesting_le hm) hlt
      · rw [ofEvents, hm]
        rfl
  · have hbares := bares_ofEvents ht
    rw [events, hsize, eventsBelow, hroot]
    refine hregains.events _ _ ?_ (Nat.le_refl _)
    intro p hp
    rw [anchorNumber_eq, hbares]
    have hstart : ∀ p ∈ ([] : List (Nat × NodeId)), p.2 < [({ kind := .document } : Node)].length ∧
        anchoredCount ([({ kind := .document } : Node)].take (p.2 + 1)) = p.1 := by simp
    exact anchoredCount_boundFrom hstart hnumbered p hp
  · have hroot' : b.tree.rootNode = { kind := .document, children := ids.toArray } :=
      Option.some.inj (b.tree.get?_root.symm.trans hroot)
    rw [hroot']
    simpa using hlength

/-- A text that is read as some events is a tree at every ceiling that is at least their nesting, and
nowhere else. -/
theorem exists_read {text : String} (h : (scan text.toList).namedEvents = .ok es) :
    ∃ t, ∀ m, read m text = if Event.nesting 0 (es.map (·.item)) ≤ m then .ok t
      else .error (.depthExceeded m) := by
  have hbound := Scan.bound_events h
  rw [← List.append_nil (List.reverse _)] at hbound
  obtain ⟨t, ht, -⟩ := exists_ofEvents (Scan.isDocument_events h) (Event.numbered_of_bound hbound)
  refine ⟨t, ?_⟩
  intro m
  have hread : read m text = ofEvents m es := by
    unfold read
    simp only [h]
  rw [hread]
  exact ht m

/-- Without aliases and without collections as keys a document is written, and has a value, exactly
where it can be built. -/
theorem write_value_of_nesting {m : Nat} (ht : ∀ m, ofEvents m es =
      if Event.nesting 0 (es.map (·.item)) ≤ m then .ok t else .error (.depthExceeded m))
    (hevents : t.events = es.map (·.item)) (hone : t.rootNode.children.size ≤ 1)
    (hno : ∀ id n, t.get? id = some n → n.kind ≠ .alias) (hkeys : t.PlainKeys) :
    if Event.nesting 0 (es.map (·.item)) ≤ m then
      (∃ text, t.write m = .ok text) ∧ ∃ v, t.value m = .ok v
    else t.write m = .error (.depthExceeded m) ∧ t.value m = .error (.depthExceeded m) := by
  have hbuilt := ht (Event.nesting 0 (es.map (·.item)))
  rw [if_pos (Nat.le_refl _)] at hbuilt
  have hrooted := rooted_ofEvents hbuilt
  have hclosed := hrooted.closed hno
  have hk : t.rootNode.kind = .document := (hrooted.document root _ t.get?_root).mpr rfl
  split
  · rename_i hle
    have hm := ht m
    rw [if_pos hle] at hm
    obtain ⟨b, hb, rfl⟩ := exists_of_ofEvents hm
    obtain ⟨level, hlevel⟩ := Builder.nests_foldlM hb
    exact ⟨exists_write hclosed hlevel.tree, exists_value hclosed hlevel.tree hno (.inl hk)⟩
  · rename_i hlt
    have hverdict : verdict (t.value m) = verdict (t.write m) :=
      verdict_value hrooted.inside hk hrooted.not_child_root fun id n _ hn => hno id n hn
    rcases ends_of_verdict hverdict with ⟨-, text, htext⟩ | ⟨e, hvalue, hwrite⟩
    · rw [← hevents] at hlt
      exact absurd (nesting_events_le hrooted hkeys hone htext) hlt
    · obtain rfl := hclosed.valueAt_error t.get?_root hvalue
      exact ⟨hwrite, hvalue⟩

/-- The limits agree: of the events of a document one tree is made, wherever the ceiling is at least
their nesting; there it can be written and has a value if no node is an alias and no key a collection,
and elsewhere each of the three fails for depth.  A result at one ceiling is the result at every
greater one, whatever the tree is. -/
theorem ceilings_agree (hdocument : Event.IsDocument (es.map (·.item)))
    (hnumbered : Event.Numbered 0 (es.map (·.item))) :
    ∃ t, (∀ m, ofEvents m es = if Event.nesting 0 (es.map (·.item)) ≤ m then .ok t
        else .error (.depthExceeded m)) ∧
      ((∀ id n, t.get? id = some n → n.kind ≠ .alias) → t.PlainKeys → ∀ m,
        if Event.nesting 0 (es.map (·.item)) ≤ m then
          (∃ text, t.write m = .ok text) ∧ ∃ v, t.value m = .ok v
        else t.write m = .error (.depthExceeded m) ∧ t.value m = .error (.depthExceeded m)) ∧
      ∀ (u : Tree) (m m' : Nat), m ≤ m' → (∀ text, u.write m = .ok text → u.write m' = .ok text) ∧
        ∀ v, u.value m = .ok v → u.value m' = .ok v := by
  obtain ⟨t, ht, hevents, hone⟩ := exists_ofEvents hdocument hnumbered
  refine ⟨t, ht, ?_, ?_⟩
  · intro hno hkeys m
    exact write_value_of_nesting ht hevents hone hno hkeys
  · intro u m m' hle
    exact ⟨fun text => write_mono hle, fun v => value_mono hle⟩

/-- A mapping in a sequence. -/
theorem ceilings_agree_nested :
    let es : List (Marked Event) := ([.openSequence "" none, .openMapping "" none,
      .scalar .plain "a" "" none, .scalar .plain "b" "" none, .closeMapping, .closeSequence] :
      List Event).map (⟨.start, ·⟩)
    ∃ t, ofEvents 2 es = .ok t ∧ ofEvents 1 es = .error (.depthExceeded 1) ∧
      t.write 1 = .error (.depthExceeded 1) ∧ (∃ v, t.value 2 = .ok v) ∧
      ∀ text, t.write 2 = .ok text → t.write 3 = .ok text := by
  intro es
  have hnode : Event.IsNode (es.map (·.item)) :=
    .sequence _ _ (.cons (.mapping _ _ (.cons (.scalar ..) (.scalar ..) .nil)) .nil)
  obtain ⟨t, ht, hsame, hgreater⟩ := ceilings_agree (.inr hnode)
    (by simp [es, Event.Numbered, Event.FitsNumbers, Event.anchor?])
  have hbuilt : ofEvents 2 es = .ok ⟨#[{ kind := .document, children := #[1] },
      { kind := .sequence, children := #[2] }, { kind := .mapping, children := #[3, 4] },
      { kind := .scalar, value := "a" }, { kind := .scalar, value := "b" }], by decide⟩ := by
    decide +kernel
  have hdeep : Event.nesting 0 (es.map (·.item)) = 2 := by decide
  rw [hdeep] at ht hsame
  have hone := ht 1
  have htwo := ht 2
  rw [if_neg (by decide)] at hone
  rw [if_pos (by decide)] at htwo
  obtain rfl := Except.ok.inj (htwo.symm.trans hbuilt)
  have hnodes : ∀ n ∈ (#[{ kind := .document, children := #[1] },
      { kind := .sequence, children := #[2] }, { kind := .mapping, children := #[3, 4] },
      { kind := .scalar, value := "a" }, { kind := .scalar, value := "b" }] : Array Node),
      n.kind ≠ .alias ∧ (n.kind = .mapping → n.children = #[3, 4]) := by decide
  have hat := hsame (fun id n hn => (hnodes n (Array.mem_of_getElem? hn)).1) (by
    intro id n k v m hn hk hkv hm
    rw [(hnodes n (Array.mem_of_getElem? hn)).2 hk] at hkv
    obtain ⟨rfl, -⟩ : k = 3 ∧ v = some 4 := by simpa [inPairs] using hkv
    obtain rfl := Option.some.inj hm
    rfl)
  have hatOne := hat 1
  have hatTwo := hat 2
  rw [if_neg (by decide)] at hatOne
  rw [if_pos (by decide)] at hatTwo
  exact ⟨_, hbuilt, hone, hatOne.1, hatTwo.2, (hgreater _ 2 3 (by decide)).1⟩

end Tree

end TaggedYaml
