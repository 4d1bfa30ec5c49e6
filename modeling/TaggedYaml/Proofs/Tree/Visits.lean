import Mathlib.Data.Set.Card
import TaggedYaml.Codec
import TaggedYaml.Proofs.Tree.Preorder

/-!
# Visits — flattening as a walk without marks

The plain way to flatten the nodes below the document is a stack: a round takes a number, flattens its
node if the tag is an extension tag, and puts the children on the stack (`Visit.Step`).  Nothing is
marked, so a shared child is met again and again; it is met with a core tag then, and so is all that
is below it, because a node is left behind only when everything below it is (`Tree.Pends`).  Where no
node stands below itself the walk ends, and in the tree that `Tree.flatten` makes.
-/

namespace TaggedYaml

open Relation (ReflTransGen TransGen)

/-- A walk with a stack of numbers, the next first, and the number of nodes that were flattened. -/
structure Visit where
  stack : List NodeId
  tree : Tree
  count : Nat

/-- One round of a walk. -/
inductive Visit.Step (isExtension : String → Bool) : Visit → Visit → Prop where
  | pass {id : NodeId} {stack : List NodeId} {t : Tree} {count : Nat} {n : Node}
      (hn : t.get? id = some n) (htag : isExtension n.tag = false) :
      Step isExtension ⟨id :: stack, t, count⟩ ⟨n.children.toList ++ stack, t, count⟩
  | flatten {id : NodeId} {stack : List NodeId} {t : Tree} {count : Nat} {n : Node}
      {arguments : List String} (hn : t.get? id = some n) (htag : isExtension n.tag = true)
      (harguments : List.Forall₂ (fun c text => ∃ m, t.get? c = some m ∧ m.value = text)
        n.children.toList arguments) :
      Step isExtension ⟨id :: stack, t, count⟩
        ⟨n.children.toList ++ stack, t.modify id (·.flatten arguments), count + 1⟩

/-- A child says one text. -/
theorem Tree.rightUnique_text (t : Tree) : Relator.RightUnique
    fun (c : NodeId) (text : String) => ∃ m, t.get? c = some m ∧ m.value = text := by
  rintro c _ _ ⟨m, hm, rfl⟩ ⟨m', hm', rfl⟩
  rw [Option.some.inj (hm.symm.trans hm')]

namespace Visit

variable {isExtension : String → Bool} {v v' w : Visit}

/-- A round can be done in one way only. -/
theorem Step.unique (h : Step isExtension v w) (h' : Step isExtension v v') : w = v' := by
  cases h with
  | pass hn htag =>
    cases h' with
    | pass hn' htag' =>
      obtain rfl := Option.some.inj (hn.symm.trans hn')
      rfl
    | flatten hn' htag' _ =>
      obtain rfl := Option.some.inj (hn.symm.trans hn')
      rw [htag] at htag'
      cases htag'
  | flatten hn htag ha =>
    cases h' with
    | pass hn' htag' =>
      obtain rfl := Option.some.inj (hn.symm.trans hn')
      rw [htag] at htag'
      cases htag'
    | flatten hn' _ ha' =>
      obtain rfl := Option.some.inj (hn.symm.trans hn')
      obtain rfl := Relator.RightUnique.forall₂ (Tree.rightUnique_text _) ha ha'
      rfl

/-- A walk that can come to an empty stack comes to an end. -/
theorem acc_of_empty {t : Tree} {count : Nat}
    (h : ReflTransGen (Step isExtension) v ⟨[], t, count⟩) :
    Acc (fun w v => Step isExtension v w) v := by
  induction h using ReflTransGen.head_induction_on with
  | refl =>
    refine ⟨_, ?_⟩
    intro w hw
    cases hw
  | head hstep _ ih =>
    refine ⟨_, ?_⟩
    intro w hw
    rw [hw.unique hstep]
    exact ih

end Visit

namespace Tree

variable {isExtension : String → Bool} {t u : Tree} {id : NodeId} {n : Node} {count : Nat}
  {seen stack listed ids : List NodeId}

/-- The texts of the children of a node. -/
def arguments (t : Tree) (n : Node) : List String :=
  n.children.toList.filterMap fun c => (t.get? c).map (·.value)

/-- The tag of a node is an extension tag. -/
def isExtended (t : Tree) (isExtension : String → Bool) (id : NodeId) : Bool :=
  (t.get? id).any fun n => isExtension n.tag

theorem isExtended_eq (hn : t.get? id = some n) :
    t.isExtended isExtension id = isExtension n.tag := by
  rw [isExtended, hn]
  rfl

theorem isExtended_modify_of_ne {other : NodeId} (hne : id ≠ other) (f : Node → Node) :
    (t.modify id f).isExtended isExtension other = t.isExtended isExtension other := by
  rw [isExtended, isExtended, get?_modify_of_ne t hne]

/-- A node that was flattened is not flattened again. -/
theorem isExtended_modify_flatten (hstring : isExtension "!!str" = false) (hn : t.get? id = some n)
    (texts : List String) :
    (t.modify id (·.flatten texts)).isExtended isExtension id = false := by
  have hget : (t.modify id (·.flatten texts)).get? id = some (n.flatten texts) := by
    rw [get?_modify_self, hn]
    rfl
  rw [isExtended_eq hget]
  exact hstring

theorem Inside.arguments (hin : t.Inside) (hn : t.get? id = some n) :
    List.Forall₂ (fun c text => ∃ m, t.get? c = some m ∧ m.value = text) n.children.toList
      (t.arguments n) := by
  have key : ∀ ids : List NodeId, (∀ c ∈ ids, c ∈ n.children.toList) →
      List.Forall₂ (fun c text => ∃ m, t.get? c = some m ∧ m.value = text) ids
        (ids.filterMap fun c => (t.get? c).map (·.value)) := by
    intro ids
    induction ids with
    | nil => exact fun _ => .nil
    | cons c ids ih =>
      intro hids
      have hc := child_of_mem hn (hids c List.mem_cons_self)
      obtain ⟨m, hm⟩ := hin.get? hc
      have htext : (t.get? c).map (·.value) = some m.value := by rw [hm]; rfl
      rw [List.filterMap_cons_some (f := fun c => (t.get? c).map (·.value)) htext]
      exact .cons ⟨m, hm, rfl⟩ (ih fun x hx => hids x (List.mem_cons_of_mem _ hx))
  exact key _ fun c hc => hc

/-! ### One node after the other -/

theorem flattenList_pass (hn : t.get? id = some n) (htag : isExtension n.tag = false)
    (ids : List NodeId) (count : Nat) :
    flattenList isExtension (id :: ids) t count = flattenList isExtension ids t count := by
  rw [flattenList, hn]
  simp only [htag, Bool.false_eq_true, if_false]

theorem flattenList_flatten (hin : t.Inside) (hn : t.get? id = some n)
    (htag : isExtension n.tag = true) (ids : List NodeId) (count : Nat) :
    flattenList isExtension (id :: ids) t count =
      flattenList isExtension ids (t.modify id (·.flatten (t.arguments n))) (count + 1) := by
  have hchildren : (n.children.toList.find? fun c => (t.get? c).isNone) = none := by
    rw [List.find?_eq_none]
    intro c hc
    obtain ⟨m, hm⟩ := hin.get? (child_of_mem hn hc)
    simp [hm]
  rw [flattenList, hn]
  simp only [htag, if_true, hchildren]
  rfl

/-- Other nodes stay as they are. -/
theorem get?_flattenList_of_not_mem (hin : t.Inside) (hsize : ∀ id ∈ ids, id < t.size)
    (hid : id ∉ ids) : (flattenList isExtension ids t count).tree.get? id = t.get? id := by
  induction ids generalizing t count with
  | nil => rfl
  | cons x ids ih =>
    rw [List.mem_cons, not_or] at hid
    obtain ⟨n, hn⟩ := exists_get? (hsize x List.mem_cons_self)
    have hrest : ∀ y ∈ ids, y < t.size := fun y hy => hsize y (List.mem_cons_of_mem _ hy)
    by_cases htag : isExtension n.tag = true
    · rw [flattenList_flatten hin hn htag, ih (hin.flattens (flattens_modify ..)) (by simpa) hid.2,
        get?_modify_of_ne t (Ne.symm hid.1)]
    · rw [flattenList_pass hn (by simpa using htag), ih hin hrest hid.2]

/-- The nodes of a list are flattened where they have extension tags, and have none then. -/
theorem flattenList_nodup (hstring : isExtension "!!str" = false) (hin : t.Inside)
    (hsize : ∀ id ∈ ids, id < t.size) (hnodup : ids.Nodup) (count : Nat) :
    (flattenList isExtension ids t count).foreign = none ∧
    (flattenList isExtension ids t count).count = count + ids.countP (t.isExtended isExtension) ∧
    ∀ id ∈ ids, (flattenList isExtension ids t count).tree.isExtended isExtension id = false := by
  induction ids generalizing t count with
  | nil => simp [flattenList]
  | cons x ids ih =>
    obtain ⟨hx, hnodup⟩ := List.nodup_cons.mp hnodup
    obtain ⟨n, hn⟩ := exists_get? (hsize x List.mem_cons_self)
    have hrest : ∀ y ∈ ids, y < t.size := fun y hy => hsize y (List.mem_cons_of_mem _ hy)
    by_cases htag : isExtension n.tag = true
    · have hin' := hin.flattens (flattens_modify t x (t.arguments n))
      have hrest' : ∀ y ∈ ids, y < (t.modify x (·.flatten (t.arguments n))).size := by simpa
      obtain ⟨hforeign, hcount, hsettled⟩ := ih hin' hrest' hnodup (count + 1)
      have hsame : ids.countP ((t.modify x (·.flatten (t.arguments n))).isExtended isExtension) =
          ids.countP (t.isExtended isExtension) := by
        refine List.countP_congr ?_
        intro y hy
        have hne : x ≠ y := by
          rintro rfl
          exact hx hy
        rw [isExtended_modify_of_ne hne]
      rw [flattenList_flatten hin hn htag]
      refine ⟨hforeign, ?_, ?_⟩
      · rw [hcount, hsame, List.countP_cons_of_pos (by rw [isExtended_eq hn]; exact htag)]
        omega
      · intro y hy
        rcases List.mem_cons.mp hy with rfl | hy
        · rw [isExtended, get?_flattenList_of_not_mem hin' hrest' hx, ← isExtended]
          exact isExtended_modify_flatten hstring hn _
        · exact hsettled y hy
    · have htag : isExtension n.tag = false := by simpa using htag
      obtain ⟨hforeign, hcount, hsettled⟩ := ih hin hrest hnodup count
      rw [flattenList_pass hn htag]
      refine ⟨hforeign, ?_, ?_⟩
      · rw [hcount, List.countP_cons_of_neg (by rw [isExtended_eq hn, htag]; exact Bool.false_ne_true)]
      · intro y hy
        rcases List.mem_cons.mp hy with rfl | hy
        · rw [isExtended, get?_flattenList_of_not_mem hin hrest hx, ← isExtended, isExtended_eq hn]
          exact htag
        · exact hsettled y hy

/-- Where no tag is an extension tag nothing is done. -/
theorem flattenList_settled (hsize : ∀ id ∈ ids, id < t.size)
    (hids : ∀ id ∈ ids, t.isExtended isExtension id = false) :
    flattenList isExtension ids t count = ⟨t, count, none⟩ := by
  induction ids with
  | nil => rfl
  | cons x ids ih =>
    rw [List.forall_mem_cons] at hsize hids
    obtain ⟨n, hn⟩ := exists_get? hsize.1
    rw [isExtended_eq hn] at hids
    rw [flattenList_pass hn hids.1]
    exact ih hsize.2 hids.2

/-! ### Nodes that are met again -/

/-- Below a node without extension tags a walk changes nothing. -/
theorem visits_settled (hacc : Acc (fun c p => t.Child p c) id)
    (hbelow : ∀ y, t.Below id y → y < t.size ∧ t.isExtended isExtension y = false)
    (stack : List NodeId) (count : Nat) :
    ReflTransGen (Visit.Step isExtension) ⟨id :: stack, t, count⟩ ⟨stack, t, count⟩ := by
  induction hacc generalizing stack with
  | intro id _ ih =>
    obtain ⟨hlt, htag⟩ := hbelow id .refl
    obtain ⟨n, hn⟩ := exists_get? hlt
    rw [isExtended_eq hn] at htag
    have hchildren : ∀ ids : List NodeId, (∀ c ∈ ids, t.Child id c) →
        ReflTransGen (Visit.Step isExtension) ⟨ids ++ stack, t, count⟩ ⟨stack, t, count⟩ := by
      intro ids
      induction ids with
      | nil => exact fun _ => .refl
      | cons c ids ih' =>
        intro hids
        rw [List.forall_mem_cons] at hids
        have hc := ih c hids.1 (fun y hy => hbelow y (.head hids.1 hy)) (ids ++ stack)
        exact hc.trans (ih' hids.2)
    exact .head (.pass hn htag) (hchildren _ fun c hc => child_of_mem hn hc)

/-- A child of a node that was seen was seen too, or it is on the stack, and before it there are only
nodes below its parent. -/
def Pends (t : Tree) (seen stack : List NodeId) : Prop :=
  ∀ y ∈ seen, ∀ c, t.Child y c → c ∈ seen ∨
    ∃ before behind, stack = before ++ c :: behind ∧ ∀ x ∈ before, TransGen t.Child y x

theorem Pends.old (h : t.Pends seen (id :: stack)) (hid : id ∈ seen) : t.Pends seen stack := by
  intro y hy c hc
  rcases h y hy c hc with hseen | ⟨before, behind, heq, hbefore⟩
  · exact .inl hseen
  · rcases List.cons_eq_append_iff.mp heq with ⟨rfl, hid'⟩ | ⟨before', rfl, hstack⟩
    · obtain ⟨rfl, -⟩ := List.cons.inj hid'
      exact .inl hid
    · exact .inr ⟨before', behind, hstack, fun x hx => hbefore x (List.mem_cons_of_mem _ hx)⟩

theorem Pends.new (h : t.Pends seen (id :: stack)) :
    t.Pends (id :: seen) (t.members id ++ stack) := by
  intro y hy c hc
  rcases List.mem_cons.mp hy with rfl | hy
  · obtain ⟨before, behind, heq⟩ := List.append_of_mem hc
    refine .inr ⟨before, behind ++ stack, by simp [heq], ?_⟩
    intro x hx
    refine .single ?_
    rw [Child, heq]
    exact List.mem_append_left _ hx
  · rcases h y hy c hc with hseen | ⟨before, behind, heq, hbefore⟩
    · exact .inl (List.mem_cons_of_mem _ hseen)
    · rcases List.cons_eq_append_iff.mp heq with ⟨rfl, hid'⟩ | ⟨before', rfl, hstack⟩
      · obtain ⟨rfl, -⟩ := List.cons.inj hid'
        exact .inl List.mem_cons_self
      · refine .inr ⟨t.members id ++ before', behind, by simp [hstack], ?_⟩
        intro x hx
        rcases List.mem_append.mp hx with hx | hx
        · exact .tail (hbefore id List.mem_cons_self) hx
        · exact hbefore x (List.mem_cons_of_mem _ hx)

/-- When a node is met again, all that is below it was seen: what is on the stack before an unseen
child would lead from the node back to it. -/
theorem Pends.below (h : t.Pends seen (id :: stack)) (hid : id ∈ seen)
    (hcycle : ¬ TransGen t.Child id id) {y : NodeId} (hy : t.Below id y) : y ∈ seen := by
  induction hy with
  | refl => exact hid
  | @tail y c hy hc ih =>
    rcases h y ih c hc with hseen | ⟨before, behind, heq, hbefore⟩
    · exact hseen
    · rcases List.cons_eq_append_iff.mp heq with ⟨rfl, heq⟩ | ⟨before', rfl, -⟩
      · obtain ⟨rfl, -⟩ := List.cons.inj heq
        exact hid
      · exact absurd (TransGen.trans_right hy (hbefore id List.mem_cons_self)) hcycle

/-- A walk without marks flattens what is listed. -/
theorem Lists.visits (hstring : isExtension "!!str" = false) (hin : t.Inside) (hac : t.Acyclic)
    (h : t.Lists seen stack listed) (hpends : t.Pends seen stack)
    (hstack : ∀ x ∈ stack, t.Below root x) (hu : t.Flattens u)
    (hseen : ∀ y ∈ seen, u.isExtended isExtension y = false) (count : Nat) :
    ReflTransGen (Visit.Step isExtension) ⟨stack, u, count⟩
      ⟨[], (flattenList isExtension listed u count).tree,
        (flattenList isExtension listed u count).count⟩ := by
  induction h generalizing u count with
  | done => exact .refl
  | @old seen stack listed id hid _ ih =>
    -- The node is met again: all below it was seen, so the walk goes down there and changes nothing.
    rw [List.forall_mem_cons] at hstack
    have hsettled : ∀ y, u.Below id y → y < u.size ∧ u.isExtended isExtension y = false := by
      intro y hy
      rw [hu.below] at hy
      refine ⟨?_, hseen y (hpends.below hid (hac id hstack.1) hy)⟩
      rw [hu.size]
      exact hin.below t.size_pos (hstack.1.trans hy)
    have hacc : Acc (fun c p => u.Child p c) id := by
      rw [hu.child]
      exact hac.acc hstack.1
    exact (visits_settled hacc hsettled stack count).trans (ih (hpends.old hid) hstack.2 hu hseen count)
  | @new seen stack listed id hid _ ih =>
    rw [List.forall_mem_cons] at hstack
    obtain ⟨n, hn⟩ := exists_get? (t := u) (hu.size ▸ hin.below t.size_pos hstack.1)
    have hmembers : n.children.toList = t.members id := by
      rw [← hu.members, members_eq hn]
    have hstack' : ∀ x ∈ t.members id ++ stack, t.Below root x := by
      intro x hx
      rcases List.mem_append.mp hx with hx | hx
      · exact .tail hstack.1 hx
      · exact hstack.2 x hx
    by_cases htag : isExtension n.tag = true
    · have hin' := hin.flattens hu
      have hseen' : ∀ y ∈ id :: seen,
          (u.modify id (·.flatten (u.arguments n))).isExtended isExtension y = false := by
        intro y hy
        by_cases hyid : id = y
        · rw [← hyid]
          exact isExtended_modify_flatten hstring hn _
        · rw [isExtended_modify_of_ne hyid]
          exact hseen y ((List.mem_cons.mp hy).resolve_left (Ne.symm hyid))
      have hrest := ih hpends.new hstack' (hu.trans (flattens_modify ..)) hseen' (count + 1)
      rw [flattenList_flatten hin' hn htag]
      refine .head (.flatten hn htag (hin'.arguments hn)) ?_
      rw [hmembers]
      exact hrest
    · have htag : isExtension n.tag = false := by simpa using htag
      have hseen' : ∀ y ∈ id :: seen, u.isExtended isExtension y = false := by
        rw [List.forall_mem_cons, isExtended_eq hn]
        exact ⟨htag, hseen⟩
      have hrest := ih hpends.new hstack' hu hseen' count
      rw [flattenList_pass hn htag]
      refine .head (.pass hn htag) ?_
      rw [hmembers]
      exact hrest

/-! ### The document -/

/-- The nodes of the document that have extension tags. -/
def extended (t : Tree) (isExtension : String → Bool) : Set NodeId :=
  {id | t.Below root id ∧ t.isExtended isExtension id = true}

theorem countP_preorder (hin : t.Inside) :
    t.preorder.countP (t.isExtended isExtension) = (t.extended isExtension).ncard := by
  have hset : t.extended isExtension =
      ↑(t.preorder.filter (t.isExtended isExtension)).toFinset := by
    ext id
    simp [extended, mem_preorder hin]
  rw [hset, Set.ncard_coe_finset, List.toFinset_card_of_nodup ((nodup_preorder hin).filter _),
    List.countP_eq_length_filter]

/-- The nodes of the document are flattened where they have extension tags, and have none then. -/
theorem flatten_settles (hstring : isExtension "!!str" = false) (hin : t.Inside) :
    t.flatten isExtension =
      ⟨(t.flatten isExtension).tree, (t.extended isExtension).ncard, none⟩ ∧
    ∀ id, t.Below root id → (t.flatten isExtension).tree.isExtended isExtension id = false := by
  have hsize : ∀ id ∈ t.preorder, id < t.size := by
    intro id hid
    exact hin.below t.size_pos ((mem_preorder hin).mp hid)
  obtain ⟨hforeign, hcount, hsettled⟩ := flattenList_nodup hstring hin hsize (nodup_preorder hin) 0
  rw [Nat.zero_add, countP_preorder hin] at hcount
  refine ⟨?_, ?_⟩
  · rw [flatten, ← hforeign, ← hcount]
  · intro id hid
    exact hsettled id ((mem_preorder hin).mpr hid)

/-- A document without extension tags stays as it is. -/
theorem flatten_of_settled (hin : t.Inside)
    (h : ∀ id, t.Below root id → t.isExtended isExtension id = false) :
    t.flatten isExtension = ⟨t, 0, none⟩ := by
  refine flattenList_settled ?_ ?_
  · intro id hid
    exact hin.below t.size_pos ((mem_preorder hin).mp hid)
  · intro id hid
    exact h id ((mem_preorder hin).mp hid)

/-- The walk without marks comes to the tree that `flatten` makes. -/
theorem visits_flatten (hstring : isExtension "!!str" = false) (hin : t.Inside) (hac : t.Acyclic) :
    ReflTransGen (Visit.Step isExtension) ⟨[root], t, 0⟩
      ⟨[], (t.flatten isExtension).tree, (t.flatten isExtension).count⟩ := by
  have hstack : ∀ x ∈ [root], t.Below root x := by
    intro x hx
    rw [List.mem_singleton.mp hx]
    exact .refl
  exact (lists_preorder hin).visits hstring hin hac nofun hstack (.refl t) nofun 0

end Tree

namespace Settings

/-- Where all children are nodes of the tree, the walk does not end at a number outside. -/
theorem flatten_eq (s : Settings) {t : Tree} (hin : t.Inside) :
    s.flatten t = ⟨(s.flatten t).tree, (s.flatten t).count, none⟩ := by
  have hforeign : (s.flatten t).foreign = none := by
    rw [flatten, (Tree.flatten_settles rfl hin).1]
  rw [← hforeign]

/-- Flattening ends where children are nodes of the tree and do not lead back, whatever the pattern
is: by the plain walk every way of doing the rounds comes to the tree that `flatten` makes.  No node
of the document has an extension tag then, the number of those that had one is returned, and a second
walk changes nothing. -/
theorem flatten_exhausts (s : Settings) {t : Tree} (hin : t.Inside) (hac : t.Acyclic) :
    ∃ t', s.flatten t = ⟨t', (t.extended s.isExtensionTag).ncard, none⟩ ∧
      Acc (fun w v => Visit.Step s.isExtensionTag v w) ⟨[Tree.root], t, 0⟩ ∧
      ReflTransGen (Visit.Step s.isExtensionTag) ⟨[Tree.root], t, 0⟩
        ⟨[], t', (t.extended s.isExtensionTag).ncard⟩ ∧
      (∀ id n, t'.Below Tree.root id → t'.get? id = some n → s.isExtensionTag n.tag = false) ∧
      s.flatten t' = ⟨t', 0, none⟩ ∧
      ReflTransGen (Visit.Step s.isExtensionTag) ⟨[Tree.root], t', 0⟩ ⟨[], t', 0⟩ := by
  have hstring : s.isExtensionTag "!!str" = false := rfl
  have hflat := Tree.flattens_flatten t s.isExtensionTag
  obtain ⟨heq, hsettled⟩ := Tree.flatten_settles hstring hin
  have hvisits := Tree.visits_flatten hstring hin hac
  have hin' := hin.flattens hflat
  have hac' := hac.flattens hflat
  have hvisits' := Tree.visits_flatten hstring hin' hac'
  rw [← hflat.below] at hsettled
  have hagain := Tree.flatten_of_settled hin' hsettled
  rw [hagain] at hvisits'
  rw [heq] at hvisits
  refine ⟨_, heq, Visit.acc_of_empty hvisits, hvisits, ?_, hagain, hvisits'⟩
  intro id n hid hn
  have hid := hsettled id hid
  rwa [Tree.isExtended_eq hn] at hid

/-- Two nodes are flattened here: one is a child twice, the other is a child of the first and of its
parent. -/
theorem flatten_exhausts_shared :
    let t : Tree := ⟨#[{ kind := .document, children := #[1] },
      { kind := .sequence, children := #[2, 2, 3] },
      { kind := .sequence, tag := "!Find", children := #[3] },
      { kind := .scalar, tag := "!KeyOf", value := "a" }], by decide⟩
    t.Inside ∧ t.Acyclic ∧ ∃ t', default.flatten t = ⟨t', 2, none⟩ ∧
      default.flatten t' = ⟨t', 0, none⟩ := by
  intro t
  have hchildren : ∀ p < t.size, ∀ c ∈ t.members p, p < c ∧ c < t.size := by decide
  have hchild : ∀ p c, t.Child p c → p < c ∧ c < t.size := fun p c h => hchildren p h.lt_size c h
  have hin : t.Inside := fun p c h => (hchild p c h).2
  have hac : t.Acyclic := Tree.acyclic_of_lt fun p c h => (hchild p c h).1
  have hcount : t.preorder.countP (t.isExtended default.isExtensionTag) = 2 := by decide +kernel
  rw [Tree.countP_preorder hin] at hcount
  obtain ⟨t', hflat, -, -, -, hagain, -⟩ := default.flatten_exhausts hin hac
  rw [hcount] at hflat
  exact ⟨hin, hac, t', hflat, hagain⟩

end Settings

end TaggedYaml
