import TaggedYaml.Proofs.Shape.Written

/-!
# Pieces — a written tree with the nodes that names are written for

The text of a tree is cut into pieces, so that each anchor and each alias in it is a piece of its own
and tells its node.  The pieces are written as the text is, and together they are the text
(`render_writePieces`).
-/

namespace TaggedYaml

/-- A piece of written text. -/
inductive Piece where
  | text (cs : List Char)
  /-- The anchor of a node. -/
  | anchor (id : NodeId) (name : String)
  /-- A node that is an alias. -/
  | alias (id : NodeId) (name : String)
deriving DecidableEq, Repr

namespace Piece

def chars : Piece → List Char
  | .text cs => cs
  | .anchor _ name => '&' :: name.toList
  | .alias _ name => '*' :: name.toList

/-- The text that pieces make. -/
def render (ps : List Piece) : List Char := ps.flatMap chars

@[simp] theorem render_nil : render [] = [] := rfl

@[simp] theorem render_cons (p : Piece) (ps : List Piece) :
    render (p :: ps) = p.chars ++ render ps := rfl

@[simp] theorem render_append (ps qs : List Piece) : render (ps ++ qs) = render ps ++ render qs := by
  simp [render]

/-- Properties before a text. -/
def join (properties : List Piece) (text : List Char) : List Piece :=
  if properties.isEmpty then [.text text]
  else if text.isEmpty then properties
  else properties ++ [.text (' ' :: text)]

/-- Members with an indentation before each; the first may stand on a line that has begun. -/
def padded (indent : Nat) : Bool → List (List Piece) → List Piece
  | _, [] => []
  | onLine, x :: rest => .text (if onLine then [] else pad indent) :: (x ++ padded indent false rest)

theorem render_padded (indent : Nat) : ∀ (onLine : Bool) (xs : List (List Piece)),
    render (padded indent onLine xs) = TaggedYaml.padded indent onLine (xs.map render)
  | _, [] => rfl
  | onLine, x :: rest => by
    rw [padded, render_cons, render_append, render_padded indent false rest, List.map_cons,
      TaggedYaml.padded, chars]

end Piece

/-- The pieces of the properties of a node. -/
def Node.propertyPieces (n : Node) (id : NodeId) : List Piece :=
  let anchor := (n.anchor.map (Piece.anchor id)).toList
  let gap := if n.anchor.isSome then [' '] else []
  anchor ++ if n.hasOwnTag && n.kind != .alias then [.text (gap ++ n.tag.toList)] else []

theorem Node.render_propertyPieces (n : Node) (id : NodeId) :
    Piece.render (n.propertyPieces id) = n.properties := by
  rw [propertyPieces, properties]
  cases n.anchor <;> split <;> simp [Piece.chars]

theorem Node.isEmpty_propertyPieces (n : Node) (id : NodeId) :
    (n.propertyPieces id).isEmpty = n.properties.isEmpty := by
  rw [propertyPieces, properties]
  cases n.anchor with
  | some name =>
    simp only [Option.map_some]
    split <;> simp_all
  | none =>
    by_cases h : (n.hasOwnTag && n.kind != .alias) = true
    · have htag : n.tag ≠ "" := by
        simp [hasOwnTag] at h
        exact h.1.1
      have htext : n.tag.toList ≠ [] := by simpa using htag
      simp [h, htext]
    · simp [h]

theorem Node.render_join (n : Node) (id : NodeId) (text : List Char) :
    Piece.render (Piece.join (n.propertyPieces id) text) = joinProperties n.properties text := by
  rw [Piece.join, joinProperties, n.isEmpty_propertyPieces id]
  split
  · simp [Piece.chars]
  · split
    · exact n.render_propertyPieces id
    · simp [Piece.chars, n.render_propertyPieces id]

/-- What is written before the members of a collection. -/
def Position.head (p : Position) (properties : List Piece) : List Piece :=
  match p, properties.isEmpty with
  | .top, true => []
  | .top, false => properties ++ [.text ['\n']]
  | .mapValue, true => [.text ['\n']]
  | .seqItem, true => [.text [' ']]
  | _, false => .text [' '] :: properties ++ [.text ['\n']]

theorem Position.render_head (p : Position) (indent : Nat) (n : Node) (id : NodeId) :
    Piece.render (p.head (n.propertyPieces id)) = (p.open indent n.properties).2.2 := by
  rw [head.eq_def, Position.open.eq_def, n.isEmpty_propertyPieces id]
  cases p <;> cases n.properties.isEmpty <;> simp [Piece.chars, n.render_propertyPieces id]

namespace Tree

variable {t : Tree} {id : NodeId}

/-- The pieces of a key. -/
def keyPieces (t : Tree) (id : NodeId) : Except Error (List Piece) := do
  let n ← t.node id
  match n.kind with
  | .alias =>
    let _ ← t.aliased id n.value
    return [.alias id n.value, .text [' ']]
  | .scalar =>
    let text := n.inlineText
    return Piece.join (n.propertyPieces id) (if text.isEmpty then writeString n.value.toList else text)
  | _ => return [.text (writeString (← t.keyText id).toList)]

/-- The pieces of a scalar that is a value. -/
def scalarPieces (n : Node) (id : NodeId) (indent : Nat) (position : Position) : List Piece :=
  match n.literalBlock? with
  | some (header, body) =>
    .text position.gap :: Piece.join (n.propertyPieces id) header ++
      [.text ('\n' :: blockLines (indent + indentStep) body)]
  | none =>
    let line := Piece.join (n.propertyPieces id) n.inlineText
    (if (Piece.render line).isEmpty then [] else .text position.gap :: line) ++ [.text ['\n']]

/-- The pieces of a value, up to the end of its last line. -/
def valuePieces (t : Tree) (maxDepth : Nat) :
    Nat → NodeId → Nat → Position → Except Error (List Piece)
  | room, id, indent, position => do
    let n ← t.node id
    match n.kind with
    | .document => throw .nestedDocument
    | .alias =>
      let _ ← t.aliased id n.value
      return [.text position.gap, .alias id n.value, .text ['\n']]
    | .scalar => return scalarPieces n id indent position
    | .mapping =>
      match room with
      | 0 => throw (.depthExceeded maxDepth)
      | room + 1 =>
        if n.children.isEmpty then
          return .text position.gap :: Piece.join (n.propertyPieces id) ['\x7b', '\x7d'] ++ [.text ['\n']]
        let (indent, onLine, _) := position.open indent n.properties
        let entries ← (inPairs n.children.toList).mapM fun (k, v) => do
          let key ← t.keyPieces k
          let value ←
            match v with
            | some v => valuePieces t maxDepth room v indent .mapValue
            | none => pure [.text ['\n']]
          return key ++ .text [':'] :: value
        return position.head (n.propertyPieces id) ++ Piece.padded indent onLine entries
    | .sequence =>
      match room with
      | 0 => throw (.depthExceeded maxDepth)
      | room + 1 =>
        if n.children.isEmpty then
          return .text position.gap :: Piece.join (n.propertyPieces id) ['[', ']'] ++ [.text ['\n']]
        let (indent, onLine, _) := position.open indent n.properties
        let items ← n.children.toList.mapM fun c => do
          return .text ['-'] :: (← valuePieces t maxDepth room c indent .seqItem)
        return position.head (n.propertyPieces id) ++ Piece.padded indent onLine items

/-- The pieces of a document. -/
def writePieces (t : Tree) (maxDepth : Nat) : Except Error (List Piece) :=
  match t.rootValue? with
  | none => .ok []
  | some v => t.valuePieces maxDepth maxDepth v 0 .top

/-! ### The text of the pieces -/

theorem render_keyPieces (t : Tree) (id : NodeId) : (t.keyPieces id).map Piece.render = t.writeKey id := by
  rw [keyPieces, writeKey]
  cases hn : t.node id with
  | error e => rfl
  | ok n =>
    simp only [bind, Except.bind]
    cases hk : n.kind with
    | «alias» =>
      cases t.aliased id n.value with
      | error e => rfl
      | ok r => rfl
    | scalar => exact congrArg Except.ok (n.render_join id _)
    | _ =>
      cases t.keyText id with
      | error e => rfl
      | ok text => simp [pure, Except.pure, Except.map, Piece.chars]

theorem render_scalarPieces (n : Node) (id : NodeId) (indent : Nat) (position : Position) :
    Piece.render (scalarPieces n id indent position) =
      match n.literalBlock? with
      | some (header, body) => position.gap ++ joinProperties n.properties header ++
          '\n' :: blockLines (indent + indentStep) body
      | none => position.line (joinProperties n.properties n.inlineText) := by
  rw [scalarPieces]
  cases n.literalBlock? with
  | some block => simp [n.render_join, Piece.chars]
  | none =>
    dsimp only
    rw [Position.line, ← n.render_join id]
    split <;> simp [Piece.chars]

/-- The pieces of an item, which are written with less room. -/
def itemPieces (t : Tree) (maxDepth room indent : Nat) (id : NodeId) : Except Error (List Piece) := do
  return .text ['-'] :: (← t.valuePieces maxDepth room id indent .seqItem)

/-- The pieces of an entry, which are written with less room. -/
def entryPieces (t : Tree) (maxDepth room indent : Nat) (entry : NodeId × Option NodeId) :
    Except Error (List Piece) := do
  let key ← t.keyPieces entry.1
  let value ←
    match entry.2 with
    | some v => t.valuePieces maxDepth room v indent .mapValue
    | none => pure [.text ['\n']]
  return key ++ .text [':'] :: value

variable {n : Node} {maxDepth room indent : Nat} {position : Position}

theorem valuePieces_scalar (hn : t.get? id = some n) (hk : n.kind = .scalar) :
    t.valuePieces maxDepth room id indent position = .ok (scalarPieces n id indent position) := by
  rw [valuePieces.eq_def]
  simp only [bind_ok (node_eq_ok.mpr hn), hk]
  rfl

theorem valuePieces_alias (hn : t.get? id = some n) (hk : n.kind = .alias) :
    t.valuePieces maxDepth room id indent position = (t.aliased id n.value).bind fun _ =>
      .ok [.text position.gap, .alias id n.value, .text ['\n']] := by
  rw [valuePieces.eq_def]
  simp only [bind_ok (node_eq_ok.mpr hn), hk]
  rfl

theorem valuePieces_sequence (hn : t.get? id = some n) (hk : n.kind = .sequence) :
    t.valuePieces maxDepth (room + 1) id indent position =
      if n.children.isEmpty then
        .ok (.text position.gap :: Piece.join (n.propertyPieces id) ['[', ']'] ++ [.text ['\n']])
      else
        let (indent, onLine, _) := position.open indent n.properties
        (n.children.toList.mapM (t.itemPieces maxDepth room indent)).map
          fun items => position.head (n.propertyPieces id) ++ Piece.padded indent onLine items := by
  rw [valuePieces.eq_def]
  simp only [bind_ok (node_eq_ok.mpr hn), hk]
  split
  · rfl
  · rfl

theorem valuePieces_mapping (hn : t.get? id = some n) (hk : n.kind = .mapping) :
    t.valuePieces maxDepth (room + 1) id indent position =
      if n.children.isEmpty then
        .ok (.text position.gap :: Piece.join (n.propertyPieces id) ['\x7b', '\x7d'] ++ [.text ['\n']])
      else
        let (indent, onLine, _) := position.open indent n.properties
        ((inPairs n.children.toList).mapM (t.entryPieces maxDepth room indent)).map
          fun entries => position.head (n.propertyPieces id) ++ Piece.padded indent onLine entries := by
  rw [valuePieces.eq_def]
  simp only [bind_ok (node_eq_ok.mpr hn), hk]
  split
  · rfl
  · rfl

theorem valuePieces_zero (hn : t.get? id = some n) (hk : n.kind.isCollection = true) :
    t.valuePieces maxDepth 0 id indent position = .error (.depthExceeded maxDepth) := by
  rw [valuePieces.eq_def]
  simp only [bind_ok (node_eq_ok.mpr hn)]
  cases hk' : n.kind with
  | mapping => rfl
  | sequence => rfl
  | _ => simp [Kind.isCollection, hk'] at hk

theorem valuePieces_document (hn : t.get? id = some n) (hk : n.kind = .document) :
    t.valuePieces maxDepth room id indent position = .error .nestedDocument := by
  rw [valuePieces.eq_def]
  simp only [bind_ok (node_eq_ok.mpr hn), hk]
  rfl

theorem render_entryPieces (ih : ∀ id indent position,
      (t.valuePieces maxDepth room id indent position).map Piece.render =
        t.writeValue maxDepth room id indent position) (entry : NodeId × Option NodeId) :
    (t.entryPieces maxDepth room indent entry).map Piece.render =
      t.writeEntry maxDepth room indent entry := by
  rw [entryPieces, writeEntry, ← render_keyPieces]
  cases t.keyPieces entry.1 with
  | error e => rfl
  | ok key =>
    cases entry.2 with
    | none => simp [Except.map, bind, Except.bind, pure, Except.pure, Piece.chars]
    | some v =>
      simp only [bind, Except.bind, Except.map, ← ih v]
      cases t.valuePieces maxDepth room v indent .mapValue with
      | error e => rfl
      | ok value => simp [pure, Except.pure, Piece.chars]

theorem render_itemPieces (ih : ∀ id indent position,
      (t.valuePieces maxDepth room id indent position).map Piece.render =
        t.writeValue maxDepth room id indent position) (id : NodeId) :
    (t.itemPieces maxDepth room indent id).map Piece.render = t.writeItem maxDepth room indent id := by
  rw [itemPieces, writeItem, ← ih]
  cases t.valuePieces maxDepth room id indent .seqItem with
  | error e => rfl
  | ok value => rfl

/-- Pieces of members behind those of the collection. -/
theorem render_members {α : Type} {f : α → Except Error (List Piece)}
    {g : α → Except Error (List Char)} (h : ∀ a, (f a).map Piece.render = g a) (xs : List α)
    (head : List Piece) (onLine : Bool) :
    ((xs.mapM f).map fun ys => head ++ Piece.padded indent onLine ys).map Piece.render =
      (xs.mapM g).map fun ys => Piece.render head ++ padded indent onLine ys := by
  have hg : g = fun a => (f a).map Piece.render := funext fun a => (h a).symm
  rw [hg, ← mapM_map]
  cases xs.mapM f with
  | error e => rfl
  | ok ys =>
    show Except.ok _ = Except.ok _
    rw [Piece.render_append, Piece.render_padded]

theorem render_foreign (h : t.get? id = none) :
    (t.valuePieces maxDepth room id indent position).map Piece.render =
      t.writeValue maxDepth room id indent position := by
  have hnode : t.node id = .error (.foreignNode id) := by
    unfold node
    rw [h]
  rw [valuePieces.eq_def, writeValue.eq_def]
  simp only [hnode]
  rfl

/-- A node without members is written in the same way whatever room there is. -/
theorem render_leafPieces (hn : t.get? id = some n) (hk : n.kind.isCollection = false) :
    (t.valuePieces maxDepth room id indent position).map Piece.render =
      t.writeValue maxDepth room id indent position := by
  cases hk' : n.kind with
  | document =>
    rw [valuePieces_document hn hk', writeValue_document hn hk']
    rfl
  | scalar =>
    rw [valuePieces_scalar hn hk', writeValue_scalar hn hk']
    show Except.ok _ = Except.ok _
    rw [render_scalarPieces, Face.written, ← Node.properties_face (by rw [hk']; decide)]
    rfl
  | «alias» =>
    rw [valuePieces_alias hn hk', writeValue_alias hn hk']
    cases t.aliased id n.value with
    | error e => rfl
    | ok r => simp [Except.map, Except.bind, Piece.chars]
  | mapping => simp [hk', Kind.isCollection] at hk
  | sequence => simp [hk', Kind.isCollection] at hk

/-- The pieces of a value are its text. -/
theorem render_valuePieces (t : Tree) (maxDepth : Nat) : ∀ (room : Nat) (id : NodeId) (indent : Nat)
    (position : Position), (t.valuePieces maxDepth room id indent position).map Piece.render =
      t.writeValue maxDepth room id indent position := by
  intro room
  induction room with
  | zero =>
    intro id indent position
    cases hn : t.get? id with
    | none => exact render_foreign hn
    | some n =>
      by_cases hk : n.kind.isCollection = true
      · rw [valuePieces_zero hn hk, writeValue_zero hn hk]
        rfl
      · exact render_leafPieces hn (by simpa using hk)
  | succ room ih =>
    intro id indent position
    cases hn : t.get? id with
    | none => exact render_foreign hn
    | some n =>
      have hhead := position.render_head indent n id
      cases hk : n.kind with
      | sequence =>
        have hp := Node.properties_face (n := n) (by rw [hk]; decide)
        rw [valuePieces_sequence hn hk, writeValue_sequence hn hk, ← hp]
        split
        · show Except.ok _ = Except.ok _
          simp [n.render_join, Piece.chars]
        · generalize position.open indent n.properties = opened at hhead ⊢
          obtain ⟨inner, onLine, head⟩ := opened
          exact (render_members (render_itemPieces ih) _ _ _).trans (by rw [hhead])
      | mapping =>
        have hp := Node.properties_face (n := n) (by rw [hk]; decide)
        rw [valuePieces_mapping hn hk, writeValue_mapping hn hk, ← hp]
        split
        · show Except.ok _ = Except.ok _
          simp [n.render_join, Piece.chars]
        · generalize position.open indent n.properties = opened at hhead ⊢
          obtain ⟨inner, onLine, head⟩ := opened
          exact (render_members (render_entryPieces ih) _ _ _).trans (by rw [hhead])
      | _ => exact render_leafPieces hn (by rw [hk]; rfl)

/-- The pieces of a document are its text. -/
theorem render_writePieces (t : Tree) (maxDepth : Nat) :
    (t.writePieces maxDepth).map (fun ps => String.ofList (Piece.render ps)) = t.write maxDepth := by
  rw [writePieces, write]
  cases t.rootValue? with
  | none => rfl
  | some v =>
    simp only [← render_valuePieces]
    cases t.valuePieces maxDepth maxDepth v 0 .top with
    | error e => rfl
    | ok ps => rfl

end Tree

end TaggedYaml
