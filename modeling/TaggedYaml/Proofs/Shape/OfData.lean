import TaggedYaml.Tree.OfData
import TaggedYaml.Proofs.Shape.Basic

/-!
# Data as plain data and as a shape

Data from a source is plain data once every scalar is its text: numbers are written out, and what
might have been missing is what is there.  Anything may be a key; a scalar counts by its text and a
collection by none.  The first thing that cannot be in a document, if there is one, is the defect of
the data.
-/

namespace TaggedYaml

namespace Json.Data

/-- The text of a scalar; a collection has none. -/
def said : Data → String
  | .null => "null"
  | .bool b => if b then "true" else "false"
  | .int signed bits => toString (intOfBits signed bits)
  | .float x => floatText x
  | .text s => s
  | .some d => said d
  | .list _ | .map _ | .long .. | .bytes | .newtype | .enum | .failure _ => ""

mutual

/-- Data with every scalar as its text.  Of entries with one key the first gives the place and the
last the value. -/
def value : Data → Value
  | .list items => .list (itemValues items)
  | .map entries => .map (entryValues [] entries)
  | .some d => value d
  | .null => .text (said .null)
  | .bool b => .text (said (.bool b))
  | .int signed bits => .text (said (.int signed bits))
  | .float x => .text (said (.float x))
  | .text s => .text s
  | .long .. | .bytes | .newtype | .enum | .failure _ => .text ""

def itemValues : List Data → List Value
  | [] => []
  | d :: rest => value d :: itemValues rest

/-- Puts entries into a map. -/
def entryValues (into : List (String × Value)) : List (Data × Data) → List (String × Value)
  | [] => into
  | (k, v) :: rest => entryValues (Value.put k.said (value v) into) rest

end

mutual

/-- How far sequences and maps nest outside of keys. -/
def height : Data → Nat
  | .list items => itemsHeight items + 1
  | .map entries => entriesHeight entries + 1
  | .some d => height d
  | .null | .bool _ | .int .. | .long .. | .float _ | .text _ => 0
  | .bytes | .newtype | .enum | .failure _ => 0

def itemsHeight : List Data → Nat
  | [] => 0
  | d :: rest => max (height d) (itemsHeight rest)

def entriesHeight : List (Data × Data) → Nat
  | [] => 0
  | (_, v) :: rest => max (height v) (entriesHeight rest)

end

mutual

/-- In the order of delivery, the first data for which a document has no place, or the failure of the
source. -/
def defect? : Data → Option Defect
  | .list items => itemsDefect? items
  | .map entries => entriesDefect? entries
  | .some d => defect? d
  | .null | .bool _ | .int .. | .float _ | .text _ => none
  | .long signed bits => .some (.found (.long signed bits) Tree.dataExpected)
  | .bytes => .some (.found .bytes Tree.dataExpected)
  | .newtype => .some (.found .newtype Tree.dataExpected)
  | .enum => .some (.found .enum Tree.dataExpected)
  | .failure message => .some (.source message)

def itemsDefect? : List Data → Option Defect
  | [] => none
  | d :: rest => (defect? d).or (itemsDefect? rest)

def entriesDefect? : List (Data × Data) → Option Defect
  | [] => none
  | (k, v) :: rest => (defect? k).or ((defect? v).or (entriesDefect? rest))

end

end Json.Data

/-! ### The shape of data -/

namespace Shape

open Json (Data)

/-- A shape in the place of a key. -/
def key : Shape → Key
  | .scalar f => .scalar f
  | .alias name => .alias name ""
  | .sequence f _ | .mapping f _ => .other f.text

mutual

/-- Data as strings between double quotes, as plain scalars and as collections. -/
def ofData : Data → Shape
  | .list items => .sequence {} (itemsOfData items)
  | .map entries => .mapping {} (entriesOfData entries)
  | .some d => ofData d
  | .null => .scalar { text := Data.said .null }
  | .bool b => .scalar { text := Data.said (.bool b) }
  | .int signed bits => .scalar { text := Data.said (.int signed bits) }
  | .float x => .scalar { text := Data.said (.float x) }
  | .text s => .scalar { text := s, style := .double }
  | .long .. | .bytes | .newtype | .enum | .failure _ => .empty

def itemsOfData : List Data → List Shape
  | [] => []
  | d :: rest => ofData d :: itemsOfData rest

def entriesOfData : List (Data × Data) → List (Key × Shape)
  | [] => []
  | (k, v) :: rest => ((ofData k).key, ofData v) :: entriesOfData rest

end

theorem text_key_ofData : ∀ d : Data, (ofData d).key.text = d.said
  | .some d => by
    rw [ofData, Data.said]
    exact text_key_ofData d
  | .list _ | .map _ => rfl
  | .null | .bool _ | .int .. | .float _ | .text _ => rfl
  | .long .. | .bytes | .newtype | .enum | .failure _ => rfl

mutual

theorem value_ofData : ∀ d : Data, (ofData d).value = d.value
  | .list items => by rw [ofData, value, Data.value, valueItems_ofData items]
  | .map entries => by rw [ofData, value, Data.value, valueEntries_ofData entries]
  | .some d => by
    rw [ofData, Data.value]
    exact value_ofData d
  | .null | .bool _ | .int .. | .float _ | .text _ => rfl
  | .long .. | .bytes | .newtype | .enum | .failure _ => rfl

theorem valueItems_ofData : ∀ items : List Data,
    valueItems (itemsOfData items) = Data.itemValues items
  | [] => rfl
  | d :: rest => by
    rw [itemsOfData, valueItems, Data.itemValues, value_ofData d, valueItems_ofData rest]

theorem valueEntries_ofData : ∀ (entries : List (Data × Data)) {into : List (String × Value)},
    valueEntries into (entriesOfData entries) = Data.entryValues into entries
  | [], _ => rfl
  | (k, v) :: rest, into => by
    rw [entriesOfData, valueEntries, Data.entryValues, text_key_ofData, value_ofData v,
      valueEntries_ofData rest]

end

mutual

theorem height_ofData : ∀ d : Data, (ofData d).height = d.height
  | .list items => by rw [ofData, height, Data.height, heightItems_ofData items]
  | .map entries => by rw [ofData, height, Data.height, heightEntries_ofData entries]
  | .some d => by
    rw [ofData, Data.height]
    exact height_ofData d
  | .null | .bool _ | .int .. | .float _ | .text _ => rfl
  | .long .. | .bytes | .newtype | .enum | .failure _ => rfl

theorem heightItems_ofData : ∀ items : List Data,
    heightItems (itemsOfData items) = Data.itemsHeight items
  | [] => rfl
  | d :: rest => by
    rw [itemsOfData, heightItems, Data.itemsHeight, height_ofData d, heightItems_ofData rest]

theorem heightEntries_ofData : ∀ entries : List (Data × Data),
    heightEntries (entriesOfData entries) = Data.entriesHeight entries
  | [] => rfl
  | (_, v) :: rest => by
    rw [entriesOfData, heightEntries, Data.entriesHeight, height_ofData v,
      heightEntries_ofData rest]

end

mutual

theorem direct_ofData : ∀ d : Data, (ofData d).Direct
  | .list items => directItems_ofData items
  | .map entries => directEntries_ofData entries
  | .some d => direct_ofData d
  | .null | .bool _ | .int .. | .float _ | .text _ => trivial
  | .long .. | .bytes | .newtype | .enum | .failure _ => trivial

theorem directItems_ofData : ∀ items : List Data, DirectItems (itemsOfData items)
  | [] => trivial
  | d :: rest => ⟨direct_ofData d, directItems_ofData rest⟩

theorem directEntries_ofData : ∀ entries : List (Data × Data), DirectEntries (entriesOfData entries)
  | [] => trivial
  | (_, v) :: rest => ⟨direct_ofData v, directEntries_ofData rest⟩

end

end Shape

end TaggedYaml
