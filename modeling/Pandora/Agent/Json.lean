import Pandora.Foundation.Float64
import Pandora.Foundation.Text

/-!
# Configuration documents

A configuration is a JSON object, decoded.  The document of the panel is decoded with its numbers
as they are written, and what is kept of it for a rollback is encoded and decoded once more, with
numbers of 64 bits (`cloneConfigMap`).  A number is its value here, so the one copy differs from
the other where the value is not one of that format, and there is no copy where it is too large.
-/

namespace Pandora.Agent

/-- A decoded JSON value. -/
inductive Json
  | null
  | bool (b : Bool)
  | num (q : ℚ)
  | str (s : String)
  | arr (items : List Json)
  | obj (fields : List (String × Json))

open Json

/-- A decoded object, `map[string]any`. -/
abbrev Document : Type := List (String × Json)

/-- The value of a field. -/
def Document.field (cfg : Document) (key : String) : Option Json :=
  (cfg.find? fun entry => entry.1 = key).map (·.2)

mutual

/-- A value encoded and decoded again. -/
def Json.clone : Json → Option Json
  | .num q => (float64 q).map .num
  | .arr items => (cloneItems items).map .arr
  | .obj fields => (cloneFields fields).map .obj
  | .null => some .null
  | .bool b => some (.bool b)
  | .str s => some (.str s)

def cloneItems : List Json → Option (List Json)
  | [] => some []
  | v :: items => do
    let v ← v.clone
    let items ← cloneItems items
    pure (v :: items)

def cloneFields : List (String × Json) → Option (List (String × Json))
  | [] => some []
  | (key, v) :: fields => do
    let v ← v.clone
    let fields ← cloneFields fields
    pure ((key, v) :: fields)

end

def cloneConfigMap (cfg : Document) : Option Document := cloneFields cfg

mutual

/-- All numbers of a value are of the format. -/
def Json.Exact : Json → Prop
  | .num q => float64 q = some q
  | .arr items => ExactItems items
  | .obj fields => ExactFields fields
  | _ => True

def ExactItems : List Json → Prop
  | [] => True
  | v :: items => v.Exact ∧ ExactItems items

def ExactFields : List (String × Json) → Prop
  | [] => True
  | (_, v) :: fields => v.Exact ∧ ExactFields fields

end

/-- All numbers of a document are of the format. -/
def Document.Exact (cfg : Document) : Prop := ExactFields cfg

mutual

theorem Json.clone_of_exact : ∀ {v : Json}, v.Exact → v.clone = some v
  | .num q, h => by
    rw [Exact] at h
    rw [clone, h]
    rfl
  | .arr items, h => by
    rw [Exact] at h
    rw [clone, cloneItems_of_exact h]
    rfl
  | .obj fields, h => by
    rw [Exact] at h
    rw [clone, cloneFields_of_exact h]
    rfl
  | .null, _ => by rw [clone]
  | .bool b, _ => by rw [clone]
  | .str s, _ => by rw [clone]

theorem cloneItems_of_exact : ∀ {items : List Json}, ExactItems items →
    cloneItems items = some items
  | [], _ => by rw [cloneItems]
  | v :: items, h => by
    rw [ExactItems] at h
    rw [cloneItems, Json.clone_of_exact h.1, cloneItems_of_exact h.2]
    rfl

theorem cloneFields_of_exact : ∀ {fields : List (String × Json)}, ExactFields fields →
    cloneFields fields = some fields
  | [], _ => by rw [cloneFields]
  | (key, v) :: fields, h => by
    rw [ExactFields] at h
    rw [cloneFields, Json.clone_of_exact h.1, cloneFields_of_exact h.2]
    rfl

end

theorem cloneConfigMap_of_exact {cfg : Document} (h : cfg.Exact) : cloneConfigMap cfg = some cfg :=
  cloneFields_of_exact h

end Pandora.Agent
