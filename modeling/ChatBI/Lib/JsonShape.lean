import Mathlib.Data.List.Nodup
import Mathlib.Tactic.Lemma

/-!
# JSON values and their shapes

Objects keep their fields in order. A floating point number is the bit pattern of an
IEEE 754 double; integers are exact. A shape says for every position of a JSON value what may stand
there, and for every object which keys it may have.
-/

namespace ChatBI.Lib

inductive Json where
  | null
  | bool (b : Bool)
  | int (n : Int)
  | float (bits : UInt64)
  | str (s : String)
  | arr (items : List Json)
  | obj (fields : List (String × Json))

namespace Json

/-- The value of a key, `none` when the value is no object or has no such key. -/
def get? : Json → String → Option Json
  | obj fields, k => (fields.find? (fun f => f.1 = k)).map Prod.snd
  | _, _ => none

/-- No object has a key twice. -/
inductive UniqueKeys : Json → Prop where
  | null : UniqueKeys .null
  | bool (b : Bool) : UniqueKeys (.bool b)
  | int (n : Int) : UniqueKeys (.int n)
  | float (bits : UInt64) : UniqueKeys (.float bits)
  | str (s : String) : UniqueKeys (.str s)
  | arr {items : List Json} (h : ∀ v ∈ items, UniqueKeys v) : UniqueKeys (.arr items)
  | obj {fields : List (String × Json)} (hkeys : (fields.map Prod.fst).Nodup)
      (h : ∀ m ∈ fields, UniqueKeys m.2) : UniqueKeys (.obj fields)

attribute [simp] UniqueKeys.null UniqueKeys.bool UniqueKeys.int UniqueKeys.float UniqueKeys.str

@[simp] lemma uniqueKeys_arr {items : List Json} :
    (arr items).UniqueKeys ↔ ∀ v ∈ items, v.UniqueKeys := by
  constructor
  · rintro (_ | _ | _ | _ | _ | h)
    exact h
  · exact .arr

@[simp] lemma uniqueKeys_obj {fields : List (String × Json)} :
    (obj fields).UniqueKeys ↔ (fields.map Prod.fst).Nodup ∧ ∀ m ∈ fields, m.2.UniqueKeys := by
  constructor
  · rintro (_ | _ | _ | _ | _ | _ | ⟨hkeys, h⟩)
    exact ⟨hkeys, h⟩
  · exact fun h => .obj h.1 h.2

/-- `math.isfinite` of a double. -/
def isFinite (bits : UInt64) : Bool := bits &&& 0x7FF0000000000000 ≠ 0x7FF0000000000000

def isString : Json → Bool
  | .str _ => true
  | _ => false

def isInt : Json → Bool
  | .int _ => true
  | _ => false

def isBool : Json → Bool
  | .bool _ => true
  | _ => false

def isList : Json → Bool
  | .arr _ => true
  | _ => false

def isDict : Json → Bool
  | .obj _ => true
  | _ => false

def isNull : Json → Bool
  | .null => true
  | _ => false

/-- The value of a key that is there. -/
def field (v : Json) (k : String) : Json := (v.get? k).getD .null

/-- The elements of a list. -/
def items : Json → List Json
  | .arr items => items
  | _ => []

/-- The characters of a text. -/
def text : Json → String
  | .str s => s
  | _ => ""

/-- The members of an object. -/
def members : Json → List (String × Json)
  | .obj fields => fields
  | _ => []

lemma field_of_get? {v x : Json} {k : String} (h : v.get? k = some x) : v.field k = x := by
  rw [field, h, Option.getD_some]

/-- The fields of an object, one after the other. -/
lemma field_cons {k k' : String} {v : Json} {fields : List (String × Json)} :
    (obj ((k, v) :: fields)).field k' = if k = k' then v else (obj fields).field k' := by
  by_cases h : k = k'
  · simp [field, get?, h]
  · simp [field, get?, h]

lemma eq_arr_of_isList {v : Json} (h : v.isList = true) : v = .arr v.items := by
  cases v with
  | arr items => rfl
  | _ => cases h

lemma eq_str_of_isString {v : Json} (h : v.isString = true) : v = .str v.text := by
  cases v with
  | str s => rfl
  | _ => cases h

lemma UniqueKeys.items {v : Json} (h : v.UniqueKeys) : ∀ x ∈ v.items, x.UniqueKeys := by
  cases h with
  | arr h => exact h
  | _ => exact fun x hx => absurd hx List.not_mem_nil

lemma mem_of_get? {v x : Json} {k : String} (h : v.get? k = some x) : (k, x) ∈ v.members := by
  cases v with
  | obj fields =>
    unfold get? at h
    obtain ⟨m, hfind, rfl⟩ := Option.map_eq_some_iff.mp h
    have hk := List.find?_some hfind
    rw [decide_eq_true_eq] at hk
    rw [← hk]
    exact List.mem_of_find?_eq_some hfind
  | _ => cases h

lemma UniqueKeys.field {v : Json} (h : v.UniqueKeys) (k : String) : (v.field k).UniqueKeys := by
  unfold Json.field
  cases hget : v.get? k with
  | none => exact .null
  | some x =>
    have hmem := mem_of_get? hget
    cases h with
    | obj hkeys h => exact h _ hmem
    | _ => cases hmem

/-- In an object without double keys every member is found by its key. -/
lemma UniqueKeys.get?_of_mem {v : Json} (h : v.UniqueKeys) {m : String × Json} (hm : m ∈ v.members) :
    v.get? m.1 = some m.2 := by
  cases h with
  | @obj fields hkeys h =>
    change (fields.find? fun f => f.1 = m.1).map Prod.snd = some m.2
    cases hfind : fields.find? (fun f => f.1 = m.1) with
    | none =>
      have hnone := List.find?_eq_none.mp hfind m hm
      exact absurd (decide_eq_true rfl) hnone
    | some f =>
      have hk := List.find?_some hfind
      rw [decide_eq_true_eq] at hk
      rw [List.inj_on_of_nodup_map hkeys (List.mem_of_find?_eq_some hfind) hm hk, Option.map_some]
  | _ => cases hm

end Json

inductive Shape where
  /-- A finite number, a text, a truth value or null. -/
  | scalar
  | string
  | integer
  | boolean
  | optional (shape : Shape)
  | list (item : Shape)
  | object (fields : List (String × Shape))

/-- The finite scalars. -/
def Json.isScalar : Json → Bool
  | .null | .str _ | .int _ | .bool _ => true
  | .float bits => isFinite bits
  | .arr _ | .obj _ => false

namespace Shape

/-- The value has the shape at every position. -/
inductive Admits : Shape → Json → Prop where
  | scalar {v : Json} (h : v.isScalar = true) : Admits .scalar v
  | string {v : Json} (h : v.isString = true) : Admits .string v
  | integer {v : Json} (h : v.isInt = true) : Admits .integer v
  | boolean {v : Json} (h : v.isBool = true) : Admits .boolean v
  | null {shape : Shape} : Admits (.optional shape) .null
  | some {shape : Shape} {v : Json} (h : Admits shape v) : Admits (.optional shape) v
  | list {item : Shape} {items : List Json} (h : ∀ v ∈ items, Admits item v) :
      Admits (.list item) (.arr items)
  | object {fields : List (String × Shape)} {members : List (String × Json)}
      (shapeOf : String → Shape) (hkeys : ∀ m ∈ members, (m.1, shapeOf m.1) ∈ fields)
      (h : ∀ m ∈ members, Admits (shapeOf m.1) m.2) : Admits (.object fields) (.obj members)

variable {v : Json} {fields : List (String × Shape)} {item : Shape}

lemma admits_list (hlist : v.isList = true) (h : ∀ x ∈ v.items, item.Admits x) :
    (Shape.list item).Admits v := by
  rw [Json.eq_arr_of_isList hlist]
  exact .list h

/-- An object has the shape when its keys are among those of the shape and each value has the shape
of its key. -/
lemma admits_object (hunique : v.UniqueKeys) (hdict : v.isDict = true)
    (hkeys : ∀ m ∈ v.members, m.1 ∈ fields.map Prod.fst)
    (h : ∀ f ∈ fields, (v.get? f.1).isSome → f.2.Admits (v.field f.1)) :
    (Shape.object fields).Admits v := by
  have hshape : ∀ k, ∃ shape, k ∈ fields.map Prod.fst → (k, shape) ∈ fields := by
    intro k
    by_cases hk : k ∈ fields.map Prod.fst
    · obtain ⟨f, hf, rfl⟩ := List.mem_map.mp hk
      exact ⟨f.2, fun _ => hf⟩
    · exact ⟨.scalar, fun hin => absurd hin hk⟩
  choose shapeOf hshapeOf using hshape
  cases v with
  | obj members =>
    refine .object shapeOf (fun m hm => hshapeOf m.1 (hkeys m hm)) fun m hm => ?_
    have hget : (Json.obj members).get? m.1 = some m.2 := hunique.get?_of_mem hm
    have hvalue := h _ (hshapeOf m.1 (hkeys m hm)) (by rw [hget]; rfl)
    rw [Json.field_of_get? hget] at hvalue
    exact hvalue
  | _ => cases hdict

end Shape

end ChatBI.Lib
