import Mathlib.Data.Rat.Defs
import Mathlib.Data.List.Basic

/-!
# Serde.Value

JSON values, and how derived code reads and writes them.

* `Value`: a JSON value, with the members of an object in the order of the text. `Value.reread` is
  the value with its floats as a reader has them.
* `Members.get?`: a field of an object. `required`, `optional` and `defaulted` are the fields of a
  `struct`; `tagged` is the member that names the variant of an internally tagged `enum`, and
  `untagged` the variants of an untagged one, tried in order. Fields that are not asked for are
  passed over, so a flattened field reads the members of its struct.
* Deriving reads forms that it never writes: a struct as an array (`deSeq`), a unit variant as an
  object (`deUnit`), and the number of a variant for its name (`deIdentifier`). The last only where
  the text is held as a value first, as the fields of a tagged or untagged `enum` are.
-/

namespace Serde

inductive Value where
  | null
  | bool (b : Bool)
  | int (n : Int)
  | float (q : ℚ)
  | str (s : String)
  | arr (items : List Value)
  | obj (members : List (String × Value))

abbrev Members : Type := List (String × Value)

/-! ## Floats -/

mutual

/-- The value with other floats. -/
def Value.reread (f : ℚ → ℚ) : Value → Value
  | .null => .null
  | .bool b => .bool b
  | .int n => .int n
  | .float q => .float (f q)
  | .str s => .str s
  | .arr items => .arr (rereadItems f items)
  | .obj members => .obj (rereadMembers f members)
termination_by structural v => v

def rereadItems (f : ℚ → ℚ) : List Value → List Value
  | [] => []
  | v :: vs => v.reread f :: rereadItems f vs
termination_by structural vs => vs

def rereadMembers (f : ℚ → ℚ) : List (String × Value) → List (String × Value)
  | [] => []
  | (k, v) :: rest => (k, v.reread f) :: rereadMembers f rest
termination_by structural ms => ms

end

/-- The names of the members. -/
def Members.keys (ms : Members) : List String := ms.map Prod.fst

/-! ## Nesting -/

mutual

/-- At most `depth` arrays and objects stand inside each other. -/
def Value.within (depth : Nat) : Value → Bool
  | .null => true
  | .bool _ => true
  | .int _ => true
  | .float _ => true
  | .str _ => true
  | .arr items => 0 < depth && withinItems (depth - 1) items
  | .obj members => 0 < depth && withinMembers (depth - 1) members
termination_by structural v => v

def withinItems (depth : Nat) : List Value → Bool
  | [] => true
  | v :: vs => v.within depth && withinItems depth vs
termination_by structural vs => vs

def withinMembers (depth : Nat) : List (String × Value) → Bool
  | [] => true
  | (_, v) :: rest => v.within depth && withinMembers depth rest
termination_by structural ms => ms

end

/-! ## Writing -/

/-- `Option`. -/
def nullable {α : Type} (ser : α → Value) : Option α → Value
  | none => .null
  | some a => ser a

/-- `skip_serializing_if = "Option::is_none"`. -/
def skipNone {α : Type} (key : String) (ser : α → Value) : Option α → Members
  | none => []
  | some a => [(key, ser a)]

/-! ## Reading -/

section Read

variable {α : Type}

def expect (what : String) : Except String α := .error ("invalid type, expected " ++ what)

def deString : Value → Except String String
  | .str s => .ok s
  | _ => expect "a string"

def deBool : Value → Except String Bool
  | .bool b => .ok b
  | _ => expect "a boolean"

/-- An unsigned integer below `bound`. -/
def deNat (bound : Nat) : Value → Except String Nat
  | .int n => if 0 ≤ n ∧ n < bound then .ok n.toNat else .error "invalid value: integer"
  | _ => expect "an integer"

/-- A float; an integer will do. -/
def deFloat : Value → Except String ℚ
  | .float q => .ok q
  | .int n => .ok n
  | _ => expect "a float"

def deItems (de : Value → Except String α) : List Value → Except String (List α)
  | [] => .ok []
  | v :: vs => do
    let a ← de v
    let rest ← deItems de vs
    .ok (a :: rest)

def deVec (de : Value → Except String α) : Value → Except String (List α)
  | .arr items => deItems de items
  | _ => expect "a sequence"

def deOption (de : Value → Except String α) : Value → Except String (Option α)
  | .null => .ok none
  | v => (de v).map some

def unknownVariant (name : String) : Except String α := .error ("unknown variant " ++ name)

/-- The name of a variant, or its number. -/
def deIdentifier (names : List String) : Value → Except String String
  | .str name => .ok name
  | .int (.ofNat n) =>
    match names[n]? with
    | some name => .ok name
    | none => .error "invalid value: integer, expected variant index"
  | _ => expect "variant identifier"

def unitVariant (variants : List (String × α)) (name : String) : Except String α :=
  match variants.lookup name with
  | some a => .ok a
  | none => unknownVariant name

/-- What a unit variant has for its fields. A value that is owned may be an empty object, one that
is only looked at may not. -/
def isUnit (owned : Bool) : Value → Bool
  | .null => true
  | .obj [] => owned
  | _ => false

/-- A variant without fields: its name, or an object with that one member. -/
def deUnit (owned : Bool) (variants : List (String × α)) : Value → Except String α
  | .str name => unitVariant variants name
  | .obj [(name, v)] =>
    if isUnit owned v then unitVariant variants name else expect "unit"
  | _ => expect "string or map"

/-- A field of an object, if it is there. -/
def Members.get? (ms : Members) (key : String) : Except String (Option Value) :=
  match ms.filter fun m => m.1 = key with
  | [] => .ok none
  | [m] => .ok (some m.2)
  | _ => .error ("duplicate field " ++ key)

def required (key : String) (de : Value → Except String α) (ms : Members) : Except String α := do
  match ← ms.get? key with
  | some v => de v
  | none => .error ("missing field " ++ key)

/-- A field of type `Option`, with or without `default`. -/
def optional (key : String) (de : Value → Except String α) (ms : Members) :
    Except String (Option α) := do
  match ← ms.get? key with
  | some v => deOption de v
  | none => .ok none

/-- A field with `default`. -/
def defaulted (key : String) (default : α) (de : Value → Except String α) (ms : Members) :
    Except String α := do
  match ← ms.get? key with
  | some v => de v
  | none => .ok default

/-- The fields of a struct in their order, and those with `default`. -/
structure Shape where
  fields : List String
  defaults : List String

/-- An array has the fields in their order. It may stop where all others have `default`; being an
`Option` is not enough. -/
def deSeq (shape : Shape) (de : Members → Except String α) (items : List Value) :
    Except String α :=
  if items.length ≤ shape.fields.length ∧
      ∀ key ∈ shape.fields.drop items.length, key ∈ shape.defaults then
    de (shape.fields.zip items)
  else .error "invalid length"

def deStruct (shape : Shape) (de : Members → Except String α) : Value → Except String α
  | .obj members => de members
  | .arr items => deSeq shape de items
  | _ => expect "struct"

/-- A struct with a flattened field. -/
def deMap (de : Members → Except String α) : Value → Except String α
  | .obj members => de members
  | _ => expect "a map"

/-- The members that are none of the fields: what a flattened field is read from. -/
def Members.others (ms : Members) (fields : List String) : Members :=
  ms.filter fun m => m.1 ∉ fields

/-- `tag = ".."`: the name of the variant; its fields are among the other members. -/
def tagged (tag : String) (deTag : Value → Except String String)
    (de : String → Members → Except String α) (ms : Members) : Except String α := do
  let name ← required tag deTag ms
  de name (ms.others [tag])

/-- The variants of a tagged `enum` in their order. One with a flattened field has no shape. -/
abbrev Variants : Type := List (String × Option Shape)

def Variants.names (variants : Variants) : List String := variants.map Prod.fst

/-- The same for an object or an array. The tag is the first item of the array, and the rest of it
the variant. -/
def deTagged (tag : String) (variants : Variants) (deTag : Value → Except String String)
    (de : String → Members → Except String α) : Value → Except String α
  | .obj members => tagged tag deTag de members
  | .arr [] => .error ("missing field " ++ tag)
  | .arr (v :: items) => do
    let name ← deTag v
    match variants.lookup name with
    | some (some shape) => deSeq shape (de name) items
    | some none => expect "a map"
    | none => unknownVariant name
  | _ => expect "internally tagged enum"

/-- `untagged`: the first variant that can be read. -/
def untagged (v : Value) : List (Value → Except String α) → Except String α
  | [] => .error "data did not match any variant"
  | de :: des =>
    match de v with
    | .ok a => .ok a
    | .error _ => untagged v des

end Read

/-! ## Reading what was written -/

section Laws

variable {α : Type} {f : ℚ → ℚ}

attribute [simp] Value.reread rereadItems rereadMembers

@[simp] theorem deString_str (s : String) : deString (.str s) = .ok s := rfl

@[simp] theorem deBool_bool (b : Bool) : deBool (.bool b) = .ok b := rfl

@[simp] theorem deFloat_float (q : ℚ) : deFloat (.float q) = .ok q := rfl

@[simp] theorem deOption_null (de : Value → Except String α) : deOption de .null = .ok none := rfl

@[simp] theorem deOption_str (de : Value → Except String α) (s : String) :
    deOption de (.str s) = (de (.str s)).map some := rfl

@[simp] theorem deOption_int (de : Value → Except String α) (n : Int) :
    deOption de (.int n) = (de (.int n)).map some := rfl

@[simp] theorem deOption_float (de : Value → Except String α) (q : ℚ) :
    deOption de (.float q) = (de (.float q)).map some := rfl

@[simp] theorem deOption_arr (de : Value → Except String α) (vs : List Value) :
    deOption de (.arr vs) = (de (.arr vs)).map some := rfl

@[simp] theorem deOption_obj (de : Value → Except String α) (ms : Members) :
    deOption de (.obj ms) = (de (.obj ms)).map some := rfl

@[simp] theorem deIdentifier_str (names : List String) (name : String) :
    deIdentifier names (.str name) = .ok name := rfl

@[simp] theorem deStruct_obj (shape : Shape) (de : Members → Except String α) (ms : Members) :
    deStruct shape de (.obj ms) = de ms := rfl

@[simp] theorem deTagged_obj (tag : String) (variants : Variants)
    (deTag : Value → Except String String) (de : String → Members → Except String α)
    (ms : Members) : deTagged tag variants deTag de (.obj ms) = tagged tag deTag de ms := rfl

@[simp] theorem ok_bind {β : Type} (a : α) (k : α → Except String β) : (.ok a >>= k) = k a := rfl

@[simp] theorem error_bind {β : Type} (e : String) (k : α → Except String β) :
    (.error e >>= k) = .error e := rfl

theorem untagged_ok {v : Value} {a : α} {de : Value → Except String α}
    {des : List (Value → Except String α)} (h : de v = .ok a) : untagged v (de :: des) = .ok a := by
  rw [untagged, h]

theorem untagged_error {v : Value} {e : String} {de : Value → Except String α}
    {des : List (Value → Except String α)} (h : de v = .error e) :
    untagged v (de :: des) = untagged v des := by
  rw [untagged, h]

/-! The names of members. -/

@[simp] theorem keys_nil : Members.keys [] = [] := rfl

@[simp] theorem keys_cons (k : String) (v : Value) (ms : Members) :
    Members.keys ((k, v) :: ms) = k :: ms.keys := rfl

@[simp] theorem keys_append (ms ms' : Members) :
    Members.keys (ms ++ ms') = ms.keys ++ ms'.keys := List.map_append

@[simp] theorem rereadMembers_append (ms ms' : Members) :
    rereadMembers f (ms ++ ms') = rereadMembers f ms ++ rereadMembers f ms' := by
  induction ms with
  | nil => rfl
  | cons m ms ih =>
    obtain ⟨k, v⟩ := m
    rw [List.cons_append, rereadMembers, rereadMembers, ih, List.cons_append]

@[simp] theorem keys_reread (ms : Members) : Members.keys (rereadMembers f ms) = ms.keys := by
  induction ms with
  | nil => rfl
  | cons m ms ih =>
    obtain ⟨k, v⟩ := m
    rw [rereadMembers, keys_cons, ih, keys_cons]

@[simp] theorem mem_keys_skipNone {k key : String} {ser : α → Value} {o : Option α} :
    k ∈ Members.keys (skipNone key ser o) ↔ o.isSome ∧ k = key := by
  cases o <;> simp [skipNone]

/-! A field that is there, and one that is not. -/

section Fields

variable {k key : String} {v : Value} {ms ms' : Members} {de : Value → Except String α}

theorem filter_key_of_notMem (h : key ∉ ms.keys) : ms.filter (fun m => m.1 = key) = [] := by
  rw [List.filter_eq_nil_iff]
  intro m hm heq
  exact h (List.mem_map.2 ⟨m, hm, by simpa using heq⟩)

@[simp] theorem get?_cons_self (h : key ∉ ms.keys) :
    Members.get? ((key, v) :: ms) key = .ok (some v) := by
  rw [Members.get?, List.filter_cons_of_pos (by simp), filter_key_of_notMem h]

@[simp] theorem get?_append (h : key ∉ ms.keys) :
    Members.get? (ms ++ ms') key = Members.get? ms' key := by
  rw [Members.get?, Members.get?, List.filter_append, filter_key_of_notMem h, List.nil_append]

@[simp] theorem get?_cons_ne (h : k ≠ key) : Members.get? ((k, v) :: ms) key = ms.get? key := by
  rw [Members.get?, Members.get?, List.filter_cons_of_neg (by simpa using h)]

@[simp] theorem get?_none (h : key ∉ ms.keys) : ms.get? key = .ok none := by
  rw [Members.get?, filter_key_of_notMem h]

@[simp] theorem required_cons_self (h : key ∉ ms.keys) :
    required key de ((key, v) :: ms) = de v := by
  rw [required, get?_cons_self h]
  rfl

@[simp] theorem required_cons_ne (h : k ≠ key) :
    required key de ((k, v) :: ms) = required key de ms := by
  rw [required, get?_cons_ne h, required]

@[simp] theorem required_append (h : key ∉ ms.keys) :
    required key de (ms ++ ms') = required key de ms' := by
  rw [required, get?_append h, required]

theorem required_none (h : key ∉ ms.keys) :
    required key de ms = .error ("missing field " ++ key) := by
  rw [required, get?_none h]
  rfl

@[simp] theorem optional_cons_self (h : key ∉ ms.keys) :
    Serde.optional key de ((key, v) :: ms) = deOption de v := by
  rw [Serde.optional, get?_cons_self h]
  rfl

@[simp] theorem optional_cons_ne (h : k ≠ key) :
    Serde.optional key de ((k, v) :: ms) = Serde.optional key de ms := by
  rw [Serde.optional, get?_cons_ne h, Serde.optional]

@[simp] theorem optional_append (h : key ∉ ms.keys) :
    Serde.optional key de (ms ++ ms') = Serde.optional key de ms' := by
  rw [Serde.optional, get?_append h, Serde.optional]

@[simp] theorem optional_none (h : key ∉ ms.keys) : Serde.optional key de ms = .ok none := by
  rw [Serde.optional, get?_none h]
  rfl

theorem optional_skipNone {ser : α → Value} {g : α → α}
    (h : ∀ a, deOption de ((ser a).reread f) = .ok (some (g a))) (hkey : key ∉ ms.keys)
    (o : Option α) :
    Serde.optional key de (rereadMembers f (skipNone key ser o) ++ ms) = .ok (o.map g) := by
  cases o with
  | none => exact optional_none hkey
  | some a =>
    rw [skipNone, rereadMembers, rereadMembers, List.singleton_append, optional_cons_self hkey, h]
    rfl

theorem optional_skipNone_self {ser : α → Value}
    (h : ∀ a, deOption de ((ser a).reread f) = .ok (some a)) (hkey : key ∉ ms.keys) (o : Option α) :
    Serde.optional key de (rereadMembers f (skipNone key ser o) ++ ms) = .ok o := by
  have hid : ∀ a, deOption de ((ser a).reread f) = .ok (some (id a)) := h
  rw [optional_skipNone hid hkey, Option.map_id, id]

theorem optional_skipNone_last {ser : α → Value}
    (h : ∀ a, deOption de ((ser a).reread f) = .ok (some a)) (o : Option α) :
    Serde.optional key de (rereadMembers f (skipNone key ser o)) = .ok o := by
  rw [← List.append_nil (rereadMembers f (skipNone key ser o))]
  exact optional_skipNone_self h (by simp) o

@[simp] theorem defaulted_cons_self {default : α} (h : key ∉ ms.keys) :
    defaulted key default de ((key, v) :: ms) = de v := by
  rw [defaulted, get?_cons_self h]
  rfl

/-! The members that are left. -/

theorem others_cons_of_mem {fields : List String} (h : k ∈ fields) :
    Members.others ((k, v) :: ms) fields = ms.others fields := by
  rw [Members.others, List.filter_cons_of_neg (by simpa using h), Members.others]

theorem others_append (fields : List String) :
    Members.others (ms ++ ms') fields = ms.others fields ++ ms'.others fields :=
  List.filter_append ms ms'

theorem others_eq_self {fields : List String} (h : ∀ k ∈ fields, k ∉ ms.keys) :
    ms.others fields = ms := by
  rw [Members.others, List.filter_eq_self]
  intro m hm
  rw [decide_eq_true_iff]
  intro hk
  exact h m.1 hk (List.mem_map_of_mem hm)

theorem others_eq_nil {fields : List String} (h : ∀ k ∈ ms.keys, k ∈ fields) :
    ms.others fields = [] := by
  rw [Members.others, List.filter_eq_nil_iff]
  intro m hm hk
  exact of_decide_eq_true hk (h m.1 (List.mem_map_of_mem hm))

@[simp] theorem tagged_cons {tag name : String} {deTag : Value → Except String String}
    {de : String → Members → Except String α} (h : tag ∉ ms.keys)
    (htag : deTag (.str name) = .ok name) :
    tagged tag deTag de ((tag, .str name) :: ms) = de name ms := by
  have hrest : ∀ k ∈ [tag], k ∉ ms.keys := by
    intro k hk
    rwa [List.mem_singleton.1 hk]
  rw [tagged, required_cons_self h, htag, ok_bind,
    others_cons_of_mem (List.mem_singleton_self tag), others_eq_self hrest]

theorem tagged_none {tag : String} {deTag : Value → Except String String}
    {de : String → Members → Except String α} (h : tag ∉ ms.keys) :
    tagged tag deTag de ms = .error ("missing field " ++ tag) := by
  rw [tagged, required_none h]
  rfl

end Fields

theorem deNat_int {n bound : Nat} (h : n < bound) : deNat bound (.int n) = .ok n := by
  rw [deNat, if_pos ⟨Int.natCast_nonneg n, by exact_mod_cast h⟩, Int.toNat_natCast]

theorem deOption_ok {de : Value → Except String α} {v : Value} {a : α} (h : de v = .ok a)
    (hnull : v ≠ .null) : deOption de v = .ok (some a) := by
  have hde : deOption de v = (de v).map some := by
    cases v with
    | null => exact absurd rfl hnull
    | _ => rfl
  rw [hde, h]
  rfl

theorem deOption_nullable {ser : α → Value} {de : Value → Except String α} {g : α → α}
    (h : ∀ a, de ((ser a).reread f) = .ok (g a)) (hnull : ∀ a, (ser a).reread f ≠ .null)
    (o : Option α) : deOption de ((nullable ser o).reread f) = .ok (o.map g) := by
  cases o with
  | none => rfl
  | some a => exact deOption_ok (h a) (hnull a)

theorem deItems_map {ser : α → Value} {de : Value → Except String α} {g : α → α}
    (h : ∀ a, de ((ser a).reread f) = .ok (g a)) (l : List α) :
    deItems de (rereadItems f (l.map ser)) = .ok (l.map g) := by
  induction l with
  | nil => rfl
  | cons a l ih =>
    rw [List.map_cons, rereadItems, deItems, h, ih]
    rfl

/-! How deep a value is. -/

attribute [simp] Value.within withinItems withinMembers

theorem within_nullable {ser : α → Value} {depth : Nat} (h : ∀ a, (ser a).within depth)
    (o : Option α) : (nullable ser o).within depth := by
  cases o with
  | none => rfl
  | some a => exact h a

@[simp] theorem withinMembers_append (depth : Nat) (ms ms' : Members) :
    withinMembers depth (ms ++ ms') = (withinMembers depth ms && withinMembers depth ms') := by
  induction ms with
  | nil => rfl
  | cons m ms ih =>
    obtain ⟨k, v⟩ := m
    rw [List.cons_append, withinMembers, withinMembers, ih, Bool.and_assoc]

theorem withinMembers_skipNone {ser : α → Value} {depth : Nat} (h : ∀ a, (ser a).within depth)
    (key : String) (o : Option α) : withinMembers depth (skipNone key ser o) := by
  cases o with
  | none => rfl
  | some a => simpa [skipNone] using h a

theorem withinItems_map {ser : α → Value} {depth : Nat} (h : ∀ a, (ser a).within depth)
    (l : List α) : withinItems depth (l.map ser) := by
  induction l with
  | nil => rfl
  | cons a l ih => simp [h a, ih]

end Laws

/-! ## Text -/

/-- A printer and a parser of JSON. The floats are read back as `reread` has them: a parser may take
the nearest number it finds fast. It stops at a depth of 128. -/
structure Text where
  print : Value → String
  parse : String → Except String Value
  reread : ℚ → ℚ
  parse_print : ∀ v, v.within 127 → parse (print v) = .ok (v.reread reread)

end Serde
