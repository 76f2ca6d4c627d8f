import UriTemplate.Decimal.FloatText
import UriTemplate.Value.Calendar

/-!
# Values

A `Value` is what a variable may be bound to, and what a bindings document holds: scalars, texts,
bytes, dates, and containers of values. `Value.same` compares values as keys, and `Entries` are
pairs without repeated keys, in the order of their first insertion.
-/

namespace UriTemplate

/-- What a variable may be bound to. Of the containers, `mapping` holds keys once each and
`pairs` may repeat them; `object` is a value of which nothing is known. -/
inductive Value where
  | null
  | bool (b : Bool)
  | int (n : Int)
  | float (x : Binary64)
  | text (t : Text)
  | bytes (bs : List Byte)
  | date (d : Date)
  | dateTime (t : DateTime)
  | list (items : List Value)
  | tuple (items : List Value)
  | set (members : List Value)
  | mapping (entries : List (Value × Value))
  | pairs (entries : List (Value × Value))
  | object

namespace Value

instance : Inhabited Value := ⟨null⟩

/-- `v.shapeName` is the name of the shape of `v`. -/
def shapeName : Value → Text
  | null => "NoneType"
  | bool _ => "bool"
  | int _ => "int"
  | float _ => "float"
  | text _ => "str"
  | bytes _ => "bytes"
  | date _ => "date"
  | dateTime _ => "datetime"
  | list _ => "list"
  | tuple _ => "tuple"
  | set _ => "set"
  | mapping _ => "dict"
  | pairs _ => "AssociativeArray"
  | object => "object"

/-- `v.integer?` is the integer that the scalar `v` equals when it counts: one for true and zero
for false. -/
def integer? : Value → Option Int
  | bool b => some (if b then 1 else 0)
  | int n => some n
  | _ => none

/-- `sameScalar v w` says that the scalars `v` and `w` are the same key. Numbers are compared by
value whatever their type. -/
def sameScalar (v w : Value) : Bool :=
  match v, w with
  | null, null => true
  | text t, text u => t = u
  | bytes t, bytes u => t = u
  | date t, date u => t = u
  | dateTime t, dateTime u => t.same u
  | float x, float y => x.sameNumber y
  | float x, other => other.integer?.any x.isInt
  | other, float y => other.integer?.any y.isInt
  | _, _ =>
      match v.integer?, w.integer? with
      | some a, some b => a = b
      | _, _ => false

mutual

/-- `same v w` says that `v` and `w` are the same key. -/
def same : Value → Value → Bool
  | tuple xs, tuple ys => sameAll xs ys
  | pairs xs, pairs ys => samePairs xs ys
  | v, w => sameScalar v w

/-- `sameAll vs ws` says that two tuples are the same key. -/
def sameAll : List Value → List Value → Bool
  | [], [] => true
  | v :: vs, w :: ws => same v w && sameAll vs ws
  | _, _ => false

/-- `samePairs vs ws` says that two associative arrays are the same key. -/
def samePairs : List (Value × Value) → List (Value × Value) → Bool
  | [], [] => true
  | (k, v) :: vs, (l, w) :: ws => same k l && same v w && samePairs vs ws
  | _, _ => false

end

end Value

/-! ## Entries by key -/

namespace Entries

variable {α β : Type}

/-- `insert same key value entries` sets the value at `key`: at the entry with the same key, which
keeps its place and its key, or at the end. -/
def insert (same : α → α → Bool) (key : α) (value : β) : List (α × β) → List (α × β)
  | [] => [(key, value)]
  | (k, v) :: rest =>
      if same k key then (k, value) :: rest else (k, v) :: insert same key value rest

/-- `ofList same entries` inserts the entries in order, so that the last value of a key is at the
place of its first. -/
def ofList (same : α → α → Bool) (entries : List (α × β)) : List (α × β) :=
  entries.foldl (fun acc (key, value) => insert same key value acc) []

/-- `update same entries more` inserts the entries of `more` into `entries`. -/
def update (same : α → α → Bool) (entries more : List (α × β)) : List (α × β) :=
  more.foldl (fun acc (key, value) => insert same key value acc) entries

end Entries

/-- The variables in force: names and their values, each name once. -/
abbrev Bindings := List (Text × Value)

namespace Bindings

/-- `ofList entries` is the bindings made by the entries in order. -/
def ofList (entries : List (Text × Value)) : Bindings := Entries.ofList (· == ·) entries

/-- `update bindings more` is the bindings in which those of `more` win. -/
def update (bindings more : Bindings) : Bindings := Entries.update (· == ·) bindings more

/-- `get? bindings name` is the value bound to the name. -/
def get? (bindings : Bindings) (name : Text) : Option Value := bindings.lookup name

/-- `bindings.Distinct` says that no name is bound twice. -/
def Distinct (bindings : Bindings) : Prop := (bindings.map Prod.fst).Nodup

instance (bindings : Bindings) : Decidable bindings.Distinct :=
  inferInstanceAs (Decidable (bindings.map Prod.fst).Nodup)

end Bindings

end UriTemplate
