import UriTemplate.Value.Display

/-!
# Associative arrays

`AssociativeArray.ofValue` builds the pairs of an associative array from a value: the entries of a
mapping, or the members of any other container, each of which must be a list or tuple of two. Pairs
are kept in order, repeated keys included. An `AssociativeArray.Error` names the first member that
is no pair, or the shape of a value that has no members.
-/

namespace UriTemplate.AssociativeArray

/-- Why a value gives no associative array. -/
inductive Error where
  | notPair (member : Text)
  | notIterable (shape : Text)
  | notMapping (shape : Text)
  | digitLimit (cause : Decimal.LimitError)
deriving DecidableEq

/-- `e.message` is the wording of the error `e`. -/
def Error.message : Error → Text
  | notPair member =>
      "AssociativeArray entries must be (key, value) pairs, got " ++ member
  | notIterable shape => "'" ++ shape ++ "' object is not iterable"
  | notMapping shape => "'" ++ shape ++ "' object has no attribute 'items'"
  | digitLimit cause => cause.message

/-- `members? v` is the members of the container `v` in order. A text has its code points as
members, and bytes have their numbers. -/
def members? : Value → Option (List Value)
  | .list items | .tuple items | .set items => some items
  | .mapping entries | .pairs entries => some (entries.map fun (k, v) => .tuple [k, v])
  | .text t => some (t.map fun c => .text [c])
  | .bytes bs => some (bs.map fun b => .int b.val)
  | _ => none

/-- `pair v` is the key and the value of the member `v`. -/
def pair (v : Value) : Except Error (Value × Value) :=
  match v with
  | .list [key, value] | .tuple [key, value] => .ok (key, value)
  | other =>
      match other.display with
      | .ok shown => .error (.notPair shown)
      | .error e => .error (.digitLimit e)

/-- `ofValue v` is the pairs that the members of `v` give. -/
def ofValue (v : Value) : Except Error (List (Value × Value)) :=
  match members? v with
  | some members => members.mapM pair
  | none => .error (.notIterable v.shapeName)

/-- `ofMapping v` is the pairs of the mapping `v`. -/
def ofMapping (v : Value) : Except Error (List (Value × Value)) :=
  match v with
  | .mapping entries => .ok entries
  | other => .error (.notMapping other.shapeName)

end UriTemplate.AssociativeArray
