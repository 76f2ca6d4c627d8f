import UriTemplate.Proofs.Value.Coercion

/-!
# Values that expand alike

`Value.Alike v w` says that `v` and `w` are the same but for what an expansion does not tell apart:
a number and its text, a list and a tuple, a mapping and the associative array of its entries, and
what has no supported shape and null, at any depth. Values that are alike are coerced to the same
(`Value.coerce_eq_of_alike`).
-/

namespace UriTemplate

namespace Value

/-- `v.Alike w` says that `v` becomes `w` by steps each of which puts, for some value in it, one
that expands in the same way. -/
inductive Alike : Value → Value → Prop where
  | refl (v : Value) : Alike v v
  | symm {v w : Value} : Alike v w → Alike w v
  | trans {u v w : Value} : Alike u v → Alike v w → Alike u w
  | undefined {v : Value} : v.Writable → v.isSupported = false → Alike v .null
  | integer {n : Int} {t : Text} : Decimal.ofInt? n = .ok t → Alike (.int n) (.text t)
  | float (x : Binary64) : Alike (.float x) (.text x.text)
  | tuple (items : List Value) : Alike (.list items) (.tuple items)
  | pairs (entries : List (Value × Value)) : Alike (.mapping entries) (.pairs entries)
  | item {v w : Value} (before after : List Value) :
      Alike v w → Alike (.list (before ++ v :: after)) (.list (before ++ w :: after))
  | key {k l : Value} (v : Value) (before after : List (Value × Value)) :
      Alike k l →
        Alike (.mapping (before ++ (k, v) :: after)) (.mapping (before ++ (l, v) :: after))
  | entry {v w : Value} (k : Value) (before after : List (Value × Value)) :
      Alike v w →
        Alike (.mapping (before ++ (k, v) :: after)) (.mapping (before ++ (k, w) :: after))

variable {k l v w : Value}

/-! ## Items and entries in place of others -/

/-- A list is read by what its items are read as. -/
theorem scalars?_congr (h : v.scalar? = w.scalar?) (before after : List Value) :
    scalars? (before ++ v :: after) = scalars? (before ++ w :: after) := by
  induction before with
  | nil =>
      show scalars? (v :: after) = scalars? (w :: after)
      rw [scalars?, scalars?, h]
  | cons u rest ih => rw [List.cons_append, List.cons_append, scalars?, scalars?, ih]

/-- A mapping is read by what its keys and values are read as. -/
theorem scalar_pairs?_congr (hkey : k.scalar? = l.scalar?) (hvalue : v.scalar? = w.scalar?)
    (before after : List (Value × Value)) :
    scalarPairs? (before ++ (k, v) :: after) = scalarPairs? (before ++ (l, w) :: after) := by
  induction before with
  | nil =>
      show scalarPairs? ((k, v) :: after) = scalarPairs? ((l, w) :: after)
      rw [scalarPairs?, scalarPairs?, hkey, hvalue]
  | cons e rest ih =>
      rw [List.cons_append, List.cons_append, scalarPairs?, scalarPairs?, ih]

/-! ## What values that are alike are coerced to -/

/-- A value that has no supported shape is no scalar, and is coerced to nothing. -/
theorem coerce_of_not_is_supported (hv : v.Writable) (h : v.isSupported = false) :
    v.coerce = .ok none := by
  obtain ⟨w?, hw⟩ := exists_coerce hv
  have hsome := is_some_of_coerce hw
  rw [h, Option.isSome_eq_false_iff, Option.isNone_iff_eq_none] at hsome
  rw [hw, hsome]

/-- What is not supported is no scalar. -/
theorem scalar?_of_not_is_supported (h : v.isSupported = false) : v.scalar? = .ok none := by
  cases v with
  | bool | int | float | text => exact absurd h Bool.noConfusion
  | _ => rfl

/-- Values that are alike are the same as members of a container and on their own. -/
theorem scalar?_and_coerce_eq_of_alike (h : Alike v w) :
    v.scalar? = w.scalar? ∧ v.coerce = w.coerce := by
  induction h with
  | refl => exact ⟨rfl, rfl⟩
  | symm _ ih => exact ⟨ih.1.symm, ih.2.symm⟩
  | trans _ _ ih ih' => exact ⟨ih.1.trans ih'.1, ih.2.trans ih'.2⟩
  | undefined hv h => exact ⟨scalar?_of_not_is_supported h, coerce_of_not_is_supported hv h⟩
  | @integer n t h =>
      have hscalar : (int n).scalar? = .ok (some t) := by rw [scalar?, h, map_ok]
      refine ⟨hscalar, ?_⟩
      show (do return (← (int n).scalar?).map VariableValue.string) = _
      rw [hscalar]
      rfl
  | float | tuple | pairs => exact ⟨rfl, rfl⟩
  | item before after _ ih =>
      refine ⟨rfl, ?_⟩
      rw [coerce, coerce, scalars?_congr ih.1]
  | key v before after _ ih =>
      refine ⟨rfl, ?_⟩
      rw [coerce, coerce, scalar_pairs?_congr ih.1 (Eq.refl v.scalar?)]
  | entry k before after _ ih =>
      refine ⟨rfl, ?_⟩
      rw [coerce, coerce, scalar_pairs?_congr (Eq.refl k.scalar?) ih.1]

/-- Values that are alike are coerced to the same. -/
theorem coerce_eq_of_alike (h : Alike v w) : v.coerce = w.coerce :=
  (scalar?_and_coerce_eq_of_alike h).2

end Value

end UriTemplate
