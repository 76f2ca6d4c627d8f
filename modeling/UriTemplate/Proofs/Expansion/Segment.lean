import UriTemplate.Expansion
import UriTemplate.Proofs.Outcome
import UriTemplate.Proofs.Text.Join

/-!
# What each variable adds to an expansion

`VariableSpec.segment` is the fragment of a variable with a separator in front, or nothing. Where
every variable has a value, `fragments_eq` gives the fragments of an expression, and
`flat_map_fragments` says that they are the segments of its variables, one after the other.
-/

namespace UriTemplate

open Text

/-- `s.value bindings` is what the variable of `s` expands as under the bindings, `none` also where
it cannot be written. -/
def VariableSpec.value (s : VariableSpec) (bindings : Bindings) : Option VariableValue :=
  (s.value? bindings).toOption.join

/-- `s.segment op value?` is what the variable of `s` adds to an expansion, with a separator in
front. -/
def VariableSpec.segment (s : VariableSpec) (op : Operator) (value? : Option VariableValue) :
    Text :=
  match value?.bind (s.fragment? op) with
  | some fragment => op.separator ++ fragment
  | none => []

variable {op : Operator}

/-- Where there is a value or none, `VariableSpec.value` says which. -/
theorem VariableSpec.value?_eq_ok_value {s : VariableSpec} {bindings : Bindings}
    (h : ∃ value?, s.value? bindings = .ok value?) :
    s.value? bindings = .ok (s.value bindings) := by
  obtain ⟨value?, hvalue⟩ := h
  simp [value, hvalue, Except.toOption]

/-- Where every variable has a value, the fragments are those of the values, in order. -/
theorem fragments_eq {bindings : Bindings} {specs : List VariableSpec}
    {value : VariableSpec → Option VariableValue}
    (h : ∀ s ∈ specs, s.value? bindings = .ok (value s)) :
    fragments op bindings specs =
      .ok (specs.filterMap fun s => (value s).bind (s.fragment? op)) := by
  induction specs with
  | nil => rfl
  | cons s rest ih =>
      have hs := h s (by simp)
      have hrest := ih fun t ht => h t (by simp [ht])
      rw [fragments, hs, ok_bind, hrest, ok_bind]
      cases hfragment : (value s).bind (s.fragment? op) <;> simp [hfragment]

/-- With a separator in front, the fragments are what the variables add. -/
theorem flat_map_fragments (specs : List VariableSpec)
    (value : VariableSpec → Option VariableValue) :
    (specs.filterMap fun s => (value s).bind (s.fragment? op)).flatMap (op.separator ++ ·) =
      specs.flatMap fun s => s.segment op (value s) := by
  induction specs with
  | nil => rfl
  | cons s rest ih =>
      cases hfragment : (value s).bind (s.fragment? op) <;>
        simp [hfragment, VariableSpec.segment, ih]

/-- Two joins of fragments, either both empty or neither, are equal only if they are so with a
separator in front. -/
theorem Operator.flat_map_of_join {first second : List Text} (hempty : first = [] ↔ second = [])
    (h : op.join first = op.join second) :
    first.flatMap (op.separator ++ ·) = second.flatMap (op.separator ++ ·) := by
  by_cases hne : first = []
  · rw [hne, hempty.1 hne]
  · have hne' := mt hempty.2 hne
    have hjoin : Text.join op.separator first = Text.join op.separator second := by
      simpa [Operator.join, hne, hne'] using h
    rw [← append_join hne, ← append_join hne', hjoin]

end UriTemplate
