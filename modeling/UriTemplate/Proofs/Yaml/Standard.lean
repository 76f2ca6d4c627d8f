import UriTemplate.Proofs.Yaml.Acyclic
import UriTemplate.Proofs.Yaml.Flatten
import UriTemplate.Proofs.Yaml.Numbering
import UriTemplate.Yaml.Standard

/-!
# The laws of the standard library of documents

`Library.standard` does what the laws of a library say: each law is an instance of what is known of
its parts.
-/

namespace UriTemplate.Yaml

/-! ## Scalars -/

namespace Scalar

variable {t : Text} {v : Value}

/-- A truth value is a scalar. -/
theorem is_scalar_of_bool (h : bool t = .ok v) : v.IsScalar := by
  simp only [bool] at h
  split at h
  · cases h
    trivial
  · split at h
    · cases h
      trivial
    · exact absurd h (by simp)

/-- An integer is a scalar. -/
theorem is_scalar_of_int (h : int t = .ok v) : v.IsScalar := by
  obtain ⟨_, _, h⟩ := bind_eq_ok_iff.1 h
  obtain ⟨_, _, h⟩ := bind_eq_ok_iff.1 h
  cases h
  trivial

/-- A floating-point number is a scalar. -/
theorem is_scalar_of_float (h : float t = .ok v) : v.IsScalar := by
  obtain ⟨_, _, h⟩ := bind_eq_ok_iff.1 h
  simp only at h
  split at h
  · cases h
    trivial
  · split at h
    · cases h
      trivial
    · split at h
      · obtain ⟨_, _, h⟩ := bind_eq_ok_iff.1 h
        obtain ⟨_, _, h⟩ := bind_eq_ok_iff.1 h
        cases h
        trivial
      · obtain ⟨_, _, h⟩ := bind_eq_ok_iff.1 h
        cases h
        trivial

/-- A day or a time is a scalar. -/
theorem is_scalar_of_timestamp (h : timestamp t = .ok v) : v.IsScalar := by
  simp only [timestamp] at h
  split at h
  · exact absurd h (by simp)
  · obtain ⟨_, _, h⟩ := bind_eq_ok_iff.1 h
    cases h
    trivial
  · obtain ⟨_, _, h⟩ := bind_eq_ok_iff.1 h
    cases h
    trivial

/-- A byte string is a scalar. -/
theorem is_scalar_of_binary? (h : binary? t = some v) : v.IsScalar := by
  unfold binary? at h
  split at h
  · obtain ⟨_, _, rfl⟩ := Option.map_eq_some_iff.1 h
    trivial
  · exact absurd h (by simp)

end Scalar

namespace Standard

variable {d : Document} {n : Nat} {tag : Tag} {text : Text} {v : Value}

/-- The content of a scalar makes a scalar. -/
theorem is_scalar_of_value_of (h : valueOf tag text = .ok v) : v.IsScalar := by
  cases tag with
  | null | str =>
      cases h
      trivial
  | bool => exact Scalar.is_scalar_of_bool (map_error_eq_ok_iff.1 h)
  | int => exact Scalar.is_scalar_of_int (map_error_eq_ok_iff.1 h)
  | float => exact Scalar.is_scalar_of_float (map_error_eq_ok_iff.1 h)
  | timestamp => exact Scalar.is_scalar_of_timestamp (map_error_eq_ok_iff.1 h)
  | binary =>
      simp only [valueOf] at h
      split at h
      · next hsome =>
          cases h
          exact Scalar.is_scalar_of_binary? hsome
      · exact absurd h (by simp)
  | seq | omap | pairs | set | map | merge | value | other => exact absurd h (by simp [valueOf])

/-- A node that has a value as a scalar has what its tag makes of some text. -/
theorem exists_value_of (h : scalar d n = .ok v) : ∃ text,
    content d.graph (d.size + 1) n = .ok text ∧ valueOf (d.graph n).tag text = .ok v := by
  obtain ⟨text, htext, h⟩ := bind_eq_ok_iff.1 h
  refine ⟨text, htext, ?_⟩
  split at h
  · exact absurd h (by simp [throw, throwThe, MonadExceptOf.throw])
  · exact h

/-- The value of a scalar node is what its tag makes of its content. -/
theorem scalar_eq (h : d.graph n = .scalar tag text) : scalar d n = valueOf tag text := by
  simp [scalar, content, h, Cell.tag]

/-- A sequence has no value as a scalar. -/
theorem scalar_ne_ok {items : List Nat} (h : d.graph n = .sequence tag items) :
    scalar d n ≠ .ok v := by
  simp [scalar, content, h]

/-- What has the tag of a special key has no value. -/
theorem scalar_ne_ok_of_special (h : (d.graph n).tag = .merge ∨ (d.graph n).tag = .value) :
    scalar d n ≠ .ok v := by
  intro hv
  obtain ⟨text, -, hvalue⟩ := exists_value_of hv
  rcases h with h | h <;> exact absurd hvalue (by simp [h, valueOf])

end Standard

/-- A text composes the document of the tree that its tokens make up. -/
theorem Standard.compose_of_node {text : Text} {n : Node}
    (hallowed : text.all CodePoint.isAllowed = true)
    (h : Node.ofTokens? (TokenStream.ofText text) = .ok (some n)) :
    Library.standard.compose text = .ok (some (Document.ofNode n)) := by
  show (Standard.compose text).mapError _ = _
  rw [compose, if_pos hallowed, h]
  rfl

/-! ## Laws -/

namespace Library

/-- The standard library loads step by step. -/
theorem standard_loads_in_steps : standard.LoadsInSteps := ⟨fun _ _ => rfl⟩

/-- The standard library makes scalars of scalars. -/
theorem standard_makes_scalars : standard.MakesScalars where
  scalar _ _ _ h := by
    obtain ⟨_, _, hvalue⟩ := Standard.exists_value_of (map_error_eq_ok_iff.1 h)
    exact Standard.is_scalar_of_value_of hvalue
  arrange _ _ h := h

/-- The standard library numbers nodes. -/
theorem standard_numbers_nodes : standard.NumbersNodes where
  numbered text d h := by
    have hcompose : Standard.compose text = .ok (some d) := map_error_eq_ok_iff.1 h
    unfold Standard.compose at hcompose
    split at hcompose
    · obtain ⟨n?, _, h⟩ := bind_eq_ok_iff.1 hcompose
      obtain ⟨n, rfl, rfl⟩ := Option.map_eq_some_iff.1 (Except.ok.inj h)
      exact Document.numbered_of_node n
    · exact absurd hcompose (by simp [throw, throwThe, MonadExceptOf.throw])

/-- The standard library reads scalars by their tags and contents. -/
theorem standard_reads_scalars : standard.ReadsScalars
    (fun tag text => (Standard.valueOf tag text).toOption)
    (fun tag text => tag = .float &&
      (Decimal.signed (Scalar.dropUnderscores text).lower).2 = Text.ofString ".nan") where
  scalar d n tag content h := by
    show ((Standard.scalar d n).mapError Error.failure).toOption = _
    rw [Standard.scalar_eq h]
    cases Standard.valueOf tag content <;> rfl
  sharesNan d n tag content h := by
    show Standard.sharesNan d n = _
    cases tag <;> simp [Standard.sharesNan, Standard.content, h, Cell.tag]
  sequence d n tag items v h hv := Standard.scalar_ne_ok h (map_error_eq_ok_iff.1 hv)
  special d n v h hv := Standard.scalar_ne_ok_of_special h (map_error_eq_ok_iff.1 hv)

/-- The standard library keeps the order of entries that merge keys bring in. -/
theorem standard_flattens_in_order : standard.FlattensInOrder where
  resolves _ _ _ h :=
    let ⟨hresolves, hnone, _⟩ := Graph.resolves_flatten _ _ _ _ (map_error_eq_ok_iff.1 h)
    ⟨hresolves, hnone⟩

/-- The standard library resolves merge keys by merging. -/
theorem standard_flattens_by_merging : standard.FlattensByMerging where
  sound _ _ _ _ _ _ _ hacyclic hlater hrewritten hcell hflatten :=
    Graph.flatten_sound hacyclic hlater hrewritten hcell (map_error_eq_ok_iff.1 hflatten)
  complete _ _ _ _ hnumbered hacyclic hlater hn hrewritten hmerged :=
    let ⟨h, hflatten⟩ := Document.exists_flatten hnumbered hacyclic hlater hn hrewritten hmerged
    ⟨h, map_error_eq_ok_iff.2 hflatten⟩

end Library

end UriTemplate.Yaml
