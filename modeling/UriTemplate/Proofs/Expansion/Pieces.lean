import UriTemplate.Proofs.Expansion.Sequence

/-!
# Expansions as one sequence of pieces

An expansion joins fragments some of which are joins themselves. `VariableSpec.pieces` is what a
value adds to an expansion when nothing is joined yet, and `Expression.expand_pieces` says that an
expansion is one join of all the pieces. So an exploded list expands as its items would one by one.
With a separator in front of each, pieces are what the references add one after the other, so that
an expression may be divided between any two of them (`Expression.expand_divided`).
-/

namespace UriTemplate

open Text

/-- `s.pieces op value?` is the pieces that the variable of `s` adds to an expansion: one for a
string or for a whole container, and one for each member of an exploded container. -/
def VariableSpec.pieces (s : VariableSpec) (op : Operator) (value? : Option VariableValue) :
    List Text :=
  let encode := Percent.encode op.keepsReserved
  match value? with
  | none | some (.list []) | some (.pairs []) => []
  | some (.string t) =>
      match s.length? with
      | some length => [op.formatVariable s.name (firstPart length (encode t))]
      | none => [op.formatVariable s.name (encode t)]
  | some (.list items) =>
      if s.explodes then items.map fun t => op.formatVariable s.name (encode t)
      else [op.formatVariable s.name (join [','] (items.map encode))]
  | some (.pairs entries) =>
      if s.explodes then entries.map fun (k, v) => encode k ++ Text.ofString "=" ++ encode v
      else
        [op.formatVariable s.name
          (join [','] (entries.flatMap fun (k, v) => [encode k, encode v]))]

variable {op : Operator} {s : VariableSpec} {bindings : Bindings}

/-! ## The pieces of one variable -/

/-- A fragment is the join of the pieces of its variable, if there are any. -/
theorem VariableSpec.fragment?_eq_pieces (v : VariableValue) :
    s.fragment? op v =
      if s.pieces op (some v) = [] then none
      else some (join op.separator (s.pieces op (some v))) := by
  cases v with
  | string t =>
      unfold fragment? stringFragment pieces
      cases s.length? <;> rfl
  | list items =>
      cases items with
      | nil => rfl
      | cons t rest =>
          by_cases hexplodes : s.explodes = true <;>
            simp [fragment?, listFragment?, pieces, hexplodes, join, Function.comp_def]
  | pairs entries =>
      cases entries with
      | nil => rfl
      | cons entry rest =>
          have hflat := Text.join_pairs [CodePoint.ofChar ',']
            (fun e : Text × Text => Percent.encode op.keepsReserved e.1)
            (fun e : Text × Text => Percent.encode op.keepsReserved e.2) (entry :: rest)
          by_cases hexplodes : s.explodes = true
          · simp [fragment?, pairsFragment?, pieces, hexplodes, Operator.formatPair]
          · simp only [fragment?, pairsFragment?, pieces, hexplodes, ← hflat]
            rfl

/-- With a separator in front of each, the pieces of a variable are its fragment. -/
theorem VariableSpec.flat_map_pieces (value? : Option VariableValue) :
    (s.pieces op value?).flatMap (op.separator ++ ·) =
      (value?.bind (s.fragment? op)).toList.flatMap (op.separator ++ ·) := by
  cases value? with
  | none => rfl
  | some v =>
      rw [Option.bind_some, fragment?_eq_pieces]
      by_cases hnil : s.pieces op (some v) = []
      · rw [if_pos hnil, hnil]
        rfl
      · rw [if_neg hnil, ← append_join hnil]
        simp

/-- A variable has no pieces exactly if it has no fragment. -/
theorem VariableSpec.pieces_eq_nil_iff (value? : Option VariableValue) :
    s.pieces op value? = [] ↔ (value?.bind (s.fragment? op)).toList = [] := by
  cases value? with
  | none => exact iff_of_true rfl rfl
  | some v =>
      rw [Option.bind_some, fragment?_eq_pieces]
      by_cases hnil : s.pieces op (some v) = [] <;> simp [hnil]

/-- A list expands with its members on their own as the members would, each of them as a string. -/
theorem VariableSpec.pieces_exploded {u : VariableSpec} (hexplodes : s.explodes = true)
    (hname : u.name = s.name) (hlength : u.length? = none) (items : List Text) :
    s.pieces op (some (.list items)) =
      items.filterMap fun item => u.fragment? op (.string item) := by
  cases items with
  | nil => rfl
  | cons item rest =>
      simp [pieces, hexplodes, fragment?, stringFragment, hname, hlength]

/-! ## The pieces of an expression -/

/-- Where as much stands with a separator in front of every part, the expansions are the same. -/
theorem Operator.join_congr {ts us : List Text} (hempty : ts = [] ↔ us = [])
    (h : ts.flatMap (op.separator ++ ·) = us.flatMap (op.separator ++ ·)) :
    op.join ts = op.join us := by
  unfold join
  by_cases hne : ts = []
  · rw [hne, hempty.1 hne]
  · have hne' : us ≠ [] := fun hnil => hne (hempty.2 hnil)
    rw [← append_join hne, ← append_join hne', List.append_right_inj] at h
    simp [hne, hne', h]

/-- In an expansion the pieces of a variable may stand for its fragment. -/
theorem Operator.join_pieces (front back : List Text) (value? : Option VariableValue) :
    op.join (front ++ (value?.bind (s.fragment? op)).toList ++ back) =
      op.join (front ++ s.pieces op value? ++ back) := by
  refine join_congr ?_ ?_
  · simp only [List.append_eq_nil_iff, s.pieces_eq_nil_iff]
  · simp only [List.flatMap_append, s.flat_map_pieces]

/-- In an expansion the pieces of all variables may stand for their fragments. -/
theorem Operator.join_fragments (value : VariableSpec → Option VariableValue) (front : List Text)
    (specs : List VariableSpec) :
    op.join (front ++ specs.filterMap fun s => (value s).bind (s.fragment? op)) =
      op.join (front ++ specs.flatMap fun s => s.pieces op (value s)) := by
  induction specs generalizing front with
  | nil => rfl
  | cons s rest ih =>
      have hfragments : (s :: rest).filterMap (fun s => (value s).bind (s.fragment? op)) =
          ((value s).bind (s.fragment? op)).toList ++
            rest.filterMap fun s => (value s).bind (s.fragment? op) := by
        cases h : (value s).bind (s.fragment? op) <;> simp [h]
      rw [hfragments, List.flatMap_cons, ← List.append_assoc, join_pieces, ih, List.append_assoc]

/-- The fragments of an expression with a reference in front. -/
theorem fragments_cons (rest : List VariableSpec) :
    fragments op bindings (s :: rest) = (do
      let value? ← s.value? bindings
      let following ← fragments op bindings rest
      pure ((value?.bind (s.fragment? op)).toList ++ following)) := by
  rw [fragments]
  cases s.value? bindings with
  | error e => rfl
  | ok value? =>
      cases fragments op bindings rest with
      | error e => rfl
      | ok following =>
          simp only [ok_bind]
          cases value?.bind (s.fragment? op) <;> rfl

/-- The fragments of variables one after the other. -/
theorem fragments_append (first second : List VariableSpec) :
    fragments op bindings (first ++ second) = (do
      let ts ← fragments op bindings first
      let us ← fragments op bindings second
      pure (ts ++ us)) := by
  induction first with
  | nil => exact (bind_pure _).symm
  | cons s rest ih =>
      simp only [List.cons_append, fragments_cons, ih, bind_assoc, pure_bind, List.append_assoc]

namespace Expression

/-- `e.pieces bindings` is the pieces that the variables of `e` add to its expansion, in order. -/
def pieces (e : Expression) (bindings : Bindings) : List Text :=
  e.specs.flatMap fun s => s.pieces e.operator (s.value bindings)

/-- An expression expands where each of its references has a value: to nothing if its variables add
no pieces, and otherwise to what the operator starts with and all the pieces, joined by its
separator. Where the variable of a reference that explodes is a list, its items may be listed
instead, each of them as the fragment of a variable of the same name that is this string. -/
theorem expand_pieces (e : Expression) (bindings : Bindings) :
    (∀ t, e.expand bindings = .ok t ↔
      (∀ s ∈ e.specs, ∃ value?, s.value? bindings = .ok value?) ∧
        t = if e.pieces bindings = [] then []
          else e.operator.lead ++ join e.operator.separator (e.pieces bindings)) ∧
      ∀ before s after items, e.specs = before ++ s :: after → s.explodes = true →
        s.value? bindings = .ok (some (.list items)) →
        ∀ u : VariableSpec, u.name = s.name → u.length? = none →
          e.expand bindings = (do
            let front ← fragments e.operator bindings before
            let back ← fragments e.operator bindings after
            pure (e.operator.join (front ++
              (items.filterMap fun item => u.fragment? e.operator (.string item)) ++ back))) := by
  constructor
  · intro t
    have hpieces : (e.operator.join (e.specs.filterMap fun s =>
        (s.value bindings).bind (s.fragment? e.operator))) = e.operator.join (e.pieces bindings) :=
      e.operator.join_fragments (·.value bindings) [] e.specs
    rw [expand_eq_ok_iff, hpieces, Operator.join, eq_comm (b := t)]
    simp only [List.isEmpty_iff]
  · intro before s after items hspecs hexplodes hlist u hname hlength
    -- The fragments are those before the list, that of the list, and those after it.
    rw [expand, hspecs, fragments_append, fragments_cons, hlist]
    simp only [ok_bind, bind_assoc, pure_bind, ← List.append_assoc, Operator.join_pieces,
      VariableSpec.pieces_exploded hexplodes hname hlength]

/-- A list with an empty item is listed in a query before a string that is cut inside an escape and
an associative array without entries. -/
theorem expand_pieces_empty_item :
    expand ⟨.query, [⟨"x", some .explode⟩, ⟨"y", some (.first 2)⟩, ⟨"z", none⟩]⟩
        [("x", .list [.text "a b", .text ""]), ("y", .text "é"), ("z", .mapping [])] =
          .ok "?x=a%20b&x=&y=%C" ∧
      Text.ofString "?x=a%20b&x=&y=%C" =
        Operator.lead .query ++ join (Operator.separator .query)
          (pieces ⟨.query, [⟨"x", some .explode⟩, ⟨"y", some (.first 2)⟩, ⟨"z", none⟩]⟩
            [("x", .list [.text "a b", .text ""]), ("y", .text "é"), ("z", .mapping [])]) ∧
      expand ⟨.query, [⟨"x", some .explode⟩, ⟨"y", some (.first 2)⟩, ⟨"z", none⟩]⟩
          [("x", .list [.text "a b", .text ""]), ("y", .text "é"), ("z", .mapping [])] =
        .ok (Operator.join .query
          (([Text.ofString "a b", []].filterMap fun item =>
            VariableSpec.fragment? ⟨"x", none⟩ .query (.string item)) ++
              [Text.ofString "y=%C"])) := by
  obtain ⟨hjoin, hlisted⟩ :=
    expand_pieces ⟨.query, [⟨"x", some .explode⟩, ⟨"y", some (.first 2)⟩, ⟨"z", none⟩]⟩
      [("x", .list [.text "a b", .text ""]), ("y", .text "é"), ("z", .mapping [])]
  have hexpand : expand ⟨.query, [⟨"x", some .explode⟩, ⟨"y", some (.first 2)⟩, ⟨"z", none⟩]⟩
      [("x", .list [.text "a b", .text ""]), ("y", .text "é"), ("z", .mapping [])] =
        .ok "?x=a%20b&x=&y=%C" := by
    decide +kernel
  refine ⟨hexpand, ((hjoin _).1 hexpand).2, ?_⟩
  exact hlisted [] ⟨"x", some .explode⟩ _ [Text.ofString "a b", []] rfl rfl rfl ⟨"x", none⟩ rfl rfl

end Expression

/-! ## Divided expressions -/

/-- An operator that starts with its separator writes the separator in front of each fragment. -/
theorem Operator.join_of_lead_eq (h : op.lead = op.separator) (ts : List Text) :
    op.join ts = ts.flatMap (op.separator ++ ·) := by
  unfold join
  split
  · next hempty =>
      rw [List.isEmpty_iff.1 hempty]
      rfl
  · next hne => rw [h, append_join (by simpa using hne)]

/-- What follows in a query is written as in one that is continued. -/
theorem Operator.join_query_append (ts us : List Text) :
    query.join (ts ++ us) =
      if query.join ts = [] then query.join us else query.join ts ++ queryContinuation.join us := by
  by_cases hnil : ts = []
  · rw [hnil]
    rfl
  · have hjoin : query.join ts = query.lead ++ Text.join query.separator ts := by
      simp [join, hnil]
    have hne : query.join ts ≠ [] := by
      rw [hjoin]
      exact List.cons_ne_nil _ _
    have hcontinued : queryContinuation.join us = us.flatMap (query.separator ++ ·) :=
      join_of_lead_eq rfl us
    rw [if_neg hne, hjoin, hcontinued, join, if_neg (by simp [hnil]), Text.join_append hnil,
      List.append_assoc]

/-- In a query and in one that is continued the variables have the same fragments. -/
theorem fragments_query_continuation (bindings : Bindings) (specs : List VariableSpec) :
    fragments .queryContinuation bindings specs = fragments .query bindings specs := by
  have hfragment (s : VariableSpec) : s.fragment? .queryContinuation = s.fragment? .query := by
    funext v
    cases v <;> rfl
  induction specs with
  | nil => rfl
  | cons s rest ih => rw [fragments_cons, fragments_cons, ih, hfragment]

namespace Expression

/-- An expression may be divided between any two of its references. Under an operator that starts
with its separator, both parts keep the operator. What follows in a query continues it, unless
nothing has been written before. -/
theorem expand_divided (first second : List VariableSpec) (bindings : Bindings) :
    (∀ op ∈ [Operator.label, .path, .pathStyle, .queryContinuation],
      expand ⟨op, first ++ second⟩ bindings = (do
        let t ← expand ⟨op, first⟩ bindings
        let u ← expand ⟨op, second⟩ bindings
        pure (t ++ u))) ∧
      expand ⟨.query, first ++ second⟩ bindings = (do
        let t ← expand ⟨.query, first⟩ bindings
        if t = [] then expand ⟨.query, second⟩ bindings
        else
          let u ← expand ⟨.queryContinuation, second⟩ bindings
          pure (t ++ u)) := by
  constructor
  · intro op hop
    have hlead : op.lead = op.separator := by
      simp only [List.mem_cons, List.not_mem_nil, or_false] at hop
      rcases hop with rfl | rfl | rfl | rfl <;> rfl
    simp only [expand, fragments_append, bind_assoc, pure_bind, Operator.join_of_lead_eq hlead,
      List.flatMap_append]
  · unfold expand
    simp only [fragments_append, fragments_query_continuation, bind_assoc, pure_bind,
      Operator.join_query_append]
    cases fragments .query bindings first with
    | error e => rfl
    | ok ts =>
        by_cases hnil : Operator.join .query ts = []
        · simp only [ok_bind, if_pos hnil]
        · simp only [ok_bind, if_neg hnil]

/-- A path is divided after an empty string, and a query after a list without items, which leaves
the sign of the query to the second part. -/
theorem expand_divided_empty_list :
    Operator.pathStyle ∈ [Operator.label, .path, .pathStyle, .queryContinuation] ∧
      expand ⟨.pathStyle, [⟨"x", none⟩]⟩ [("x", .text ""), ("y", .text "1")] = .ok ";x" ∧
      expand ⟨.pathStyle, [⟨"x", none⟩, ⟨"y", none⟩]⟩ [("x", .text ""), ("y", .text "1")] =
        .ok ";x;y=1" ∧
      expand ⟨.query, [⟨"x", some .explode⟩, ⟨"y", none⟩]⟩ [("x", .list []), ("y", .text "1")] =
        .ok "?y=1" := by
  obtain ⟨hdivided, _⟩ :=
    expand_divided [⟨"x", none⟩] [⟨"y", none⟩] [("x", .text ""), ("y", .text "1")]
  obtain ⟨_, hquery⟩ :=
    expand_divided [⟨"x", some .explode⟩] [⟨"y", none⟩] [("x", .list []), ("y", .text "1")]
  exact ⟨by decide, by rfl, hdivided .pathStyle (by decide), hquery⟩

end Expression

end UriTemplate
