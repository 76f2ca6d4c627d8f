import UriTemplate.Component.Expression
import UriTemplate.Proofs.Component.Reference
import UriTemplate.Proofs.Component.Scan
import UriTemplate.Proofs.Text.Join

/-!
# Reading the inside of an expression

The entries of an expression are read one by one (`parse_variables_eq_ok_iff`). The expressions that
are read are the well-formed ones: each has references, all of them well formed, and it is read
back from its own content (`Expression.WellFormed.parse_content`), which holds no brace.
-/

namespace UriTemplate

open Text

variable {limits : Limits} {c : CodePoint} {op : Operator} {content list rest : Text}
  {specs : List VariableSpec} {e : Expression}

/-- `e.WellFormed limits` says that the expression `e` may stand in a template: it has references,
and they are well formed. -/
structure Expression.WellFormed (limits : Limits) (e : Expression) : Prop where
  ne_nil : e.specs ≠ []
  specs : ∀ s ∈ e.specs, s.WellFormed limits

/-! ## The operator -/

/-- Every operator but the simple one has a symbol of one code point. -/
theorem Operator.exists_symbol (h : op ≠ .simple) :
    ∃ c, op.symbol = [c] ∧ c ≠ CodePoint.ofChar '@' ∧
      (Name.Allows c → c = CodePoint.ofChar '.') := by
  cases op with
  | simple => exact absurd rfl h
  | _ => exact ⟨_, rfl, by decide, by decide⟩

/-- An operator is read exactly from its symbol. -/
theorem Operator.of_symbol?_eq_some_iff : ofSymbol? c = some op ↔ op.symbol = [c] := by
  constructor
  · intro h
    simpa using List.find?_some h
  · intro h
    have hc : op.symbol.head? = some c := by simp [h]
    cases op with
    | simple => simp [symbol] at h
    | _ =>
        obtain rfl := Option.some.inj hc
        rfl

/-- Of what may stand in a name only the full stop selects an operator. -/
theorem Operator.of_symbol?_eq_none (hc : Name.Allows c) (hstop : c ≠ CodePoint.ofChar '.') :
    ofSymbol? c = none := by
  rw [Option.eq_none_iff_forall_ne_some]
  intro op h
  have hsymbol := of_symbol?_eq_some_iff.1 h
  have hsimple : op ≠ .simple := by
    rintro rfl
    simp [symbol] at hsymbol
  obtain ⟨d, hd, _, hallows⟩ := exists_symbol hsimple
  obtain rfl : c = d := by simpa using hsymbol.symm.trans hd
  exact hstop (hallows hc)

/-- No symbol has a brace. -/
theorem Operator.brace_free_symbol (op : Operator) : BraceFree op.symbol := by
  show ∀ c ∈ op.symbol, c.isBrace = false
  cases op <;> decide

/-- A text that starts with neither a symbol nor an at sign is a list for the simple operator. -/
theorem parse_operator_simple (hat : c ≠ CodePoint.ofChar '@') (hc : Operator.ofSymbol? c = none) :
    parseOperator (c :: rest) = .ok (.simple, c :: rest) := by
  simp [parseOperator, hat, hc]

/-- A symbol selects its operator, unless it is a plus sign before another one. -/
theorem parse_operator_symbol (hsimple : op ≠ .simple)
    (hplus : rest.head? ≠ some (CodePoint.ofChar '+')) :
    parseOperator (op.symbol ++ rest) = .ok (op, rest) := by
  obtain ⟨c, hc, hat, _⟩ := Operator.exists_symbol hsimple
  have hsymbol := Operator.of_symbol?_eq_some_iff.2 hc
  rw [hc]
  simp [parseOperator, hat, hsymbol, hplus]

/-! ## The entries -/

/-- A list with a blank entry is malformed. -/
theorem parse_variables_of_blank {entry : Text} (hentry : entry ∈ splitOn ',' list)
    (htrim : entry.trim = []) : ∃ m, parseVariables limits list = .error (.malformed m) := by
  simp only [parseVariables]
  split
  · exact ⟨_, rfl⟩
  · have hany : ((splitOn ',' list).any fun entry => entry.trim.isEmpty) = true :=
      List.any_eq_true.2 ⟨entry, hentry, by simp [htrim]⟩
    rw [if_pos hany]
    exact ⟨_, rfl⟩

/-- A list without blank entries is read entry by entry. -/
theorem parse_variables_of_forall (h : ∀ entry ∈ splitOn ',' list, entry.trim ≠ []) :
    parseVariables limits list = (splitOn ',' list).mapM (VariableSpec.parse limits) := by
  have hlist : list.trim ≠ [] := by
    -- A list of blanks is a single entry, of which nothing is left.
    intro htrim
    have hcomma : CodePoint.ofChar ',' ∉ list :=
      fun hmem => absurd (trim_eq_nil_iff.1 htrim _ hmem) (by decide)
    exact h list (by simp [split_on_of_not_mem hcomma]) htrim
  have hentries : ¬((splitOn ',' list).any fun entry => entry.trim.isEmpty) = true := by
    rw [List.any_eq_true]
    rintro ⟨entry, hentry, htrim⟩
    exact h entry hentry (List.isEmpty_iff.1 htrim)
  rw [parseVariables, if_neg (by simpa using hlist), if_neg hentries]

/-- A list of entries is read exactly when each entry is. -/
theorem parse_variables_eq_ok_iff : parseVariables limits list = .ok specs ↔
    List.Forall₂ (fun entry s => VariableSpec.parse limits entry = .ok s)
      (splitOn ',' list) specs := by
  by_cases hblank : ∀ entry ∈ splitOn ',' list, entry.trim ≠ []
  · rw [parse_variables_of_forall hblank]
    exact mapm_eq_ok_iff
  · refine iff_of_false (fun h => ?_) fun hall =>
      hblank (forall_mem_left hall fun _ _ => VariableSpec.trim_ne_nil_of_parse)
    obtain ⟨entry, hentry, htrim⟩ : ∃ entry ∈ splitOn ',' list, entry.trim = [] := by
      simpa using hblank
    obtain ⟨m, hm⟩ := parse_variables_of_blank hentry htrim
    exact absurd (hm.symm.trans h) (by simp)

/-- A blank in front of a list of entries is ignored. -/
theorem parse_variables_cons_of_is_blank (hc : c.isBlank = true)
    (h : parseVariables limits list = .ok specs) :
    parseVariables limits (c :: list) = .ok specs := by
  have hcomma : c ≠ CodePoint.ofChar ',' := by
    rintro rfl
    exact absurd hc (by decide)
  rw [parse_variables_eq_ok_iff] at h ⊢
  cases hsplit : splitOn ',' list with
  | nil => exact absurd hsplit (split_on_ne_nil _ _)
  | cons entry entries =>
      rw [hsplit] at h
      rw [split_on_cons_of_ne hcomma hsplit]
      cases h with
      | cons hentry hentries =>
          refine .cons ?_ hentries
          rw [← hentry, VariableSpec.parse, VariableSpec.parse, trim_cons_of_is_blank hc]

/-! ## Well-formed expressions -/

/-- What is read is well formed. -/
theorem Expression.well_formed_of_parse (h : parse limits content = .ok e) :
    e.WellFormed limits := by
  obtain ⟨⟨op, list⟩, _, h⟩ := bind_eq_ok_iff.1 h
  obtain ⟨specs, hspecs, h⟩ := bind_eq_ok_iff.1 h
  obtain rfl := Except.ok.inj h
  have hall := parse_variables_eq_ok_iff.1 hspecs
  refine ⟨?_, forall_mem_right hall fun _ _ => VariableSpec.well_formed_of_parse⟩
  rintro rfl
  exact split_on_ne_nil _ _ (List.forall₂_nil_right_iff.1 hall)

/-- `e.variableList` is the texts of the references of `e`, separated by commas. -/
def Expression.variableList (e : Expression) : Text :=
  join [CodePoint.ofChar ','] (e.specs.map VariableSpec.source)

/-- An expression that would be read as a label is written with a space in front. -/
theorem Expression.content_of_looks_like_label (h : e.looksLikeLabel = true) :
    e.operator = .simple ∧ e.content = CodePoint.ofChar ' ' :: e.variableList := by
  have hsimple : e.operator = .simple := by
    simp only [looksLikeLabel, Bool.and_eq_true, decide_eq_true_eq] at h
    exact h.1
  refine ⟨hsimple, ?_⟩
  simp [content, variableList, h, hsimple, Operator.symbol]

/-- Any other expression is written as its symbol and its variable list. -/
theorem Expression.content_of_not_looks_like_label (h : e.looksLikeLabel = false) :
    e.content = e.operator.symbol ++ e.variableList := by
  simp [content, variableList, h]

namespace Expression.WellFormed

variable (h : e.WellFormed limits)

include h

/-- The references of a well-formed expression are read back from their texts. -/
theorem parse_variables_variable_list : parseVariables limits e.variableList = .ok e.specs := by
  have hne : e.specs.map VariableSpec.source ≠ [] := by simpa using h.ne_nil
  have hcomma : ∀ entry ∈ e.specs.map VariableSpec.source, CodePoint.ofChar ',' ∉ entry := by
    intro entry hentry hmem
    obtain ⟨s, hs, rfl⟩ := List.mem_map.1 hentry
    exact absurd ((h.specs s hs).allows_of_mem_source _ hmem) (by decide)
  rw [parse_variables_eq_ok_iff, variableList, split_on_join hne hcomma,
    List.forall₂_map_left_iff, List.forall₂_same]
  exact fun s hs => (h.specs s hs).parse_source

/-- The list of a well-formed expression starts as the name of its first variable does. -/
theorem exists_head? : ∃ c, e.variableList.head? = some c ∧ Name.Allows c ∧
    (e.specs.head?.bind fun s => s.name.head?) = some c := by
  cases hspecs : e.specs with
  | nil => exact absurd hspecs h.ne_nil
  | cons s rest =>
      have hs := h.specs s (by simp [hspecs])
      have hhead := hs.head?_source
      cases hname : s.name with
      | nil => exact absurd hname (Name.ne_nil_of_is_name hs.isName)
      | cons c tail =>
          have hne : s.source ≠ [] := by
            intro hsource
            simp [hsource, hname] at hhead
          refine ⟨c, ?_, Name.allows_of_mem hs.isName c (by simp [hname]), by simp [hname]⟩
          rw [variableList, hspecs, List.map_cons, head?_join hne, hhead, hname, List.head?_cons]

/-- The symbol of a well-formed expression selects its operator. A name can start with no symbol
but the full stop, and in front of that the simple operator has a gap. -/
theorem parse_operator_content : ∃ list,
    parseOperator e.content = .ok (e.operator, list) ∧
      parseVariables limits list = .ok e.specs := by
  have hspecs := h.parse_variables_variable_list
  obtain ⟨c, hhead, hallows, hname⟩ := h.exists_head?
  cases hlabel : e.looksLikeLabel with
  | true =>
      obtain ⟨hsimple, hcontent⟩ := content_of_looks_like_label hlabel
      have hgap := parse_variables_cons_of_is_blank (c := CodePoint.ofChar ' ') (by decide) hspecs
      refine ⟨_, ?_, hgap⟩
      rw [hcontent, hsimple, parse_operator_simple (by decide) (by decide)]
  | false =>
      refine ⟨_, ?_, hspecs⟩
      rw [content_of_not_looks_like_label hlabel]
      by_cases hsimple : e.operator = .simple
      · have hstop : c ≠ CodePoint.ofChar '.' := by
          rintro rfl
          simp [looksLikeLabel, hsimple, hname] at hlabel
        have hat : c ≠ CodePoint.ofChar '@' := by
          rintro rfl
          exact absurd hallows (by decide)
        obtain ⟨tail, hlist⟩ := List.head?_eq_some_iff.1 hhead
        rw [hsimple, hlist, Operator.symbol, List.nil_append]
        exact parse_operator_simple hat (Operator.of_symbol?_eq_none hallows hstop)
      · refine parse_operator_symbol hsimple ?_
        rw [hhead]
        rintro hplus
        obtain rfl := Option.some.inj hplus
        exact absurd hallows (by decide)

/-- A well-formed expression is read back from its content. -/
theorem parse_content : Expression.parse limits e.content = .ok e := by
  obtain ⟨list, hoperator, hspecs⟩ := h.parse_operator_content
  simp only [Expression.parse, hoperator, ok_bind, hspecs, pure_eq_ok]

/-- The variable list of a well-formed expression has no brace. -/
theorem brace_free_variable_list : BraceFree e.variableList := by
  intro c hc
  rcases mem_or_mem_of_mem_join hc with hcomma | ⟨entry, hentry, hmem⟩
  · rw [List.mem_singleton.1 hcomma]
    decide
  · obtain ⟨s, hs, rfl⟩ := List.mem_map.1 hentry
    have hallows := (h.specs s hs).allows_of_mem_source c hmem
    rw [Bool.eq_false_iff, ne_eq, CodePoint.is_brace_iff]
    rintro (rfl | rfl)
    · exact absurd hallows (by decide)
    · exact absurd hallows (by decide)

/-- The content of a well-formed expression holds no brace. -/
theorem brace_free_content : BraceFree e.content := by
  intro c hc
  cases hlabel : e.looksLikeLabel with
  | true =>
      rw [(content_of_looks_like_label hlabel).2] at hc
      rcases List.mem_cons.1 hc with rfl | hc
      · decide
      · exact h.brace_free_variable_list c hc
  | false =>
      rw [content_of_not_looks_like_label hlabel] at hc
      rcases List.mem_append.1 hc with hc | hc
      · exact e.operator.brace_free_symbol c hc
      · exact h.brace_free_variable_list c hc

end Expression.WellFormed

end UriTemplate
