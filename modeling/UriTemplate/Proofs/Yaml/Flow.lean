import UriTemplate.Proofs.Yaml.Lexer
import UriTemplate.Proofs.Yaml.Quoted

/-!
# Tokens of flow collections

One lemma for each token of a flow collection on one line says where it takes a lexer. A scalar
between quotes that may be a key becomes one at the colon after it if no more than 1024 code points
lie between (`Lexer.At.reaches_key`); otherwise the colon has no key.
-/

namespace UriTemplate.Yaml

open Cursor

namespace Lexer

variable {l m : Lexer} {c : CodePoint} {t rest : Text} {i depth : Nat} {allowed : Bool}
  {tokens : List Token} {token : Token}

/-! ## Marks -/

/-- What a lexer does at each mark of a flow collection. -/
def marks (l : Lexer) : List (Char × Except Error Lexer) :=
  [('[', l.openBracket .flowSequenceStart), ('\x7b', l.openBracket .flowMappingStart),
   (']', l.closeBracket .flowSequenceEnd), ('\x7d', l.closeBracket .flowMappingEnd),
   (',', l.flowEntry),
   ('"', l.inline fun c => return ((← c.quotedScalar true).map (Token.scalar · false) id))]

/-- At a mark its token is read. -/
theorem token_of_mem_marks {mark : Char} {next : Except Error Lexer}
    (h : l.cursor = onLine (CodePoint.ofChar mark :: rest) i) (hmark : (mark, next) ∈ l.marks) :
    l.token = next := by
  obtain ⟨cursor, depth, indents, keyAllowed, candidates, count, released, waiting⟩ := l
  obtain rfl : cursor = _ := h
  simp only [marks, List.mem_cons, Prod.mk.injEq, List.not_mem_nil, or_false] at hmark
  rcases hmark with ⟨rfl, rfl⟩ | ⟨rfl, rfl⟩ | ⟨rfl, rfl⟩ | ⟨rfl, rfl⟩ | ⟨rfl, rfl⟩ | ⟨rfl, rfl⟩
  all_goals rfl

/-- A token starts at a mark. -/
theorem starts_token_mark {mark : Char} {next : Except Error Lexer} (hmark : (mark, next) ∈ l.marks)
    (rest : Text) : StartsToken (CodePoint.ofChar mark :: rest) := by
  intro c hc
  obtain rfl : CodePoint.ofChar mark = c := by simpa using hc
  simp only [marks, List.mem_cons, Prod.mk.injEq, List.not_mem_nil, or_false] at hmark
  rcases hmark with ⟨rfl, _⟩ | ⟨rfl, _⟩ | ⟨rfl, _⟩ | ⟨rfl, _⟩ | ⟨rfl, _⟩ | ⟨rfl, _⟩
  all_goals decide

/-- An opening bracket is read. -/
theorem At.reaches_opening {mark : Char}
    (h : l.At i (CodePoint.ofChar mark :: rest) depth allowed tokens)
    (hmark : (mark, token) ∈ [('[', Token.flowSequenceStart), ('\x7b', .flowMappingStart)]) :
    l.Reaches rest (depth + 1) true (tokens ++ [token]) := by
  have hmem : (mark, l.fresh.openBracket token) ∈ l.fresh.marks := by
    simp only [List.mem_cons, Prod.mk.injEq, List.not_mem_nil, or_false] at hmark
    rcases hmark with ⟨rfl, rfl⟩ | ⟨rfl, rfl⟩ <;> simp [marks]
  obtain ⟨m, hsave, hm⟩ := h.fresh.exists_save_candidate
  have hfinal : token ≠ .streamEnd := by
    rintro rfl
    simp at hmark
  have hnext : m.cursor.advance 1 = onLine rest (i + 1) := by
    rw [hm.cursor]
    exact next_on_line (starts_token_mark hmem rest _ rfl).1
  refine h.reaches_of_token (starts_token_mark hmem rest) ?_ (hm.taking (i + 1) hfinal) (by simp)
  rw [token_of_mem_marks h.fresh.cursor hmem, openBracket, hsave, ← hm.depth]
  simp only [ok_bind, take, push, hnext]
  rfl

/-- A closing bracket is read. -/
theorem At.reaches_closing {mark : Char}
    (h : l.At i (CodePoint.ofChar mark :: rest) (depth + 1) allowed tokens)
    (hmark : (mark, token) ∈ [(']', Token.flowSequenceEnd), ('\x7d', .flowMappingEnd)]) :
    l.Reaches rest depth false (tokens ++ [token]) := by
  have hmem : (mark, l.fresh.closeBracket token) ∈ l.fresh.marks := by
    simp only [List.mem_cons, Prod.mk.injEq, List.not_mem_nil, or_false] at hmark
    rcases hmark with ⟨rfl, rfl⟩ | ⟨rfl, rfl⟩ <;> simp [marks]
  obtain ⟨m, hdrop, hm⟩ := h.fresh.exists_drop_candidate
  have hfinal : token ≠ .streamEnd := by
    rintro rfl
    simp at hmark
  have hnext : m.cursor.advance 1 = onLine rest (i + 1) := by
    rw [hm.cursor]
    exact next_on_line (starts_token_mark hmem rest _ rfl).1
  refine h.reaches_of_token (starts_token_mark hmem rest) ?_ (hm.taking (i + 1) hfinal) (by simp)
  rw [token_of_mem_marks h.fresh.cursor hmem, closeBracket, hdrop]
  simp only [ok_bind, take, push, hnext, hm.depth, Nat.add_sub_cancel]
  rfl

/-- A comma is read, after which a key may start. -/
theorem At.reaches_comma (h : l.At i (CodePoint.ofChar ',' :: rest) depth allowed tokens) :
    l.Reaches rest depth true (tokens ++ [.flowEntry]) := by
  have hmem : (',', l.fresh.flowEntry) ∈ l.fresh.marks := by simp [marks]
  obtain ⟨m, hdrop, hm⟩ := h.fresh.exists_drop_candidate
  have hnext : m.cursor.advance 1 = onLine rest (i + 1) := by
    rw [hm.cursor]
    exact next_on_line (starts_token_mark hmem rest _ rfl).1
  refine h.reaches_of_token (starts_token_mark hmem rest) ?_ (hm.taking (i + 1) (by decide))
    (by simp)
  rw [token_of_mem_marks h.fresh.cursor hmem, flowEntry, hdrop, ← hm.depth]
  simp only [ok_bind, take, push, hnext]
  rfl

/-! ## Scalars -/

/-- A token starts at a text in quotes. -/
theorem starts_token_in_json (t rest : Text) : StartsToken (t.inJson ++ rest) := by
  intro c hc
  obtain rfl : CodePoint.ofChar '"' = c := by simpa [Text.inJson] using hc
  decide

/-- A scalar between quotes is read where it may be a key or not. -/
theorem At.token_in_json (h : l.At i (t.inJson ++ rest) depth allowed tokens)
    (hsave : l.saveCandidate = .ok m) (hm : m.At i (t.inJson ++ rest) depth allowed tokens)
    (hunits : ∀ u ∈ t.units, u.val < 0x10000) :
    l.token = .ok (m.taking (.scalar t.units false) (onLine rest (i + t.inJson.length)) depth
      false) := by
  have hmem : ('"', l.inline fun c =>
      return ((← c.quotedScalar true).map (Token.scalar · false) id)) ∈ l.marks := by
    simp [marks]
  rw [token_of_mem_marks h.cursor hmem, inline, hsave, ok_bind, hm.cursor,
    quoted_scalar_in_json hunits, ← hm.depth]
  rfl

/-- What follows a text in quotes is shorter. -/
theorem length_lt_in_json (t rest : Text) : rest.length < (t.inJson ++ rest).length := by
  simp only [Text.inJson, List.length_append, List.length_cons]
  omega

/-- A scalar between quotes is read. -/
theorem At.reaches_quoted (h : l.At i (t.inJson ++ rest) depth allowed tokens)
    (hunits : ∀ u ∈ t.units, u.val < 0x10000) :
    l.Reaches rest depth false (tokens ++ [.scalar t.units false]) := by
  obtain ⟨m, hsave, hm⟩ := h.fresh.exists_save_candidate
  exact h.reaches_of_token (starts_token_in_json t rest) (h.fresh.token_in_json hsave hm hunits)
    (hm.taking _ (by simp)) (length_lt_in_json t rest)

/-! ## Keys -/

/-- `l.Keyed key?` says that `key?` is the only place at the current depth where a key may have
started, if there is any, and that its token waits. -/
structure Keyed (l : Lexer) (key? : Option KeyCandidate) : Prop where
  candidates : ∃ more, l.candidates = key?.toList.map (fun k => (l.depth, k)) ++ more ∧
    ∀ e ∈ more, e.1 ≠ l.depth
  waits : ∀ k ∈ key?, l.count ≤ k.token

variable {key? : Option KeyCandidate}

/-- Of the candidates only a stale one is dropped. -/
theorem Keyed.fresh (h : l.Keyed key?) : l.fresh.Keyed (key?.filter fun k => !l.isStale k) where
  candidates := by
    obtain ⟨more, heq, hmore⟩ := h.candidates
    refine ⟨more.filter fun e => !l.isStale e.2, ?_, fun e he =>
      hmore e (List.mem_of_mem_filter he)⟩
    rw [Lexer.fresh, heq, List.filter_append]
    cases key? with
    | none => rfl
    | some k => cases hk : l.isStale k <;> simp [hk, Option.filter]
  waits := fun k hk => h.waits k (by simpa using (Option.mem_filter_iff.1 hk).1)

/-- The candidate stays when a token is released. -/
theorem Keyed.release (h : l.Keyed key?) : l.release.Keyed key? where
  candidates := h.candidates
  waits := by
    rintro k hk
    obtain ⟨more, heq, _⟩ := h.candidates
    have hle := h.waits k hk
    have hmem : k.token ∈ l.candidates.map fun e => e.2.token := by
      obtain rfl : key? = some k := hk
      simp [heq]
    -- No token behind the first candidate is settled.
    have hfirst := List.min?_getD_le_of_mem (k := 0) hmem
    obtain ⟨first, hsome⟩ := Option.isSome_iff_exists.1 (List.isSome_min?_of_mem hmem)
    rw [hsome, Option.getD_some] at hfirst
    have hsettled : (l.waiting.take (first - l.count)).length ≤ k.token - l.count :=
      Nat.le_trans (List.length_take_le _ _) (Nat.sub_le_sub_right hfirst _)
    simp only [Lexer.release, hsome]
    omega

/-- The candidate is the one of the depth. -/
theorem Keyed.lookup (h : l.Keyed key?) : l.candidates.lookup l.depth = key? := by
  obtain ⟨more, heq, hmore⟩ := h.candidates
  rw [heq]
  cases key? with
  | none =>
      refine List.lookup_eq_none_iff.2 fun e he => ?_
      simpa using Ne.symm (hmore e he)
  | some k => simp

/-- `withKey key? tokens` is the tokens with a key indicator at the place of the candidate, if there
is any. -/
def withKey (key? : Option KeyCandidate) (tokens : List Token) : List Token :=
  match key? with
  | none => tokens
  | some k => tokens.take k.token ++ .key :: tokens.drop k.token

/-- A key is inserted where its candidate stands. -/
theorem At.insert_at (h : l.At i rest depth allowed tokens) {k : KeyCandidate}
    (hk : l.count ≤ k.token) :
    (l.insertAt k.token .key).At i rest depth allowed (withKey (some k) tokens) where
  cursor := h.cursor
  depth := h.depth
  indents := h.indents
  keyAllowed := h.keyAllowed
  optional := h.optional
  count := h.count
  written := by
    have hlength : l.released.reverse.length ≤ k.token := by
      rw [List.length_reverse, ← h.count]
      exact hk
    rw [withKey, ← h.written, List.take_append, List.drop_append, List.take_of_length_le hlength,
      List.drop_of_length_le hlength, List.length_reverse, ← h.count]
    simp [Lexer.insertAt]
  unfinished := by
    have hunfinished := h.unfinished
    rw [← List.take_append_drop k.token tokens, List.mem_append, not_or] at hunfinished
    simp [withKey, hunfinished.1, hunfinished.2]

/-- At a colon inside brackets a value is read. -/
theorem token_colon (hcursor : l.cursor = onLine (CodePoint.ofChar ':' :: rest) i)
    (hdepth : l.depth = depth + 1) : l.token = l.value := by
  obtain ⟨cursor, _, indents, keyAllowed, candidates, count, released, waiting⟩ := l
  obtain rfl : cursor = _ := hcursor
  obtain rfl := hdepth
  rfl

/-- A token starts at a colon. -/
theorem starts_token_colon (rest : Text) : StartsToken (CodePoint.ofChar ':' :: rest) := by
  intro c hc
  obtain rfl : CodePoint.ofChar ':' = c := by simpa using hc
  decide

/-- A colon is one character of a line. -/
theorem advance_colon (rest : Text) (i : Nat) :
    (onLine (CodePoint.ofChar ':' :: rest) i).advance 1 = onLine rest (i + 1) := by
  have hnext : (onLine (CodePoint.ofChar ':' :: rest) i).next = onLine rest (i + 1) :=
    next_on_line (by decide)
  exact hnext

/-- A colon where no key may have started is read as a value indicator. -/
theorem At.exists_value_none
    (h : l.At i (CodePoint.ofChar ':' :: rest) (depth + 1) false tokens) (hkey : l.Keyed none) :
    ∃ m, l.value = .ok m ∧ m.At (i + 1) rest (depth + 1) false (tokens ++ [.value]) := by
  obtain ⟨m, hdrop, hm⟩ := h.exists_drop_candidate
  have hflow : l.inFlow = true := by
    rw [inFlow, h.depth]
    rfl
  have hopen : l.openBlock .blockMappingStart = .ok l := by
    rw [openBlock, hflow]
    rfl
  refine ⟨_, ?_, hm.taking (i + 1) (by decide)⟩
  rw [value, hkey.lookup]
  simp only [hopen, ok_bind, hdrop, hflow, take, push, hm.cursor, hm.depth, advance_colon,
    Bool.not_true]
  rfl

/-- A colon after a key has a key indicator put where the key started. -/
theorem At.exists_value_some {k : KeyCandidate}
    (h : l.At i (CodePoint.ofChar ':' :: rest) (depth + 1) false tokens) (hkey : l.Keyed (some k)) :
    ∃ m, l.value = .ok m ∧
      m.At (i + 1) rest (depth + 1) false (withKey (some k) tokens ++ [.value]) := by
  have hat := (h.with_candidates (h.optional_filter fun e => decide (e.1 ≠ l.depth))).insert_at
    (hkey.waits k rfl)
  have hdepth : ¬depth + 1 = 0 := by omega
  refine ⟨_, ?_, hat.taking (i + 1) (by decide)⟩
  rw [value, hkey.lookup]
  simp only [Lexer.insertAt, inFlow, take, push, h.depth, h.cursor, advance_colon, ne_eq, hdepth,
    not_false_eq_true, decide_true, if_true, Bool.false_eq_true, if_false]
  rfl

/-- The colon after a key is read. If the key started at a candidate, that becomes the key. -/
theorem At.reaches_colon
    (h : l.At i (CodePoint.ofChar ':' :: rest) (depth + 1) false tokens) (hkey : l.Keyed key?)
    (hnear : ∀ k ∈ key?, l.isStale k = false) :
    l.Reaches rest (depth + 1) false (withKey key? tokens ++ [.value]) := by
  have hfresh : l.fresh.Keyed key? := by
    have hkept : (key?.filter fun k => !l.isStale k) = key? := by
      cases key? with
      | none => rfl
      | some k => simp [Option.filter, hnear k rfl]
    rw [← hkept]
    exact hkey.fresh
  obtain ⟨m, hvalue, hm⟩ : ∃ m, l.fresh.value = .ok m ∧
      m.At (i + 1) rest (depth + 1) false (withKey key? tokens ++ [.value]) := by
    cases key? with
    | none => exact h.fresh.exists_value_none hfresh
    | some k => exact h.fresh.exists_value_some hfresh
  refine h.reaches_of_token (starts_token_colon rest) ?_ hm (by simp)
  rw [token_colon h.fresh.cursor h.fresh.depth, hvalue]

/-- The greatest number of code points that a key may take up, its quotes included. -/
def keyLimit : Nat := 1024

/-- `keyTokens t` is the tokens of the text `t` before a colon, where it is a key if it is short
enough. -/
def keyTokens (t : Text) : List Token :=
  (if t.inJson.length ≤ keyLimit then [.key] else []) ++ [.scalar t.units false]

/-- A text in quotes becomes a key if it is short enough. -/
theorem with_key_eq_key_tokens (t : Text) {k : KeyCandidate} (hk : k.token = tokens.length) :
    withKey (if t.inJson.length ≤ keyLimit then some k else none)
      (tokens ++ [.scalar t.units false]) = tokens ++ keyTokens t := by
  by_cases hfits : t.inJson.length ≤ keyLimit
  · simp [keyTokens, hfits, withKey, hk]
  · simp [keyTokens, hfits, withKey]

/-- After a token that may be a key its place is a candidate. -/
theorem At.keyed_saved (h : l.At i rest depth allowed tokens) (token : Token) (cursor : Cursor)
    (allowed' : Bool) :
    (l.saved.taking token cursor depth allowed').Keyed (some l.candidate) where
  candidates := by
    refine ⟨l.candidates.filter fun e => e.1 ≠ l.depth, ?_, fun e he => ?_⟩
    · simp [Lexer.taking, Lexer.saved, push, h.depth]
    · have hne := List.of_mem_filter he
      rw [h.depth] at hne
      simpa [Lexer.taking] using hne
  waits := by
    rintro k ⟨⟩
    exact Nat.le_add_right _ _

/-- A candidate stands after the tokens so far. -/
theorem At.length_tokens (h : l.At i rest depth allowed tokens) :
    l.candidate.token = tokens.length := by
  rw [← h.written, List.length_append, List.length_reverse, ← h.count]
  rfl

/-- The place of a key is too far away from where the key ends if the key is too long. -/
theorem is_stale_candidate {length : Nat} (h : l.At i t depth allowed tokens)
    (hcursor : m.cursor = onLine rest (i + length)) :
    m.isStale l.candidate = decide (keyLimit < length) := by
  simp [isStale, hcursor, candidate, h.cursor, onLine]
  rfl

/-- A scalar between quotes is read where it may be a key, and is one if it is not too long. -/
theorem At.exists_keyed (h : l.At i (t.inJson ++ rest) depth true tokens)
    (hunits : ∀ u ∈ t.units, u.val < 0x10000) :
    ∃ m, l.Leads m ∧
      m.At (i + t.inJson.length) rest depth false (tokens ++ [.scalar t.units false]) ∧
        m.Keyed (if t.inJson.length ≤ keyLimit then some l.fresh.candidate else none) := by
  have htoken := h.fresh.token_in_json h.fresh.save_candidate h.fresh.saved hunits
  have hat : (l.fresh.saved.taking (.scalar t.units false) (onLine rest (i + t.inJson.length))
      depth false).At _ _ _ _ _ := h.fresh.saved.taking _ (by simp)
  have hkey := (h.fresh.keyed_saved (.scalar t.units false) (onLine rest (i + t.inJson.length))
    false).fresh.release
  rw [Option.filter_some, is_stale_candidate h.fresh hat.cursor] at hkey
  refine ⟨_, h.leads_of_token (starts_token_in_json t _) htoken hat (length_lt_in_json t _),
    hat.fresh.release, ?_⟩
  simpa [Nat.not_lt] using hkey

/-- A scalar between quotes is read where it may be a key, and a colon after it. -/
theorem At.reaches_key
    (h : l.At i (t.inJson ++ CodePoint.ofChar ':' :: rest) (depth + 1) true tokens)
    (hunits : ∀ u ∈ t.units, u.val < 0x10000) :
    l.Reaches rest (depth + 1) false (tokens ++ keyTokens t ++ [.value]) := by
  obtain ⟨n, hn, hat, hkey⟩ := h.exists_keyed hunits
  have hnear : ∀ k ∈ (if t.inJson.length ≤ keyLimit then some l.fresh.candidate else none),
      n.isStale k = false := by
    intro k hk
    split at hk
    · next hfits =>
        obtain rfl : l.fresh.candidate = k := by simpa using hk
        rw [is_stale_candidate h.fresh hat.cursor, decide_eq_false_iff_not]
        omega
    · exact absurd hk (by simp)
  obtain ⟨m, j, hm, hfinal⟩ := hat.reaches_colon hkey hnear
  rw [with_key_eq_key_tokens t h.fresh.length_tokens] at hfinal
  exact ⟨m, j, hn.trans hm, hfinal⟩

/-! ## Plain scalars -/

/-- `StartsBare t` says that `t` starts as a number or a word does. -/
def StartsBare (t : Text) : Prop :=
  ∃ c u, t = c :: u ∧ (c.isDigit = true ∨ c.within 'a' 'z' = true ∨
    c = CodePoint.ofChar '-' ∧ ∃ d v, u = d :: v ∧ d.isDigit = true)

/-- What starts without quotes starts with a bare character. -/
theorem StartsBare.is_bare {u : Text} (h : StartsBare (c :: u)) : IsBare c := by
  obtain ⟨_, _, heq, hc⟩ := h
  obtain ⟨rfl, rfl⟩ := List.cons.inj heq
  rcases hc with hc | hc | ⟨rfl, _⟩
  · exact .inl (Binary64.is_numeric_of_is_digit hc)
  · exact .inr hc
  · exact .inl rfl

/-- A number or a word starts a plain scalar, and no list item or mark of a document. -/
theorem StartsBare.starts_plain (h : StartsBare t) (rest : Text) (i : Nat) (inFlow : Bool) :
    startsPlain inFlow (onLine (t ++ rest) i) = true ∧
      ((onLine (t ++ rest) i).isAt '-' && endsWord ((onLine (t ++ rest) i).peekAt 1)) = false ∧
        (onLine (t ++ rest) i).startsWith "---" = false ∧
          (onLine (t ++ rest) i).startsWith "..." = false := by
  have hdashes : Text.ofString "---" = ['-', '-', '-'].map CodePoint.ofChar := rfl
  have hpoints : Text.ofString "..." = ['.', '.', '.'].map CodePoint.ofChar := rfl
  have hbare : ∀ c u, t = c :: u → IsBare c := fun c u heq => (heq ▸ h).is_bare
  obtain ⟨c, u, rfl, hc⟩ := h
  have hprintable := is_printable_ascii_of_is_bare (hbare c u rfl)
  have hbreak := CodePoint.is_break_of_is_printable_ascii hprintable
  by_cases hminus : c = CodePoint.ofChar '-'
  · subst hminus
    obtain ⟨d, v, rfl, hd⟩ : ∃ d v, u = d :: v ∧ d.isDigit = true := by
      rcases hc with hc | hc | ⟨_, hc⟩
      · exact absurd hc (by decide)
      · exact absurd hc (by decide)
      · exact hc
    have hword := ends_word_of_is_bare (.inl (Binary64.is_numeric_of_is_digit hd))
    have hne : CodePoint.ofChar '-' ≠ d := by
      rintro rfl
      exact absurd hd (by decide)
    have hpoint : CodePoint.ofChar '.' ≠ CodePoint.ofChar '-' := by decide
    simp [startsPlain, startsWith, hdashes, hpoints, onLine, Cursor.peek, peekAt, hword, hne,
      hpoint, List.isPrefixOf]
  · have hmark : c.isOneOf " \t-?:,[]\x7b\x7d#&*!|>'\"%@`" = false := by
      refine is_one_of_eq_false (p := fun d => d.isDigit || d.within 'a' 'z') ?_ (by decide)
      rcases hc with hc | hc | ⟨hc, _⟩
      · simp [hc]
      · simp [hc]
      · exact absurd hc hminus
    have hpoint : c ≠ CodePoint.ofChar '.' := by
      rintro rfl
      rcases hc with hc | hc | ⟨hc, _⟩
      · exact absurd hc (by decide)
      · exact absurd hc (by decide)
      · exact absurd hc (by decide)
    simp [startsPlain, startsWith, hdashes, hpoints, isAt, hminus, hmark, hbreak,
      Ne.symm hminus, Ne.symm hpoint, List.isPrefixOf]

/-- Where a scalar starts without quotes, a plain one is read. -/
theorem token_plain (hstart : StartsBare t) (hcursor : l.cursor = onLine (t ++ rest) i) :
    l.token = l.plain := by
  obtain ⟨hplain, hdash, hdashes, hpoints⟩ := hstart.starts_plain rest i l.inFlow
  have hbare : ∀ c u, t = c :: u → IsBare c := fun c u heq => (heq ▸ hstart).is_bare
  obtain ⟨c, u, rfl, _⟩ := hstart
  have hmark : ∀ d : Char, ¬IsBare (CodePoint.ofChar d) →
      (onLine (c :: u ++ rest) i).isAt d = false := by
    intro d hd
    have hne := ne_of_is_bare (hbare c u rfl) hd
    simp [isAt, hne]
  have hpeek : (onLine (c :: u ++ rest) i).peek.isNone = false := rfl
  simp only [Lexer.token, hcursor, hpeek, hdashes, hpoints, hdash, hplain, hmark '%' (by decide),
    hmark '[' (by decide), hmark '\x7b' (by decide), hmark ']' (by decide),
    hmark '\x7d' (by decide), hmark ',' (by decide), hmark '?' (by decide), hmark ':' (by decide),
    hmark '*' (by decide), hmark '&' (by decide), hmark '!' (by decide), hmark '|' (by decide),
    hmark '>' (by decide), hmark '\'' (by decide), hmark '"' (by decide), Bool.false_and,
    Bool.false_eq_true, if_false, if_true]

/-- A number or a word is read. -/
theorem At.reaches_plain (h : l.At i (t ++ rest) (depth + 1) allowed tokens)
    (hstart : StartsBare t) (ht : ∀ c ∈ t, IsBare c) (hrest : EndsFlow rest) :
    l.Reaches rest (depth + 1) false (tokens ++ [.scalar t true]) := by
  have hne : t ≠ [] := by
    obtain ⟨c, u, rfl, _⟩ := hstart
    simp
  have hstarts : StartsToken (t ++ rest) := by
    intro c hc
    obtain ⟨d, u, rfl⟩ := List.exists_cons_of_ne_nil hne
    obtain rfl : d = c := by simpa using hc
    have hbare := ht d (by simp)
    exact ⟨is_printable_ascii_of_is_bare hbare, ne_of_is_bare hbare (by decide),
      ne_of_is_bare hbare (by decide)⟩
  obtain ⟨m, hsave, hm⟩ := h.fresh.exists_save_candidate
  have hflow : m.inFlow = true := by
    rw [inFlow, hm.depth]
    rfl
  refine h.reaches_of_token hstarts ?_ (hm.taking (i + t.length) (by simp)) ?_
  · rw [token_plain hstart h.fresh.cursor, plain, hsave, ok_bind, hflow, hm.cursor,
      plain_scalar_on_line hne ht hrest, ← hm.depth]
    rfl
  · have hpos := List.length_pos_iff.2 hne
    rw [List.length_append]
    omega

/-! ## The end -/

/-- At the end of a document outside of brackets the stream ends. -/
theorem At.run_end {fuel : Nat} (h : l.At i [] 0 allowed tokens) (hfuel : 1 < fuel) :
    l.run fuel = ⟨tokens ++ [.streamEnd], none⟩ := by
  obtain ⟨fuel, rfl⟩ : ∃ n, fuel = n + 2 := ⟨fuel - 2, by omega⟩
  have hstarts : StartsToken [] := by simp [StartsToken]
  obtain ⟨m, hdrop, hm⟩ := h.fresh.exists_drop_candidate
  have htoken : l.fresh.token =
      .ok (Lexer.push { m with keyAllowed := false, candidates := [] } .streamEnd) := by
    have hpeek : l.fresh.cursor.peek.isNone = true := by
      rw [h.fresh.cursor]
      rfl
    rw [token, if_pos hpeek, streamEnd, closeAll, unwind_of_indents h.fresh.indents, hdrop]
    rfl
  have hstep : l.step = .ok { m with
      keyAllowed := false, candidates := [], count := m.count + (m.waiting.length + 1)
      released := .streamEnd :: (m.waiting.reverse ++ m.released), waiting := [] } := by
    have hall : (m.waiting ++ [Token.streamEnd]).take (m.waiting.length + 1) =
        m.waiting ++ [Token.streamEnd] := List.take_of_length_le (by simp)
    rw [h.step_eq hstarts, htoken]
    simp [push, Lexer.dropStale, Lexer.release, hall]
  have hwritten := hm.written
  rw [run, h.not_is_done, hstep]
  simp [run, isDone, ← hwritten]

end Lexer

end UriTemplate.Yaml
