import UriTemplate.Proofs.Outcome
import UriTemplate.Proofs.Yaml.Line
import UriTemplate.Yaml.Token.Lexer

/-!
# Lexing one line

`Lexer.At` says where on the first line a lexer stands outside of block collections, and which
tokens it has yielded, settled or not. `Lexer.Leads` relates two lexers of which the second goes on
where the first gets to, and `Lexer.Reaches` says to which state a lexer gets: past a token that is
read (`Lexer.At.reaches_of_token`), and past a space (`Lexer.At.reaches_space`).
-/

namespace UriTemplate.Yaml

open Cursor

namespace Lexer

variable {l m : Lexer} {c : CodePoint} {t rest : Text} {i depth : Nat} {allowed : Bool}
  {tokens : List Token} {token : Token}

/-- `l.At i rest depth allowed tokens` says that the lexer `l` stands on the first line before
`rest`, after `i` code points and inside `depth` brackets, that a key may start there or not, and
that `tokens` are the tokens before it. -/
structure At (l : Lexer) (i : Nat) (rest : Text) (depth : Nat) (allowed : Bool)
    (tokens : List Token) : Prop where
  cursor : l.cursor = onLine rest i
  depth : l.depth = depth
  indents : l.indents = []
  keyAllowed : l.keyAllowed = allowed
  optional : ∀ e ∈ l.candidates, e.2.required = false
  count : l.count = l.released.length
  written : l.released.reverse ++ l.waiting = tokens
  unfinished : Token.streamEnd ∉ tokens

/-- `l.Leads m` says that the lexer `l` yields the same tokens as `m`, if it runs long enough. -/
def Leads (l m : Lexer) : Prop :=
  ∀ fuel, l.cursor.rest.length + 1 < fuel →
    ∃ left, m.cursor.rest.length + 1 < left ∧ l.run fuel = m.run left

/-- Scanners lead on from one to the next. -/
theorem Leads.trans {n : Lexer} (h : l.Leads m) (hm : m.Leads n) : l.Leads n := by
  intro fuel hfuel
  obtain ⟨left, hleft, hrun⟩ := h fuel hfuel
  obtain ⟨final, hfinal, hmore⟩ := hm left hleft
  exact ⟨final, hfinal, hrun.trans hmore⟩

/-- `l.Reaches rest depth allowed tokens` says that the lexer `l` leads to one that stands on the
first line before `rest`, with `tokens` before it. -/
def Reaches (l : Lexer) (rest : Text) (depth : Nat) (allowed : Bool) (tokens : List Token) : Prop :=
  ∃ m i, l.Leads m ∧ m.At i rest depth allowed tokens

/-- A scanner has reached where it is. -/
theorem At.reaches (h : l.At i rest depth allowed tokens) : l.Reaches rest depth allowed tokens :=
  ⟨l, i, fun fuel hfuel => ⟨fuel, hfuel, rfl⟩, h⟩

/-- What is reached from a place that is reached is reached. -/
theorem Reaches.trans {rest' : Text} {depth' : Nat} {allowed' : Bool} {tokens' : List Token}
    (h : l.Reaches rest depth allowed tokens)
    (hnext : ∀ (m : Lexer) (i : Nat), m.At i rest depth allowed tokens →
      m.Reaches rest' depth' allowed' tokens') :
    l.Reaches rest' depth' allowed' tokens' := by
  obtain ⟨m, i, hm, hat⟩ := h
  obtain ⟨n, j, hn, hfinal⟩ := hnext m i hat
  exact ⟨n, j, hm.trans hn, hfinal⟩

/-! ## Between the tokens -/

/-- `l.fresh` is the state without candidates that are too far away. -/
def fresh (l : Lexer) : Lexer :=
  { l with candidates := l.candidates.filter fun (_, k) => !l.isStale k }

/-- On a line no candidate that is required gets stale. -/
theorem At.drop_stale (h : l.At i rest depth allowed tokens) : l.dropStale = .ok l.fresh := by
  have hnone : (l.candidates.any fun (_, k) => l.isStale k && k.required) = false := by
    rw [List.any_eq_false]
    intro e he
    simp [h.optional e he]
  rw [Lexer.dropStale, if_neg (by simp [hnone])]
  rfl

/-- Without stale candidates a scanner is where it was. -/
theorem At.fresh (h : l.At i rest depth allowed tokens) :
    l.fresh.At i rest depth allowed tokens where
  cursor := h.cursor
  depth := h.depth
  indents := h.indents
  keyAllowed := h.keyAllowed
  optional := fun e he => h.optional e (List.mem_of_mem_filter he)
  count := h.count
  written := h.written
  unfinished := h.unfinished

/-- The candidate of a depth is none that is required. -/
theorem At.drop_candidate (h : l.At i rest depth allowed tokens) :
    l.dropCandidate =
      .ok { l with candidates := l.candidates.filter fun (other, _) => other ≠ l.depth } := by
  have hnone : (l.candidates.any fun (other, k) => other = l.depth && k.required) = false := by
    rw [List.any_eq_false]
    intro e he
    simp [h.optional e he]
  rw [Lexer.dropCandidate, if_neg (by simp [hnone])]

/-- A scanner that has released its tokens is where it was. -/
theorem At.release (h : l.At i rest depth allowed tokens) :
    l.release.At i rest depth allowed tokens where
  cursor := h.cursor
  depth := h.depth
  indents := h.indents
  keyAllowed := h.keyAllowed
  optional := h.optional
  count := by
    simp [Lexer.release, h.count]
    omega
  written := by
    have hwritten := h.written
    simp only [Lexer.release, List.reverse_append, List.reverse_reverse, List.append_assoc,
      List.take_append_drop]
    exact hwritten
  unfinished := h.unfinished

/-- A scanner on the line is not done. -/
theorem At.not_is_done (h : l.At i rest depth allowed tokens) : l.isDone = false := by
  have hmem : ∀ token ∈ l.released.head?, token ∈ tokens := by
    intro token htoken
    rw [← h.written]
    exact List.mem_append_left _ (List.mem_reverse.2 (List.mem_of_head? htoken))
  rw [isDone, decide_eq_false_iff_not]
  exact fun hhead => h.unfinished (hmem _ hhead)

/-- `StartsToken rest` says that a token starts at once: no blank, comment or line break comes
next. -/
def StartsToken (rest : Text) : Prop :=
  ∀ c ∈ rest.head?, c.IsPrintableAscii ∧ c ≠ CodePoint.ofChar ' ' ∧ c ≠ CodePoint.ofChar '#'

/-- Where a token starts there is no comment. -/
theorem StartsToken.skip_comment (h : StartsToken rest) :
    (onLine rest i).skipComment = onLine rest i := by
  have hcomment : (onLine rest i).isAt '#' = false := by
    rw [isAt, peek_on_line, decide_eq_false_iff_not]
    exact fun hhead => (h _ hhead).2.2 rfl
  rw [Cursor.skipComment, hcomment]
  rfl

/-- Where a token starts there is no line break. -/
theorem StartsToken.line_break? (h : StartsToken rest) : (onLine rest i).lineBreak? = none :=
  line_break?_on_line fun c hc => (h c hc).1

/-- Nothing is skipped where a token starts. -/
theorem skip_to_token_of_starts_token (hcursor : l.cursor = onLine rest i) (h : StartsToken rest)
    (fuel : Nat) : l.skipToToken (fuel + 1) = l := by
  have hspan : (onLine rest i).span (fun p => p = CodePoint.ofChar ' ') = ([], onLine rest i) :=
    span_on_line_nil fun c hc => by simp [(h c hc).2.1]
  simp only [skipToToken, hcursor, skipSpaces, skip, hspan, h.skip_comment, h.line_break?]
  rw [← hcursor]

/-- A space before a token is skipped. -/
theorem skip_to_token_space (hcursor : l.cursor = onLine (CodePoint.ofChar ' ' :: rest) i)
    (h : StartsToken rest) (fuel : Nat) :
    l.skipToToken (fuel + 1) = { l with cursor := onLine rest (i + 1) } := by
  have hprintable : Text.IsPrintableAscii [CodePoint.ofChar ' '] :=
    List.forall_mem_singleton.2 (by decide)
  have hspan : (onLine (CodePoint.ofChar ' ' :: rest) i).span (fun p => p = CodePoint.ofChar ' ') =
      ([CodePoint.ofChar ' '], onLine rest (i + 1)) :=
    span_on_line hprintable (by simp) fun c hc => by simp [(h c hc).2.1]
  simp only [skipToToken, hcursor, skipSpaces, skip, hspan, h.skip_comment, h.line_break?]

/-- Without indentation there is nothing to unwind. -/
theorem unwind_of_indents (h : l.indents = []) (column : Int) : l.unwind column = l := by
  obtain ⟨cursor, depth, indents, keyAllowed, candidates, count, released, waiting⟩ := l
  obtain rfl : indents = [] := h
  unfold unwind
  split
  · rfl
  · simp

/-- A step reads a token and settles what is known after it. -/
theorem At.step_eq (h : l.At i rest depth allowed tokens) (hrest : StartsToken rest) :
    l.step = l.fresh.token >>= fun m => m.dropStale.map Lexer.release := by
  have hskip := skip_to_token_of_starts_token h.cursor hrest l.cursor.rest.length
  simp only [step, hskip, h.drop_stale, ok_bind, unwind_of_indents h.fresh.indents]
  rfl

/-- A lexer before a space runs like one after it. -/
theorem At.reaches_space (h : l.At i (CodePoint.ofChar ' ' :: rest) depth allowed tokens)
    (hrest : StartsToken rest) : l.Reaches rest depth allowed tokens := by
  have hat : Lexer.At { l with cursor := onLine rest (i + 1) } (i + 1) rest depth allowed tokens :=
    ⟨rfl, h.depth, h.indents, h.keyAllowed, h.optional, h.count, h.written, h.unfinished⟩
  refine ⟨_, _, fun fuel hfuel => ?_, hat⟩
  obtain ⟨fuel, rfl⟩ : ∃ n, fuel = n + 1 := ⟨fuel - 1, by omega⟩
  refine ⟨fuel + 1, ?_, ?_⟩
  · rw [h.cursor] at hfuel
    simp at hfuel ⊢
    omega
  · have hstep : l.step = Lexer.step { l with cursor := onLine rest (i + 1) } := by
      simp only [step, skip_to_token_space h.cursor hrest,
        skip_to_token_of_starts_token hat.cursor hrest]
    rw [run, run, h.not_is_done, hat.not_is_done, hstep]

/-- A step that uses up code points leads on. -/
theorem At.leads_of_step (h : l.At i rest depth allowed tokens) (hstep : l.step = .ok m)
    (hless : m.cursor.rest.length < rest.length) : l.Leads m := by
  intro fuel hfuel
  obtain ⟨fuel, rfl⟩ : ∃ n, fuel = n + 1 := ⟨fuel - 1, by omega⟩
  rw [h.cursor, rest_on_line] at hfuel
  refine ⟨fuel, by omega, ?_⟩
  rw [run, h.not_is_done, hstep]
  rfl

section

variable {i' depth' : Nat} {rest' : Text} {allowed' : Bool} {tokens' : List Token}

/-- A scanner that reads a token leads to where the token ends. -/
theorem At.leads_of_token (h : l.At i rest depth allowed tokens) (hrest : StartsToken rest)
    (htoken : l.fresh.token = .ok m) (hm : m.At i' rest' depth' allowed' tokens')
    (hless : rest'.length < rest.length) : l.Leads m.fresh.release := by
  refine h.leads_of_step ?_ ?_
  · rw [h.step_eq hrest, htoken, ok_bind, hm.drop_stale]
    rfl
  · have hcursor : m.fresh.release.cursor = onLine rest' i' := hm.fresh.release.cursor
    rw [hcursor]
    exact hless

/-- A token that is read leads on to a state after it. -/
theorem At.reaches_of_token (h : l.At i rest depth allowed tokens) (hrest : StartsToken rest)
    (htoken : l.fresh.token = .ok m) (hm : m.At i' rest' depth' allowed' tokens')
    (hless : rest'.length < rest.length) : l.Reaches rest' depth' allowed' tokens' :=
  ⟨_, _, h.leads_of_token hrest htoken hm hless, hm.fresh.release⟩

end

/-! ## Candidates -/

/-- `l.taking token cursor depth keyAllowed` is the state at the cursor after one more token. -/
def taking (l : Lexer) (token : Token) (cursor : Cursor) (depth : Nat) (keyAllowed : Bool) :
    Lexer :=
  { l.push token with cursor := cursor, depth := depth, keyAllowed := keyAllowed }

/-- A token adds itself and leaves what is before it. -/
theorem At.taking {depth' : Nat} {rest' : Text} {allowed' : Bool}
    (h : l.At i rest depth allowed tokens) (i' : Nat) (htoken : token ≠ .streamEnd) :
    (l.taking token (onLine rest' i') depth' allowed').At i' rest' depth' allowed'
      (tokens ++ [token]) where
  cursor := rfl
  depth := rfl
  indents := h.indents
  keyAllowed := rfl
  optional := h.optional
  count := h.count
  written := by
    rw [← h.written]
    exact (List.append_assoc ..).symm
  unfinished := by simp [h.unfinished, Ne.symm htoken]

/-- Candidates do not matter for where a lexer stands, as long as none is required. -/
theorem At.with_candidates (h : l.At i rest depth allowed tokens)
    {candidates : List (Nat × KeyCandidate)} (hoptional : ∀ e ∈ candidates, e.2.required = false) :
    Lexer.At { l with candidates := candidates } i rest depth allowed tokens :=
  ⟨h.cursor, h.depth, h.indents, h.keyAllowed, hoptional, h.count, h.written, h.unfinished⟩

/-- Candidates that are left are as optional as before. -/
theorem At.optional_filter (h : l.At i rest depth allowed tokens)
    (p : Nat × KeyCandidate → Bool) : ∀ e ∈ l.candidates.filter p, e.2.required = false :=
  fun e he => h.optional e (List.mem_of_mem_filter he)

/-- A scanner that drops a candidate is where it was. -/
theorem At.exists_drop_candidate (h : l.At i rest depth allowed tokens) :
    ∃ m, l.dropCandidate = .ok m ∧ m.At i rest depth allowed tokens :=
  ⟨_, h.drop_candidate, h.with_candidates (h.optional_filter _)⟩

/-- The place where the next token may be a key. -/
def candidate (l : Lexer) : KeyCandidate :=
  ⟨l.count + l.waiting.length, false, l.cursor.index, l.cursor.line, l.cursor.column⟩

/-- `l.saved` is the state in which the next token may be a key. -/
def saved (l : Lexer) : Lexer :=
  { l with
    candidates := (l.depth, l.candidate) :: l.candidates.filter fun (other, _) => other ≠ l.depth }

/-- A scanner that has saved a candidate is where it was. -/
theorem At.saved (h : l.At i rest depth allowed tokens) :
    l.saved.At i rest depth allowed tokens :=
  h.with_candidates (List.forall_mem_cons.2 ⟨rfl, h.optional_filter _⟩)

/-- Where a key may stand a candidate is saved. -/
theorem At.save_candidate (h : l.At i rest depth true tokens) : l.saveCandidate = .ok l.saved := by
  have hcolumn : (-1 : Int) ≠ (l.cursor.column : Int) := by omega
  rw [Lexer.saveCandidate, h.keyAllowed, if_neg (by simp), h.drop_candidate]
  simp only [ok_bind, pure_eq_ok, indent, h.indents, hcolumn, decide_false, Bool.and_false,
    h.keyAllowed, Lexer.saved, Lexer.candidate]

/-- A scanner may save a candidate anywhere. -/
theorem At.exists_save_candidate (h : l.At i rest depth allowed tokens) :
    ∃ m, l.saveCandidate = .ok m ∧ m.At i rest depth allowed tokens := by
  cases allowed with
  | false => exact ⟨l, by rw [Lexer.saveCandidate, h.keyAllowed]; rfl, h⟩
  | true => exact ⟨_, h.save_candidate, h.saved⟩

end Lexer

end UriTemplate.Yaml
