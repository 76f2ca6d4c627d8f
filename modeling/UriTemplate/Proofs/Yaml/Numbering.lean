import UriTemplate.Proofs.Yaml.Laws
import UriTemplate.Yaml.Node.Graph

/-!
# The numbers of nodes

The graph of a document shows the tree that the document is written as (`Document.shown_of_node`):
`Node.ShownAt` says that a node of a graph is written as a tree, where a reference is the number of
its name. All numbers are below the size of the document (`Document.numbered_of_node`). In a tree
without references the nodes inside a node have smaller numbers (`Document.acyclic_of_node`).
-/

namespace UriTemplate.Yaml

/-- What holds of the cells that a graph is made of holds of all its nodes. -/
theorem Graph.forall_of_cells {cells : List Cell} {p : Nat → Cell → Prop}
    (hdefault : ∀ n, p n (.scalar .null [])) (h : ∀ n (hn : n < cells.length), p n cells[n]) :
    ∀ n, p n (Graph.ofCells cells n) := by
  intro n
  by_cases hn : n < cells.length
  · have hcell : Graph.ofCells cells n = cells[n] := by simp [Graph.ofCells, hn]
    rw [hcell]
    exact h n hn
  · have hcell : Graph.ofCells cells n = .scalar .null [] := by simp [Graph.ofCells, hn]
    rw [hcell]
    exact hdefault n

/-- If nodes have greater numbers than those inside them, no node is inside itself. -/
theorem Graph.acyclic_of_lt {g : Graph} (h : ∀ n, ∀ i ∈ (g n).members, i < n) : g.Acyclic := by
  have hlt : ∀ n i, Relation.TransGen g.Inside n i → i < n := by
    intro n i hbelow
    induction hbelow with
    | single hinside => exact h n _ hinside
    | tail _ hinside ih => exact Nat.lt_trans (h _ _ hinside) ih
  exact fun n hn => Nat.lt_irrefl n (hlt n n hn)

namespace Node

/-! ## Trees that a graph shows -/

mutual

/-- `n.ShownAt g table i` says that the node `i` of the graph is written as `n`, where `table` gives
the numbers of names. -/
def ShownAt (g : Graph) (table : List (Text × Nat)) : Node → Nat → Prop
  | scalar _ tag content, i => g i = .scalar tag content
  | sequence _ tag items, i => ∃ is, g i = .sequence tag is ∧ ItemsShownAt g table items is
  | mapping _ tag entries, i => ∃ es, g i = .mapping tag es ∧ EntriesShownAt g table entries es
  | reference name, i => i = (table.lookup name).getD 0

/-- `ItemsShownAt g table items is` says that the nodes `is` are written as the items. -/
def ItemsShownAt (g : Graph) (table : List (Text × Nat)) : List Node → List Nat → Prop
  | [], is => is = []
  | item :: rest, is =>
      ∃ i more, is = i :: more ∧ ShownAt g table item i ∧ ItemsShownAt g table rest more

/-- `EntriesShownAt g table entries es` says that the keys and values `es` are written as the
entries. -/
def EntriesShownAt (g : Graph) (table : List (Text × Nat)) :
    List (Node × Node) → List (Nat × Nat) → Prop
  | [], es => es = []
  | (key, value) :: rest, es =>
      ∃ k v more, es = (k, v) :: more ∧ ShownAt g table key k ∧ ShownAt g table value v ∧
        EntriesShownAt g table rest more

end

variable {table : List (Text × Nat)} {all : List Cell}

mutual

/-- A node has as many cells as it has nodes. -/
theorem length_cells (n : Node) (start : Nat) : (n.cells table start).length = n.count := by
  cases n with
  | scalar | reference => rfl
  | sequence _ _ items => simp [cells, count, length_cells_of_items items start]
  | mapping _ _ entries => simp [cells, count, length_cells_of_entries entries start]
termination_by structural n

/-- Items have as many cells as they have nodes. -/
theorem length_cells_of_items (items : List Node) (start : Nat) :
    (cellsOfItems table start items).length = countItems items := by
  cases items with
  | nil => rfl
  | cons item rest =>
      rw [cellsOfItems, countItems, List.length_append, length_cells item start,
        length_cells_of_items rest]
termination_by structural items

/-- Entries have as many cells as they have nodes. -/
theorem length_cells_of_entries (entries : List (Node × Node)) (start : Nat) :
    (cellsOfEntries table start entries).length = countEntries entries := by
  cases entries with
  | nil => rfl
  | cons entry rest =>
      rw [cellsOfEntries, countEntries, List.length_append, List.length_append,
        length_cells entry.1 start, length_cells entry.2, length_cells_of_entries rest]
termination_by structural entries

end

/-- `StandAt all start cells` says that the cells stand among all cells from the place `start` on.
-/
def StandAt (all : List Cell) (start : Nat) (cells : List Cell) : Prop :=
  ∃ before after, all = before ++ cells ++ after ∧ before.length = start

/-- Cells that are put together stand one after the other. -/
theorem StandAt.append {start : Nat} {cells more : List Cell}
    (h : StandAt all start (cells ++ more)) :
    StandAt all start cells ∧ StandAt all (start + cells.length) more := by
  obtain ⟨before, after, rfl, rfl⟩ := h
  refine ⟨⟨before, more ++ after, by simp, rfl⟩, before ++ cells, after, by simp, by simp⟩

/-- The graph has the cells at their places. -/
theorem StandAt.of_cells {start : Nat} {c : Cell} (h : StandAt all start [c]) :
    Graph.ofCells all start = c := by
  obtain ⟨before, after, rfl, rfl⟩ := h
  simp [Graph.ofCells]

mutual

/-- The graph shows a node at its number. -/
theorem shown_at_number (n : Node) (start : Nat) (h : StandAt all start (n.cells table start)) :
    n.ShownAt (Graph.ofCells all) table (n.number table start) := by
  cases n with
  | scalar => exact h.of_cells
  | reference => rfl
  | sequence _ _ items =>
      obtain ⟨hitems, hcell⟩ := h.append
      rw [length_cells_of_items] at hcell
      exact ⟨_, hcell.of_cells, items_shown_at_numbers items start hitems⟩
  | mapping _ _ entries =>
      obtain ⟨hentries, hcell⟩ := h.append
      rw [length_cells_of_entries] at hcell
      exact ⟨_, hcell.of_cells, entries_shown_at_numbers entries start hentries⟩
termination_by structural n

/-- The graph shows items at their numbers. -/
theorem items_shown_at_numbers (items : List Node) (start : Nat)
    (h : StandAt all start (cellsOfItems table start items)) :
    ItemsShownAt (Graph.ofCells all) table items (numbers table start items) := by
  cases items with
  | nil => rfl
  | cons item rest =>
      obtain ⟨hitem, hrest⟩ := h.append
      rw [length_cells] at hrest
      exact ⟨_, _, rfl, shown_at_number item start hitem, items_shown_at_numbers rest _ hrest⟩
termination_by structural items

/-- The graph shows entries at their numbers. -/
theorem entries_shown_at_numbers (entries : List (Node × Node)) (start : Nat)
    (h : StandAt all start (cellsOfEntries table start entries)) :
    EntriesShownAt (Graph.ofCells all) table entries (numberedEntries table start entries) := by
  cases entries with
  | nil => rfl
  | cons entry rest =>
      obtain ⟨hentry, hrest⟩ := h.append
      obtain ⟨hkey, hvalue⟩ := hentry.append
      rw [List.length_append, length_cells, length_cells, ← Nat.add_assoc] at hrest
      rw [length_cells] at hvalue
      exact ⟨_, _, _, rfl, shown_at_number entry.1 start hkey, shown_at_number entry.2 _ hvalue,
        entries_shown_at_numbers rest _ hrest⟩
termination_by structural entries

end

/-! ## Bounds -/

mutual

/-- A node is made of no more nodes than it has places. -/
theorem count_le_places (n : Node) : n.count ≤ n.places := by
  cases n with
  | scalar => exact Nat.le_refl 1
  | reference => exact Nat.zero_le 1
  | sequence _ _ items => exact Nat.succ_le_succ (count_items_le_places_of_items items)
  | mapping _ _ entries => exact Nat.succ_le_succ (count_entries_le_places_of_entries entries)
termination_by structural n

/-- Items are made of no more nodes than they have places. -/
theorem count_items_le_places_of_items (items : List Node) :
    countItems items ≤ placesOfItems items := by
  cases items with
  | nil => exact Nat.le_refl 0
  | cons item rest =>
    exact Nat.add_le_add (count_le_places item) (count_items_le_places_of_items rest)
termination_by structural items

/-- Entries are made of no more nodes than they have places. -/
theorem count_entries_le_places_of_entries (entries : List (Node × Node)) :
    countEntries entries ≤ placesOfEntries entries := by
  cases entries with
  | nil => exact Nat.le_refl 0
  | cons entry rest =>
      exact Nat.add_le_add (Nat.add_le_add (count_le_places entry.1) (count_le_places entry.2))
        (count_entries_le_places_of_entries rest)
termination_by structural entries

end

mutual

/-- Names have numbers of nodes. -/
theorem lt_of_mem_names (n : Node) (start : Nat) :
    ∀ p ∈ n.names start, p.2 < start + n.count := by
  intro p hp
  cases n with
  | scalar name? =>
      cases name? with
      | none => simp [names, named] at hp
      | some name =>
          obtain rfl : p = (name, start) := by simpa [names, named] using hp
          exact Nat.lt_succ_self start
  | reference => simp [names] at hp
  | sequence name? _ items =>
      rcases List.mem_append.1 hp with hp | hp
      · cases name? with
        | none => simp [named] at hp
        | some name =>
            obtain rfl : p = (name, start + countItems items) := by simpa [named] using hp
            exact Nat.lt_succ_self _
      · exact Nat.lt_succ_of_lt (lt_of_mem_names_of_items items start p hp)
  | mapping name? _ entries =>
      rcases List.mem_append.1 hp with hp | hp
      · cases name? with
        | none => simp [named] at hp
        | some name =>
            obtain rfl : p = (name, start + countEntries entries) := by simpa [named] using hp
            exact Nat.lt_succ_self _
      · exact Nat.lt_succ_of_lt (lt_of_mem_names_of_entries entries start p hp)
termination_by structural n

/-- Names in items have numbers of nodes. -/
theorem lt_of_mem_names_of_items (items : List Node) (start : Nat) :
    ∀ p ∈ namesOfItems start items, p.2 < start + countItems items := by
  intro p hp
  cases items with
  | nil => simp [namesOfItems] at hp
  | cons item rest =>
      rw [countItems]
      rcases List.mem_append.1 hp with hp | hp
      · have := lt_of_mem_names item start p hp
        omega
      · have := lt_of_mem_names_of_items rest _ p hp
        omega
termination_by structural items

/-- Names in entries have numbers of nodes. -/
theorem lt_of_mem_names_of_entries (entries : List (Node × Node)) (start : Nat) :
    ∀ p ∈ namesOfEntries start entries, p.2 < start + countEntries entries := by
  intro p hp
  cases entries with
  | nil => simp [namesOfEntries] at hp
  | cons entry rest =>
      rw [countEntries]
      rcases List.mem_append.1 hp with hp | hp
      · rcases List.mem_append.1 hp with hp | hp
        · have := lt_of_mem_names entry.1 start p hp
          omega
        · have := lt_of_mem_names entry.2 _ p hp
          omega
      · have := lt_of_mem_names_of_entries rest _ p hp
        omega
termination_by structural entries

end

/-- A name that is looked up has a number below a bound of all numbers. -/
theorem getd_lookup_lt {bound : Nat} (hbound : 0 < bound) (h : ∀ p ∈ table, p.2 < bound)
    (name : Text) : (table.lookup name).getD 0 < bound := by
  cases hlookup : table.lookup name with
  | none => exact hbound
  | some i =>
      obtain ⟨before, after, rfl, _⟩ := List.lookup_eq_some_iff.1 hlookup
      exact h (name, i) (by simp)

variable {bound : Nat}

/-- The number of a node is below a bound of its nodes and of the numbers of names. -/
theorem number_lt (htable : ∀ name, (table.lookup name).getD 0 < bound) (n : Node) {start : Nat}
    (h : start + n.count ≤ bound) : n.number table start < bound := by
  cases n with
  | scalar => exact Nat.lt_of_lt_of_le (Nat.lt_succ_self start) h
  | reference name => exact htable name
  | sequence | mapping => exact Nat.lt_of_lt_of_le (Nat.lt_succ_self _) h

/-- The numbers of items are below a bound on the names and the places. -/
theorem numbers_lt (htable : ∀ name, (table.lookup name).getD 0 < bound) (items : List Node)
    {start : Nat} (h : start + countItems items ≤ bound) :
    ∀ i ∈ numbers table start items, i < bound := by
  induction items generalizing start with
  | nil => simp [numbers]
  | cons item rest ih =>
      rw [countItems] at h
      exact List.forall_mem_cons.2 ⟨number_lt htable item (by omega), ih (by omega)⟩

/-- The numbers of entries are below such a bound. -/
theorem numbered_entries_lt (htable : ∀ name, (table.lookup name).getD 0 < bound)
    (entries : List (Node × Node)) {start : Nat} (h : start + countEntries entries ≤ bound) :
    ∀ e ∈ numberedEntries table start entries, e.1 < bound ∧ e.2 < bound := by
  induction entries generalizing start with
  | nil => simp [numberedEntries]
  | cons entry rest ih =>
      rw [countEntries] at h
      exact List.forall_mem_cons.2 ⟨⟨number_lt htable entry.1 (by omega),
        number_lt htable entry.2 (by omega)⟩, ih (by omega)⟩

mutual

/-- The nodes inside the cells of a node have numbers below a bound. -/
theorem members_lt (htable : ∀ name, (table.lookup name).getD 0 < bound) (n : Node) (start : Nat)
    (h : start + n.count ≤ bound) : ∀ c ∈ n.cells table start, ∀ i ∈ c.members, i < bound := by
  intro c hc i hi
  cases n with
  | scalar =>
      obtain rfl := List.mem_singleton.1 hc
      exact absurd hi (by simp [Cell.members])
  | reference => exact absurd hc (by simp [cells])
  | sequence _ _ items =>
      have hcount : start + countItems items ≤ bound := Nat.le_of_succ_le h
      rcases List.mem_append.1 hc with hc | hc
      · exact members_lt_of_items htable items start hcount c hc i hi
      · obtain rfl := List.mem_singleton.1 hc
        exact numbers_lt htable items hcount i hi
  | mapping _ _ entries =>
      have hcount : start + countEntries entries ≤ bound := Nat.le_of_succ_le h
      rcases List.mem_append.1 hc with hc | hc
      · exact members_lt_of_entries htable entries start hcount c hc i hi
      · obtain rfl := List.mem_singleton.1 hc
        obtain ⟨e, he, hmem⟩ := List.mem_flatMap.1 hi
        obtain ⟨hkey, hvalue⟩ := numbered_entries_lt htable entries hcount e he
        rcases List.mem_pair.1 hmem with rfl | rfl
        · exact hkey
        · exact hvalue
termination_by structural n

/-- The members of items are below such a bound. -/
theorem members_lt_of_items (htable : ∀ name, (table.lookup name).getD 0 < bound)
    (items : List Node) (start : Nat) (h : start + countItems items ≤ bound) :
    ∀ c ∈ cellsOfItems table start items, ∀ i ∈ c.members, i < bound := by
  intro c hc
  cases items with
  | nil => exact absurd hc (by simp [cellsOfItems])
  | cons item rest =>
      rw [countItems] at h
      rcases List.mem_append.1 hc with hc | hc
      · exact members_lt htable item start (by omega) c hc
      · exact members_lt_of_items htable rest _ (by omega) c hc
termination_by structural items

/-- The members of entries are below such a bound. -/
theorem members_lt_of_entries (htable : ∀ name, (table.lookup name).getD 0 < bound)
    (entries : List (Node × Node)) (start : Nat) (h : start + countEntries entries ≤ bound) :
    ∀ c ∈ cellsOfEntries table start entries, ∀ i ∈ c.members, i < bound := by
  intro c hc
  cases entries with
  | nil => exact absurd hc (by simp [cellsOfEntries])
  | cons entry rest =>
      rw [countEntries] at h
      rcases List.mem_append.1 hc with hc | hc
      · rcases List.mem_append.1 hc with hc | hc
        · exact members_lt htable entry.1 start (by omega) c hc
        · exact members_lt htable entry.2 _ (by omega) c hc
      · exact members_lt_of_entries htable rest _ (by omega) c hc
termination_by structural entries

end

/-- Something stands wherever a node stands. -/
theorem places_pos (n : Node) : 0 < n.places := by
  cases n <;> exact Nat.succ_pos _

/-! ## Trees without references -/

mutual

/-- `n.IsTree` says that there are no references in `n`. -/
def IsTree : Node → Prop
  | scalar .. => True
  | sequence _ _ items => AreTrees items
  | mapping _ _ entries => AreEntriesOfTrees entries
  | reference _ => False

/-- `AreTrees items` says that there are no references in the items. -/
def AreTrees : List Node → Prop
  | [] => True
  | item :: rest => IsTree item ∧ AreTrees rest

/-- `AreEntriesOfTrees entries` says that there are no references in the entries. -/
def AreEntriesOfTrees : List (Node × Node) → Prop
  | [] => True
  | (key, value) :: rest => IsTree key ∧ IsTree value ∧ AreEntriesOfTrees rest

end

/-- A tree has the last of its numbers. -/
theorem IsTree.number_lt {n : Node} (h : n.IsTree) (table : List (Text × Nat)) (start : Nat) :
    n.number table start < start + n.count := by
  cases n with
  | reference => exact absurd h id
  | scalar => exact Nat.lt_succ_self start
  | sequence | mapping => exact Nat.lt_succ_self _

/-- The numbers of items are below those that come after them. -/
theorem numbers_lt_of_are_trees {items : List Node} (h : AreTrees items) (start : Nat) :
    ∀ i ∈ numbers table start items, i < start + countItems items := by
  induction items generalizing start with
  | nil => simp [numbers]
  | cons item rest ih =>
      have hitem := h.1.number_lt table start
      rw [countItems]
      refine List.forall_mem_cons.2 ⟨by omega, fun i hi => ?_⟩
      have := ih h.2 (start + item.count) i hi
      omega

/-- The numbers of keys and values are below those that come after them. -/
theorem numbered_entries_lt_of_are_trees {entries : List (Node × Node)}
    (h : AreEntriesOfTrees entries) (start : Nat) :
    ∀ e ∈ numberedEntries table start entries,
      e.1 < start + countEntries entries ∧ e.2 < start + countEntries entries := by
  induction entries generalizing start with
  | nil => simp [numberedEntries]
  | cons entry rest ih =>
      obtain ⟨hkey, hvalue, hrest⟩ := h
      have hkey := hkey.number_lt table start
      have hvalue := hvalue.number_lt table (start + entry.1.count)
      rw [countEntries]
      refine List.forall_mem_cons.2 ⟨⟨by omega, by omega⟩, fun e he => ?_⟩
      have := ih hrest (start + entry.1.count + entry.2.count) e he
      omega

/-- `Descends start cells` says that the nodes inside each of the cells have smaller numbers than
it, where `start` is the number of the first. -/
def Descends (start : Nat) (cells : List Cell) : Prop :=
  ∀ k c, cells[k]? = some c → ∀ i ∈ c.members, i < start + k

/-- Cells that are put together descend if both parts do. -/
theorem Descends.append {start : Nat} {cells more : List Cell} (h : Descends start cells)
    (hmore : Descends (start + cells.length) more) : Descends start (cells ++ more) := by
  intro k c hc i hi
  by_cases hk : k < cells.length
  · rw [List.getElem?_append_left hk] at hc
    exact h k c hc i hi
  · rw [List.getElem?_append_right (Nat.le_of_not_lt hk)] at hc
    have := hmore _ c hc i hi
    omega

/-- A cell descends if the nodes inside it have smaller numbers. -/
theorem descends_singleton {start : Nat} {c : Cell} (h : ∀ i ∈ c.members, i < start) :
    Descends start [c] := by
  intro k c' hc i hi
  obtain ⟨rfl, rfl⟩ : k = 0 ∧ c = c' := by
    cases k with
    | zero => exact ⟨rfl, by simpa using hc⟩
    | succ k => exact absurd hc (by simp)
  exact h i hi

mutual

/-- The cells of a tree descend. -/
theorem descends_of_is_tree (n : Node) (h : n.IsTree) (start : Nat) :
    Descends start (n.cells table start) := by
  cases n with
  | reference => exact absurd h id
  | scalar => exact descends_singleton (by simp [Cell.members])
  | sequence _ _ items =>
      refine (descends_of_are_trees items h start).append (descends_singleton ?_)
      rw [length_cells_of_items]
      exact numbers_lt_of_are_trees h start
  | mapping _ _ entries =>
      refine (descends_of_are_entries_of_trees entries h start).append (descends_singleton ?_)
      rw [length_cells_of_entries]
      intro i hi
      obtain ⟨e, he, hmem⟩ := List.mem_flatMap.1 hi
      have hlt := numbered_entries_lt_of_are_trees h start e he
      rcases List.mem_pair.1 hmem with rfl | rfl
      · exact hlt.1
      · exact hlt.2
termination_by structural n

/-- The cells of items descend if the items are trees. -/
theorem descends_of_are_trees (items : List Node) (h : AreTrees items) (start : Nat) :
    Descends start (cellsOfItems table start items) := by
  cases items with
  | nil => exact fun k c hc => absurd hc (by simp [cellsOfItems])
  | cons item rest =>
      refine (descends_of_is_tree item h.1 start).append ?_
      rw [length_cells]
      exact descends_of_are_trees rest h.2 _
termination_by structural items

/-- The cells of entries descend if these are made of trees. -/
theorem descends_of_are_entries_of_trees (entries : List (Node × Node))
    (h : AreEntriesOfTrees entries) (start : Nat) :
    Descends start (cellsOfEntries table start entries) := by
  cases entries with
  | nil => exact fun k c hc => absurd hc (by simp [cellsOfEntries])
  | cons entry rest =>
      obtain ⟨hkey, hvalue, hrest⟩ := h
      have hentry : Descends start
          (entry.1.cells table start ++ entry.2.cells table (start + entry.1.count)) := by
        refine (descends_of_is_tree entry.1 hkey start).append ?_
        rw [length_cells]
        exact descends_of_is_tree entry.2 hvalue _
      refine hentry.append ?_
      rw [List.length_append, length_cells, length_cells, ← Nat.add_assoc]
      exact descends_of_are_entries_of_trees rest hrest _
termination_by structural entries

end

end Node

namespace Document

variable (n : Node)

/-- The root of a document is written as its tree. -/
theorem shown_of_node : n.ShownAt (ofNode n).graph (n.names 0) (ofNode n).root :=
  n.shown_at_number 0 ⟨[], [], by simp, rfl⟩

/-- The nodes of a document have numbers below its size. -/
theorem numbered_of_node : (ofNode n).Numbered := by
  have hcount : 0 + n.count ≤ n.places := by simpa using n.count_le_places
  have htable : ∀ name, ((n.names 0).lookup name).getD 0 < n.places :=
    Node.getd_lookup_lt n.places_pos fun p hp =>
      Nat.lt_of_lt_of_le (n.lt_of_mem_names 0 p hp) hcount
  refine ⟨Node.number_lt htable n hcount, fun i _ j hj => ?_⟩
  -- A number without a node stands for a scalar.
  by_cases hi : i < (n.cells (n.names 0) 0).length
  · have hcell : (ofNode n).graph i = (n.cells (n.names 0) 0)[i] := by
      simp [ofNode, Graph.ofCells, hi]
    rw [hcell] at hj
    exact Node.members_lt htable n 0 hcount _ (List.getElem_mem hi) j hj
  · have hcell : (ofNode n).graph i = .scalar .null [] := by
      simp [ofNode, Graph.ofCells, Nat.le_of_not_lt hi]
    rw [hcell] at hj
    exact absurd hj (by simp [Cell.members])

/-- A document that is written as a tree without references has no recursion. -/
theorem acyclic_of_node {n : Node} (h : n.IsTree) : (ofNode n).graph.Acyclic := by
  refine Graph.acyclic_of_lt (Graph.forall_of_cells (p := fun i c => ∀ j ∈ c.members, j < i)
    (by simp [Cell.members]) fun i hi j hj => ?_)
  have hlt := n.descends_of_is_tree h 0 i _ (List.getElem?_eq_getElem hi) j hj
  omega

end Document

end UriTemplate.Yaml
