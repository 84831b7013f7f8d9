/-
The two views of a graph's links: the positions that each node leads to, and the edges between mixins.

A graph is given links, one after the other: one for each pair of positions, or one for each call that finds something.
It keeps those that it admits, of several with the same ends the first (`kept`); from this one list both views are taken.

- `filterMap_eraseDupsBy`: the first occurrences among the values of some elements, if the values tell them apart just as
  well;
- `link_links`, `links_foldl`: what one link more leaves in the list, and from it what a run leaves;
- `stored_link`, `stored_of_kept`: the views are what they would be if they were stored apart and each link were entered in
  both;
- `Linked.represents`: what follows for the views; `views_agree` says it of both ways to make a graph.
-/
import Mathlib.Tactic
import MixinPlanner.Proofs.Linking

namespace MixinPlanner

/-! ## First occurrences -/

section Firsts

variable {α β : Type*} (r : α → α → Bool)

theorem eraseDupsBy_loop_snoc (l : List α) (a : α) (kept : List α) : List.eraseDupsBy.loop r (l ++ [a]) kept =
    if (List.eraseDupsBy.loop r l kept).any (r a) then List.eraseDupsBy.loop r l kept
    else List.eraseDupsBy.loop r l kept ++ [a] := by
  induction l generalizing kept with
  | nil =>
    rw [List.nil_append, List.eraseDupsBy.loop]
    cases h : kept.any (r a) with
    | true => simp [List.eraseDupsBy.loop, h]
    | false => simp [List.eraseDupsBy.loop, h]
  | cons b l ih =>
    rw [List.cons_append, List.eraseDupsBy.loop, List.eraseDupsBy.loop]
    cases kept.any (r b) with
    | true => exact ih kept
    | false => exact ih (b :: kept)

/-- one element more is kept unless it repeats one that is kept already -/
theorem eraseDupsBy_snoc (l : List α) (a : α) : (l ++ [a]).eraseDupsBy r =
    if (l.eraseDupsBy r).any (r a) then l.eraseDupsBy r else l.eraseDupsBy r ++ [a] :=
  eraseDupsBy_loop_snoc r l a []

/-- every element is kept, or repeats one that is -/
theorem any_eraseDupsBy (hr : ∀ a, r a a = true) {l : List α} {a : α} (ha : a ∈ l) :
    (l.eraseDupsBy r).any (r a) = true := by
  induction l using List.reverseRecOn with
  | nil => cases ha
  | append_singleton l b ih =>
    rw [eraseDupsBy_snoc]
    rcases List.mem_append.1 ha with ha | ha
    · split_ifs
      · exact ih ha
      · rw [List.any_append, ih ha, Bool.true_or]
    · rw [List.mem_singleton.1 ha]
      split_ifs with hb
      · exact hb
      · rw [List.any_append, List.any_cons, hr, Bool.true_or, Bool.or_true]

theorem mem_of_mem_eraseDupsBy {l : List α} {a : α} (ha : a ∈ l.eraseDupsBy r) : a ∈ l := by
  induction l using List.reverseRecOn with
  | nil => cases ha
  | append_singleton l b ih =>
    rw [eraseDupsBy_snoc] at ha
    split_ifs at ha
    · exact List.mem_append_left _ (ih ha)
    · exact List.mem_append.2 ((List.mem_append.1 ha).imp_left ih)

variable {r}

/-- first occurrences among the values of the elements that have one, if repetitions have values that repeat each other -/
theorem filterMap_eraseDupsBy {r' : β → β → Bool} {f : α → Option β} {l : List α}
    (hdom : ∀ a ∈ l, ∀ b ∈ l, r a b = true → (f a).isSome = (f b).isSome)
    (hf : ∀ a ∈ l, ∀ b ∈ l, ∀ x ∈ f a, ∀ y ∈ f b, r a b = r' x y) :
    (l.eraseDupsBy r).filterMap f = (l.filterMap f).eraseDupsBy r' := by
  induction l using List.reverseRecOn with
  | nil => rfl
  | append_singleton l a ih =>
    have hleft {b : α} (hb : b ∈ l) : b ∈ l ++ [a] := List.mem_append_left _ hb
    have hbefore := ih (fun b hb c hc => hdom b (hleft hb) c (hleft hc)) fun b hb c hc => hf b (hleft hb) c (hleft hc)
    have ha : a ∈ l ++ [a] := by simp
    rw [eraseDupsBy_snoc, List.filterMap_append]
    cases hx : f a with
    | none =>
      have hnone : [a].filterMap f = [] := by simp [hx]
      rw [hnone, List.append_nil, ← hbefore]
      split_ifs
      · rfl
      · rw [List.filterMap_append, hnone, List.append_nil]
    | some x =>
      have hone : [a].filterMap f = [x] := by simp [hx]
      have hany : ((l.filterMap f).eraseDupsBy r').any (r' x) = (l.eraseDupsBy r).any (r a) := by
        rw [← hbefore, Bool.eq_iff_iff, List.any_eq_true, List.any_eq_true]
        constructor
        · rintro ⟨y, hy, hxy⟩
          obtain ⟨b, hb, hby⟩ := List.mem_filterMap.1 hy
          exact ⟨b, hb, (hf a ha b (hleft (mem_of_mem_eraseDupsBy r hb)) x hx y hby).trans hxy⟩
        · intro ⟨b, hb, hab⟩
          have hbl := hleft (mem_of_mem_eraseDupsBy r hb)
          have hvalue : (f b).isSome = true := by rw [← hdom a ha b hbl hab, hx, Option.isSome_some]
          obtain ⟨y, hy⟩ := Option.isSome_iff_exists.1 hvalue
          exact ⟨y, List.mem_filterMap.2 ⟨b, hb, hy⟩, (hf a ha b hbl x hx y hy).symm.trans hab⟩
      rw [hone, eraseDupsBy_snoc, hany, ← hbefore]
      split_ifs
      · rfl
      · rw [List.filterMap_append, hone]

/-- first occurrences among the elements with a property that repetitions share -/
theorem filter_eraseDupsBy {p : α → Bool} (hp : ∀ a b, r a b = true → p a = p b) (l : List α) :
    (l.eraseDupsBy r).filter p = (l.filter p).eraseDupsBy r := by
  rw [← List.filterMap_eq_filter]
  refine filterMap_eraseDupsBy (fun a _ b _ hab => ?_) fun a _ b _ x hx y hy => ?_
  · simp [hp a b hab]
  · rw [(Option.guard_eq_some_iff.1 hx).1, (Option.guard_eq_some_iff.1 hy).1]

/-- first occurrences under a map that tells the elements apart just as well -/
theorem map_eraseDupsBy {r' : β → β → Bool} {f : α → β} {l : List α}
    (hf : ∀ a ∈ l, ∀ b ∈ l, r a b = r' (f a) (f b)) : (l.eraseDupsBy r).map f = (l.map f).eraseDupsBy r' := by
  rw [← List.filterMap_eq_map]
  refine filterMap_eraseDupsBy (fun _ _ _ _ _ => rfl) fun a ha b hb x hx y hy => ?_
  cases hx
  cases hy
  exact hf a ha b hb
end Firsts

/-- as many elements as there are, counted by a number that belongs to each -/
theorem length_eq_sum_filter {α : Type*} {n : ℕ} {f : α → ℕ} {l : List α} (h : ∀ a ∈ l, f a < n) :
    l.length = ∑ i ∈ Finset.range n, (l.filter fun a => f a = i).length := by
  induction l with
  | nil => simp
  | cons a l ih =>
    obtain ⟨ha, hl⟩ := List.forall_mem_cons.1 h
    have hone : ∑ i ∈ Finset.range n, (if f a = i then 1 else 0) = 1 := by simp [ha]
    have hcons : ∀ i, ((a :: l).filter fun a => f a = i).length =
        (l.filter fun a => f a = i).length + if f a = i then 1 else 0 := by
      intro i
      rw [List.filter_cons]
      by_cases hi : f a = i <;> simp [hi]
    simp only [hcons, Finset.sum_add_distrib, hone, List.length_cons, ih hl]

/-! ## What a graph keeps of its links -/

/-- two links join the same positions, wherever they come from -/
def Link.sameEnds (l l' : Link) : Bool := l'.dependent == l.dependent && l'.dependency == l.dependency

theorem Link.sameEnds_iff (l l' : Link) :
    l.sameEnds l' = true ↔ l'.dependent = l.dependent ∧ l'.dependency = l.dependency := by
  simp [sameEnds]

/-- the link that a pair of positions is given for -/
def Link.ofPair (p : ℕ × ℕ) : Link := ⟨p.1, p.2, .explicit⟩

namespace DependencyGraph

instance (g : DependencyGraph) (i j : ℕ) : Decidable (g.Admits i j) :=
  inferInstanceAs (Decidable (i ≠ j ∧ i < g.size ∧ j < g.size))

/-- of some links those that a graph admits, each where its ends first occur -/
def kept (g : DependencyGraph) (given : List Link) : List Link :=
  (given.filter fun l => g.Admits l.dependent l.dependency).eraseDupsBy Link.sameEnds

/-- one link more is kept if it is admitted, unless a link has its ends -/
theorem link_links (g : DependencyGraph) (l : Link) : (g.link l).links =
    if g.Admits l.dependent l.dependency ∧ ¬ g.links.any l.sameEnds = true then g.links ++ [l] else g.links := by
  have hrefused : (l.dependent = l.dependency ∨ g.size ≤ l.dependent ∨ g.size ≤ l.dependency ∨
      g.hasLink l.dependent l.dependency = true) ↔
      ¬ (g.Admits l.dependent l.dependency ∧ ¬ g.links.any l.sameEnds = true) := by
    have hlink : g.hasLink l.dependent l.dependency = g.links.any l.sameEnds := rfl
    rw [hlink, Admits, ← not_lt, ← not_lt]
    tauto
  rw [link, ite_cond_congr (propext hrefused), ite_not]
  split_ifs <;> rfl

theorem kept_snoc (g : DependencyGraph) (given : List Link) (l : Link) : g.kept (given ++ [l]) =
    if g.Admits l.dependent l.dependency ∧ ¬ (g.kept given).any l.sameEnds = true then g.kept given ++ [l]
    else g.kept given := by
  rw [kept, List.filter_append]
  by_cases hl : g.Admits l.dependent l.dependency
  · have hone : [l].filter (fun l => g.Admits l.dependent l.dependency) = [l] := by simp [hl]
    rw [hone, eraseDupsBy_snoc, ← kept]
    simp only [hl, true_and, ite_not]
  · have hnone : [l].filter (fun l => g.Admits l.dependent l.dependency) = [] := by simp [hl]
    rw [hnone, List.append_nil, ← kept, if_neg fun h => hl h.1]

theorem SameNodes.kept {g g' : DependencyGraph} (h : SameNodes g g') (given : List Link) :
    g'.kept given = g.kept given := by
  simp only [DependencyGraph.kept, h.admits]

/-- what a run leaves in the list of links, if each of its steps gives a link or none -/
theorem links_foldl {σ : Type} (enter : DependencyGraph → σ → DependencyGraph) (given : σ → Option Link)
    {g : DependencyGraph} (hg : g.links = []) (hsame : ∀ g' x, SameNodes g' (enter g' x))
    (henter : ∀ g' x, SameNodes g g' → (enter g' x).links = ((given x).elim g' g'.link).links) (xs : List σ) :
    SameNodes g (xs.foldl enter g) ∧ (xs.foldl enter g).links = g.kept (xs.filterMap given) := by
  induction xs using List.reverseRecOn with
  | nil => exact ⟨.refl g, hg⟩
  | append_singleton xs x ih =>
    obtain ⟨hnodes, hlinks⟩ := ih
    rw [List.foldl_append, List.foldl_cons, List.foldl_nil]
    refine ⟨hnodes.trans (hsame _ x), ?_⟩
    rw [henter _ x hnodes, List.filterMap_append]
    cases hx : given x with
    | none =>
      have hnone : [x].filterMap given = [] := by simp [hx]
      rw [hnone, List.append_nil]
      exact hlinks
    | some l =>
      have hone : [x].filterMap given = [l] := by simp [hx]
      rw [hone, kept_snoc, Option.elim_some, link_links, hlinks]
      simp only [hnodes.admits]

theorem links_ofPairs (target : TypeRef) (nodes : List TypeRef) (pairs : List (ℕ × ℕ)) :
    SameNodes { target, nodes } (ofPairs target nodes pairs) ∧
      (ofPairs target nodes pairs).links = kept { target, nodes } (pairs.map Link.ofPair) := by
  have h := links_foldl (fun g p => g.link (.ofPair p)) (fun p => some (Link.ofPair p)) (g := { target, nodes }) rfl
    (fun g p => link_same g _) (fun g p _ => rfl) pairs
  rwa [List.filterMap_eq_map'] at h

/-- the link that a call asks for, if it finds a position -/
def found? (g : DependencyGraph) (catalog : Catalog) (k : Call) : Option Link :=
  match g.lookup catalog k.position k.dependency with
  | .found j origin => some ⟨k.position, j, origin⟩
  | _ => none

theorem call_links (settings : Settings) (catalog : Catalog) {g g' : DependencyGraph} (h : SameNodes g g') (k : Call) :
    (g'.call settings catalog k).links = ((g.found? catalog k).elim g' g'.link).links := by
  rw [call, enter, lookup_same h, found?]
  cases g.lookup catalog k.position k.dependency with
  | found j origin => rfl
  | satisfied => rfl
  | ambiguous candidates => rfl
  | missing =>
    simp only
    split_ifs <;> rfl

theorem links_build (settings : Settings) (catalog : Catalog) (c : Context) :
    (build settings catalog c).links = (bare c).kept (c.calls.filterMap ((bare c).found? catalog)) := by
  rw [build_eq_foldl_calls]
  refine (links_foldl _ _ rfl (fun g k => (call_entered settings catalog g k).same) ?_ c.calls).2
  exact fun g k h => call_links settings catalog h k

/-! ## Edges -/

/-- a link with the mixins at its ends, if there are any -/
def edgeOf? (g : DependencyGraph) (l : Link) : Option Edge := do
  return ⟨← g.nodes[l.dependent]?, ← g.nodes[l.dependency]?, l.origin⟩

theorem edges_eq (g : DependencyGraph) : g.edges = g.links.filterMap g.edgeOf? := rfl

theorem SameNodes.edgeOf? {g g' : DependencyGraph} (h : SameNodes g g') : g'.edgeOf? = g.edgeOf? := by
  funext l
  rw [DependencyGraph.edgeOf?, h.nodes, DependencyGraph.edgeOf?]

theorem edgeOf?_eq_some (g : DependencyGraph) (l : Link) (e : Edge) : g.edgeOf? l = some e ↔
    g.nodes[l.dependent]? = some e.dependent ∧ g.nodes[l.dependency]? = some e.dependency ∧ l.origin = e.origin := by
  obtain ⟨m, n, origin⟩ := e
  simp [edgeOf?, Option.bind_eq_some_iff]

/-- an edge joins two mixins if a link joins positions of theirs -/
theorem hasEdge_iff (g : DependencyGraph) (m n : TypeRef) :
    g.hasEdge m n = true ↔ ∃ i j, g.nodes[i]? = some m ∧ g.nodes[j]? = some n ∧ g.Leads i j := by
  simp only [hasEdge, List.any_eq_true, Bool.and_eq_true, beq_iff_eq, edges_eq, List.mem_filterMap]
  constructor
  · rintro ⟨e, ⟨l, hl, he⟩, rfl, rfl⟩
    obtain ⟨hm, hn, -⟩ := (edgeOf?_eq_some ..).1 he
    exact ⟨_, _, hm, hn, (leads_iff ..).2 ⟨l, hl, rfl, rfl⟩⟩
  · intro ⟨i, j, hm, hn, hij⟩
    obtain ⟨l, hl, rfl, rfl⟩ := (leads_iff ..).1 hij
    exact ⟨⟨m, n, l.origin⟩, ⟨l, hl, (edgeOf?_eq_some ..).2 ⟨hm, hn, rfl⟩⟩, rfl, rfl⟩

/-- every link has mixins at its ends -/
theorem Linked.edges_map_some {g : DependencyGraph} (hg : g.Linked) : g.edges.map some = g.links.map g.edgeOf? := by
  rw [edges_eq]
  refine map_some_filterMap fun l hl => ?_
  obtain ⟨-, hi, hj⟩ := hg.proper l hl
  have hm := List.getElem?_eq_getElem hi
  have hn := List.getElem?_eq_getElem hj
  exact Option.isSome_iff_exists.2 ⟨⟨_, _, l.origin⟩, (edgeOf?_eq_some ..).2 ⟨hm, hn, rfl⟩⟩

/-! ## The views kept apart -/

/-- the two views of a graph, stored one beside the other -/
structure Stored where
  /-- the positions that each node leads to -/
  rows : List (List ℕ)
  edges : List Edge

/-- the views before anything is entered -/
def Stored.bare (nodes : List TypeRef) : Stored := ⟨List.replicate nodes.length [], []⟩

/-- one link more entered in both views, if it joins two different nodes and the row of the first does not have the second -/
def Stored.enter (nodes : List TypeRef) (s : Stored) (l : Link) : Stored :=
  match nodes[l.dependent]?, nodes[l.dependency]?, s.rows[l.dependent]? with
  | some m, some n, some row =>
    if l.dependent = l.dependency ∨ l.dependency ∈ row then s
    else ⟨s.rows.set l.dependent (row ++ [l.dependency]), s.edges ++ [⟨m, n, l.origin⟩]⟩
  | _, _, _ => s

/-- both views of a graph -/
def stored (g : DependencyGraph) : Stored := ⟨(List.range g.size).map g.successors, g.edges⟩

theorem stored_congr {g g' : DependencyGraph} (h : SameNodes g g') (hlinks : g'.links = g.links) : g'.stored = g.stored := by
  have hsuccessors : g'.successors = g.successors := by
    funext i
    rw [successors, hlinks, successors]
  rw [stored, stored, size, h.nodes, hsuccessors, edges_eq, edges_eq, hlinks, h.edgeOf?]
  rfl

theorem stored_bare (target : TypeRef) (nodes : List TypeRef) : stored { target, nodes } = .bare nodes := by
  show Stored.mk ((List.range nodes.length).map fun _ => []) [] = _
  rw [List.map_const', List.length_range, Stored.bare]

theorem rows_getElem? (g : DependencyGraph) (i : ℕ) :
    g.stored.rows[i]? = if i < g.size then some (g.successors i) else none := by
  rw [stored, List.getElem?_map]
  split_ifs with hi
  · rw [List.getElem?_range hi, Option.map_some]
  · rw [List.getElem?_eq_none (by rw [List.length_range]; omega), Option.map_none]

theorem successors_append (g : DependencyGraph) (l : Link) (i : ℕ) :
    ({ g with links := g.links ++ [l] } : DependencyGraph).successors i =
      g.successors i ++ if l.dependent = i then [l.dependency] else [] := by
  rw [successors, List.filter_append, List.map_append, ← successors]
  by_cases hi : l.dependent = i <;> simp [hi]

/-- one link more keeps the views in step -/
theorem stored_link (g : DependencyGraph) (l : Link) : (g.link l).stored = g.stored.enter g.nodes l := by
  rw [link, Stored.enter]
  split_ifs with hrefused
  · -- what linking refuses is out of range, joins a node to itself, or is in the row already
    split
    next m n row hm hn hrow =>
      have hdependent : l.dependent < g.size := (List.getElem?_eq_some_iff.1 hm).1
      have hdependency : l.dependency < g.size := (List.getElem?_eq_some_iff.1 hn).1
      rw [rows_getElem?, if_pos hdependent, Option.some.injEq] at hrow
      refine (if_pos ?_).symm
      rw [or_iff_right hdependent.not_ge, or_iff_right hdependency.not_ge] at hrefused
      exact hrefused.imp_right fun hlink => hrow ▸ (mem_successors ..).2 hlink
    next => rfl
  · simp only [not_or, not_le] at hrefused
    obtain ⟨hother, hdependent, hdependency, hnew⟩ := hrefused
    have hm := List.getElem?_eq_getElem hdependent
    have hn := List.getElem?_eq_getElem hdependency
    rw [hm, hn, rows_getElem?, if_pos hdependent]
    have hrow : ¬ (l.dependent = l.dependency ∨ l.dependency ∈ g.successors l.dependent) :=
      fun h => h.elim hother fun hmem => hnew ((mem_successors ..).1 hmem)
    simp only [hrow, if_false]
    refine congrArg₂ Stored.mk (List.ext_getElem? fun i => ?_) ?_
    · have hlength : l.dependent < g.stored.rows.length := by simpa [stored] using hdependent
      rw [List.getElem?_set, if_pos hlength, rows_getElem?]
      refine (rows_getElem? _ i).trans ?_
      rw [successors_append]
      by_cases hi : l.dependent = i
      · rw [if_pos hi, if_pos hi, hi]
        exact if_pos (hi ▸ hdependent)
      · rw [if_neg hi, if_neg hi, List.append_nil]
        rfl
    · rw [edges_eq, List.filterMap_append]
      have hedge : [l].filterMap g.edgeOf? = [⟨g.nodes[l.dependent], g.nodes[l.dependency], l.origin⟩] := by
        simp [(edgeOf?_eq_some g l ⟨_, _, l.origin⟩).2 ⟨hm, hn, rfl⟩]
      exact congrArg _ hedge

theorem stored_foldl (g : DependencyGraph) (ls : List Link) :
    (ls.foldl link g).stored = ls.foldl (Stored.enter g.nodes) g.stored := by
  induction ls generalizing g with
  | nil => rfl
  | cons l ls ih => rw [List.foldl_cons, List.foldl_cons, ih, stored_link, (link_same g l).nodes]

/-- a graph that keeps what it admits of some links has the views that are stored when these are entered in turn -/
theorem stored_of_kept {g : DependencyGraph} {given : List Link} (h : g.links = g.kept given) :
    g.stored = given.foldl (Stored.enter g.nodes) (.bare g.nodes) := by
  let bare : DependencyGraph := { target := g.target, nodes := g.nodes }
  obtain ⟨hsame, hlinks⟩ :=
    links_foldl link some (g := bare) rfl link_same (fun _ _ _ => rfl) given
  rw [List.filterMap_some] at hlinks
  have hback : SameNodes g bare := ⟨rfl, rfl⟩
  calc g.stored = (given.foldl link bare).stored :=
        (stored_congr (hback.trans hsame) (hlinks.trans ((hback.kept given).trans h.symm))).symm
    _ = given.foldl (Stored.enter g.nodes) bare.stored := stored_foldl bare given
    _ = given.foldl (Stored.enter g.nodes) (.bare g.nodes) := by rw [stored_bare]

/-! ## The views -/

/-- how the views of a graph go back to the links that it was given -/
structure Represents (given : List Link) (g : DependencyGraph) : Prop where
  /-- a node leads to the positions that it is given with, if these are two different nodes -/
  mem : ∀ i j, j ∈ g.successors i ↔
    (∃ l ∈ given, l.dependent = i ∧ l.dependency = j) ∧ i ≠ j ∧ i < g.size ∧ j < g.size
  /-- to each of them once -/
  nodup : ∀ i, (g.successors i).Nodup
  /-- in the order in which they are first given -/
  order : ∀ i, g.successors i =
    ((given.filter fun l => l.dependent = i ∧ g.Admits i l.dependency).map Link.dependency).eraseDups
  /-- what is no node leads nowhere -/
  outside : ∀ i, g.size ≤ i → g.successors i = []
  /-- the edges are the links that are kept, in their order, with the mixins at the positions of their ends -/
  edges : g.edges.map some = (g.kept given).map g.edgeOf?
  /-- and these are the links that a node leads by -/
  rows : ∀ i, g.successors i = ((g.kept given).filter fun l => l.dependent = i).map Link.dependency
  /-- so there are as many edges as there are successors of all nodes together -/
  length : g.edges.length = ∑ i ∈ Finset.range g.size, (g.successors i).length
  /-- and whoever stores the two views apart, and enters each link in both, has these as well -/
  inStep : g.stored = given.foldl (Stored.enter g.nodes) (.bare g.nodes)
  /-- an edge joins two mixins if a position of one leads to a position of the other -/
  hasEdge : ∀ m n, g.hasEdge m n = true ↔
    ∃ i j, g.nodes[i]? = some m ∧ g.nodes[j]? = some n ∧ j ∈ g.successors i

theorem mem_kept_iff (g : DependencyGraph) (given : List Link) (i j : ℕ) :
    (∃ l ∈ g.kept given, l.dependent = i ∧ l.dependency = j) ↔
      (∃ l ∈ given, l.dependent = i ∧ l.dependency = j) ∧ g.Admits i j := by
  constructor
  · rintro ⟨l, hl, rfl, rfl⟩
    obtain ⟨hl, hadmits⟩ := List.mem_filter.1 (mem_of_mem_eraseDupsBy _ hl)
    exact ⟨⟨l, hl, rfl, rfl⟩, of_decide_eq_true hadmits⟩
  · rintro ⟨⟨l, hl, rfl, rfl⟩, hadmits⟩
    have hfilter : l ∈ given.filter fun l => g.Admits l.dependent l.dependency :=
      List.mem_filter.2 ⟨hl, decide_eq_true hadmits⟩
    obtain ⟨l', hl', hends⟩ := List.any_eq_true.1
      (any_eraseDupsBy Link.sameEnds (fun l => (Link.sameEnds_iff l l).2 ⟨rfl, rfl⟩) hfilter)
    exact ⟨l', hl', (Link.sameEnds_iff ..).1 hends⟩

/-- what a node leads to, as it is first given -/
theorem kept_order (g : DependencyGraph) (given : List Link) (i : ℕ) :
    ((g.kept given).filter fun l => l.dependent = i).map Link.dependency =
      ((given.filter fun l => l.dependent = i ∧ g.Admits i l.dependency).map Link.dependency).eraseDups := by
  have hfilter : ((given.filter fun l => g.Admits l.dependent l.dependency).filter fun l => l.dependent = i) =
      given.filter fun l => l.dependent = i ∧ g.Admits i l.dependency := by
    rw [List.filter_filter]
    refine List.filter_congr fun l _ => ?_
    rw [← Bool.decide_and]
    refine decide_eq_decide.2 (and_congr_right ?_)
    rintro rfl
    rfl
  rw [kept, filter_eraseDupsBy ?_, hfilter]
  · refine map_eraseDupsBy fun l hl l' hl' => ?_
    obtain ⟨hi, -⟩ := of_decide_eq_true (List.mem_filter.1 hl).2
    obtain ⟨hi', -⟩ := of_decide_eq_true (List.mem_filter.1 hl').2
    rw [Bool.eq_iff_iff, Link.sameEnds_iff, hi, hi', beq_iff_eq]
    exact ⟨fun h => h.2.symm, fun h => ⟨rfl, h.symm⟩⟩
  · intro l l' h
    rw [((Link.sameEnds_iff ..).1 h).1]

theorem Linked.represents {g : DependencyGraph} {given : List Link} (hg : g.Linked) (h : g.links = g.kept given) :
    Represents given g := by
  have hrows : ∀ i, g.successors i = ((g.kept given).filter fun l => l.dependent = i).map Link.dependency := by
    intro i
    rw [← h]
    exact congrArg (List.map _) (List.filter_congr fun l _ => rfl)
  have hedges := hg.edges_map_some
  refine ⟨fun i j => ?_, hg.successors_nodup, fun i => (hrows i).trans (kept_order g given i), fun i hi => ?_,
    h ▸ hedges, hrows, ?_, stored_of_kept h, fun m n => ?_⟩
  · rw [mem_successors, leads_iff, h, mem_kept_iff]
    rfl
  · refine List.eq_nil_iff_forall_not_mem.2 fun j hj => ?_
    exact absurd (hg.leads ((mem_successors ..).1 hj)).2.1 (not_lt.2 hi)
  · have hlength : g.edges.length = g.links.length := by simpa using congrArg List.length hedges
    rw [hlength, length_eq_sum_filter fun l hl => (hg.proper l hl).2.1]
    simp only [hrows, ← h, List.length_map]
  · simp only [mem_successors]
    exact hasEdge_iff g m n

/-- **The views of a graph agree.** However a graph was made, what its nodes lead to and its edges are the links that it was
given and admits, each once and where it is first given. For a graph of pairs these are the distinct pairs of two different
nodes; for that of a context, what its calls find. -/
theorem views_agree (target : TypeRef) (nodes : List TypeRef) (pairs : List (ℕ × ℕ)) :
    ((ofPairs target nodes pairs).nodes = nodes ∧ Represents (pairs.map Link.ofPair) (ofPairs target nodes pairs) ∧
      (ofPairs target nodes pairs).edges.map some =
        (pairs.filter fun p => p.1 ≠ p.2 ∧ p.1 < nodes.length ∧ p.2 < nodes.length).eraseDups.map fun p => do
          return ⟨← nodes[p.1]?, ← nodes[p.2]?, .explicit⟩) ∧
    ∀ settings catalog context, Represents (context.calls.filterMap ((bare context).found? catalog))
      (build settings catalog context) := by
  refine ⟨?_, fun settings catalog context => ?_⟩
  · obtain ⟨hsame, hlinks⟩ := links_ofPairs target nodes pairs
    have hpairs := (linked_ofPairs target nodes pairs).represents (hlinks.trans (hsame.kept _).symm)
    refine ⟨hsame.nodes, hpairs, ?_⟩
    have hkept : kept { target, nodes } (pairs.map Link.ofPair) = (pairs.filter fun p =>
        p.1 ≠ p.2 ∧ p.1 < nodes.length ∧ p.2 < nodes.length).eraseDups.map Link.ofPair := by
      rw [kept, List.filter_map]
      refine (map_eraseDupsBy fun p _ q _ => ?_).symm
      rw [Bool.eq_iff_iff, Link.sameEnds_iff, beq_iff_eq, Prod.ext_iff]
      exact ⟨fun h => ⟨h.1.symm, h.2.symm⟩, fun h => ⟨h.1.symm, h.2.symm⟩⟩
    rw [hpairs.edges, hsame.kept, hkept, List.map_map]
    refine List.map_congr_left fun p _ => ?_
    rw [Function.comp_apply, edgeOf?, hsame.nodes]
    rfl
  · have hsame := (build_entered settings catalog context).same
    exact (linked_build settings catalog context).represents
      ((links_build settings catalog context).trans (hsame.kept _).symm)

/-- nodes of one name are told apart by their positions: two edges, and neither the pair of one node nor the one that comes
a second time adds to them -/
example : (ofPairs ⟨"T", []⟩ [⟨"A", []⟩, ⟨"A", []⟩] [(1, 0), (0, 0), (0, 1), (1, 0), (0, 2)]).edges =
    [⟨⟨"A", []⟩, ⟨"A", []⟩, .explicit⟩, ⟨⟨"A", []⟩, ⟨"A", []⟩, .explicit⟩] := by decide

end DependencyGraph

end MixinPlanner
