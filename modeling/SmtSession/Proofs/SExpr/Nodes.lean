import SmtSession.Proofs.SExpr.Extent
import SmtSession.Proofs.Token.Tiling

/-!
# Where the nodes of a tree are located

Every node of a tree that is read from a text is located at its own source: the
piece of the text that its span delimits is read as the expression of this node
(`nodes_located`).

## Strategy

A node is read from some of the items of the text, which stand side by side
(`Tree.From.exists_of_mem_nodes`).  Since items are in order, its span goes from
the start of the first of them to the end of the last (`Tree.From.exists_ends`),
the span of a list being joined from those of its parentheses.  These items are
what is read from that piece alone (`map_token_slice`).
-/

namespace SmtSession

/-! ## Items in order -/

/-- The spans of the items are not empty, and they come one after the other. -/
structure Item.InOrder (items : List Item) : Prop where
  forward : ∀ item ∈ items, item.span.Forward
  pairwise : items.Pairwise fun a b => ¬ b.span.start < a.span.stop

namespace Item.InOrder

variable {items front back : List Item}

theorem sublist (h : InOrder items) (hsublist : front.Sublist items) : InOrder front :=
  ⟨fun item hitem => h.forward item (hsublist.subset hitem), h.pairwise.sublist hsublist⟩

theorem left (h : InOrder (front ++ back)) : InOrder front :=
  h.sublist (List.sublist_append_left front back)

theorem right (h : InOrder (front ++ back)) : InOrder back :=
  h.sublist (List.sublist_append_right front back)

end Item.InOrder

theorem inOrder_itemsOfText (text : String) : Item.InOrder (itemsOfText text) := by
  obtain ⟨piece, after, -, -, htiles⟩ := exists_tiles text
  exact ⟨fun item => htiles.forward, htiles.pairwise⟩

theorem Span.Forward.start_lt_stop {span : Span} (h : span.Forward) : span.start < span.stop :=
  Position.lt_of_not_lt_of_lt h.not_last_lt_start h.last_lt_stop

/-- Joined with a later span, a span starts where it did. -/
theorem Span.start_union {a b : Span} (ha : a.Forward) (h : ¬ b.start < a.stop) :
    (a.union b).start = a.start := by
  have hstart : ¬ b.start < a.start := fun hlt => h (Position.lt_trans hlt ha.start_lt_stop)
  have hearlier : a.start.earlier b.start = a.start := if_neg hstart
  unfold union
  split <;> exact hearlier

/-! ## The items of a node -/

namespace Tree

mutual

/-- The nodes of a tree, the tree itself first. -/
def nodes : Tree → List Tree
  | .leaf value span => [.leaf value span]
  | .list items span => .list items span :: nodesEach items
termination_by structural tree => tree

/-- The nodes of some trees. -/
def nodesEach : List Tree → List Tree
  | [] => []
  | item :: items => item.nodes ++ nodesEach items
termination_by structural items => items

end

mutual

/-- Every node is read from some of the items, which stand side by side. -/
theorem From.exists_of_mem_nodes {tree node : Tree} {items : List Item} (h : tree.From items)
    (hnode : node ∈ tree.nodes) :
    ∃ front segment back, items = front ++ (segment ++ back) ∧ node.From segment := by
  match h with
  | .leaf value span =>
      obtain rfl : node = .leaf value span := by simpa [nodes] using hnode
      exact ⟨[], _, [], rfl, .leaf value span⟩
  | @From.list trees inner opened closed hinner =>
      rcases List.mem_cons.mp hnode with rfl | hnode
      · exact ⟨[], _, [], (List.append_nil _).symm, .list opened closed hinner⟩
      · obtain ⟨front, segment, back, rfl, hfrom⟩ := hinner.exists_of_mem_nodes hnode
        exact ⟨.ok ⟨.opening, opened⟩ :: front, segment, back ++ [.ok ⟨.closing, closed⟩],
          by simp, hfrom⟩

theorem FromEach.exists_of_mem_nodes {trees : List Tree} {node : Tree} {items : List Item}
    (h : FromEach trees items) (hnode : node ∈ nodesEach trees) :
    ∃ front segment back, items = front ++ (segment ++ back) ∧ node.From segment := by
  match h with
  | .nil => simp [nodesEach] at hnode
  | @FromEach.cons tree trees first others hfirst hothers =>
      rcases List.mem_append.mp hnode with hnode | hnode
      · obtain ⟨front, segment, back, rfl, hfrom⟩ := hfirst.exists_of_mem_nodes hnode
        exact ⟨front, segment, back ++ others, by simp, hfrom⟩
      · obtain ⟨front, segment, back, rfl, hfrom⟩ := hothers.exists_of_mem_nodes hnode
        exact ⟨first ++ front, segment, back, by simp, hfrom⟩

end

/-- A list goes from its opening to its closing parenthesis. -/
theorem ends_union {opened closed : Span} {inner : List Item}
    (horder : Item.InOrder (.ok ⟨.opening, opened⟩ :: (inner ++ [.ok ⟨.closing, closed⟩]))) :
    (opened.union closed).start = opened.start ∧ (opened.union closed).stop = closed.stop := by
  have hopened : opened.Forward := horder.forward (.ok ⟨.opening, opened⟩) (by simp)
  have hclosed : closed.Forward := horder.forward (.ok ⟨.closing, closed⟩) (by simp)
  have hlater : ¬ closed.start < opened.stop :=
    (List.pairwise_cons.mp horder.pairwise).1 (.ok ⟨.closing, closed⟩) (by simp)
  exact ⟨Span.start_union hopened hlater,
    Span.stop_union ⟨hopened.last_lt_stop, hlater⟩ hclosed⟩

/-- A tree goes from the start of its first item to the end of its last one. -/
theorem From.exists_ends {tree : Tree} {items : List Item} (h : tree.From items)
    (horder : Item.InOrder items) :
    ∃ first last, items.head? = some first ∧ items.getLast? = some last ∧
      tree.span.start = first.span.start ∧ tree.span.stop = last.span.stop := by
  cases h with
  | leaf value span => exact ⟨_, _, rfl, rfl, rfl, rfl⟩
  | @list trees inner opened closed hinner =>
      have hlast : (Except.ok ⟨.opening, opened⟩ :: (inner ++ [.ok ⟨.closing, closed⟩])).getLast? =
          some (.ok ⟨.closing, closed⟩ : Item) := by
        rw [← List.cons_append, List.getLast?_append]
        rfl
      exact ⟨_, _, rfl, hlast, ends_union horder⟩

/-- The trees of a list start and end with items between its parentheses. -/
theorem FromEach.exists_ends {trees : List Tree} {tree : Tree} {items : List Item}
    (h : FromEach trees items) (horder : Item.InOrder items) (htree : tree ∈ trees) :
    ∃ first ∈ items, ∃ last ∈ items,
      tree.span.start = first.span.start ∧ tree.span.stop = last.span.stop := by
  induction trees generalizing items with
  | nil => simp at htree
  | cons other trees ih =>
      cases h with
      | @cons _ _ front others hfirst hothers =>
          rcases List.mem_cons.mp htree with rfl | htree
          · obtain ⟨first, last, hhead, hlast, hends⟩ := hfirst.exists_ends horder.left
            exact ⟨first, List.mem_append_left _ (List.mem_of_head? hhead), last,
              List.mem_append_left _ (List.mem_of_getLast? hlast), hends⟩
          · obtain ⟨first, hhead, last, hlast, hends⟩ := ih hothers horder.right htree
            exact ⟨first, List.mem_append_right _ hhead, last, List.mem_append_right _ hlast, hends⟩

/-- Trees that are read one after the other come one after the other. -/
theorem FromEach.pairwise {trees : List Tree} {items : List Item} (h : FromEach trees items)
    (horder : Item.InOrder items) : trees.Pairwise fun a b => ¬ b.span.start < a.span.stop := by
  induction trees generalizing items with
  | nil => exact .nil
  | cons tree trees ih =>
      cases h with
      | @cons _ _ front others hfirst hothers =>
          refine .cons (fun other hother => ?_) (ih hothers horder.right)
          obtain ⟨-, last, -, hlast, -, hstop⟩ := hfirst.exists_ends horder.left
          obtain ⟨first, hfirst, -, -, hstart, -⟩ := hothers.exists_ends horder.right hother
          rw [hstop, hstart]
          exact (List.pairwise_append.mp horder.pairwise).2.2 last (List.mem_of_getLast? hlast)
            first hfirst

/-- The trees of a list stand between its parentheses. -/
theorem From.encloses {trees : List Tree} {span : Span} {items : List Item}
    (h : (Tree.list trees span).From items) (horder : Item.InOrder items) :
    (∀ tree ∈ trees, span.start < tree.span.start ∧ tree.span.stop < span.stop) ∧
      trees.Pairwise fun a b => ¬ b.span.start < a.span.stop := by
  cases h with
  | @list _ inner opened closed hinner =>
      have hopening : Item.InOrder
          ([.ok ⟨.opening, opened⟩] ++ (inner ++ [.ok ⟨.closing, closed⟩])) := horder
      have hinside : Item.InOrder inner := hopening.right.left
      refine ⟨fun tree htree => ?_, hinner.pairwise hinside⟩
      obtain ⟨first, hfirst, last, hlast, hstart, hstop⟩ := hinner.exists_ends hinside htree
      obtain ⟨hopen, hclose⟩ := ends_union horder
      rw [hopen, hclose, hstart, hstop]
      have hopened : opened.Forward := horder.forward (.ok ⟨.opening, opened⟩) (by simp)
      have hclosed : closed.Forward := horder.forward (.ok ⟨.closing, closed⟩) (by simp)
      have hafter : ¬ first.span.start < opened.stop :=
        List.rel_of_pairwise_cons horder.pairwise (List.mem_append_left _ hfirst)
      have hbefore : ¬ closed.start < last.span.stop :=
        (List.pairwise_append.mp (List.pairwise_cons.mp horder.pairwise).2).2.2 last hlast
          (.ok ⟨.closing, closed⟩) (by simp)
      exact ⟨Position.lt_of_lt_of_not_lt hopened.start_lt_stop hafter,
        Position.lt_of_not_lt_of_lt hbefore hclosed.start_lt_stop⟩

end Tree

/-! ## Nodes and their sources -/

/-- An accepted text is read as the tree of its items. -/
theorem from_of_parseText {text : String} {tree : Tree} (h : parseText text = .ok tree) :
    tree.From (itemsOfText text) := by
  obtain ⟨found, -, hfrom⟩ := exists_from tree.sexpr (itemsOfText text)
    (SExpr.readFrom_iff_items.mp ⟨tree, h, rfl⟩)
  have hread := hfrom.parseWithin_append [] []
  rw [List.append_nil, parseText_eq_ok_iff.mp h] at hread
  obtain rfl : tree = found := by simpa [Progress.settle, Progress.resume] using hread
  exact hfrom

/-- **Every node is located at its own source.**  The piece of the text that its span delimits is
read as the expression of the node.  The span of a list strictly contains those of its items, which
come one after the other. -/
theorem nodes_located {text : String} {tree : Tree} (hparse : parseText text = .ok tree) :
    ∀ node ∈ tree.nodes,
      node.sexpr.ReadFrom (node.span.slice text) ∧
      ∀ items, node.items? = some items →
        (∀ item ∈ items, node.span.start < item.span.start ∧ item.span.stop < node.span.stop) ∧
        items.Pairwise fun a b => ¬ b.span.start < a.span.stop := by
  intro node hnode
  obtain ⟨front, segment, back, hitems, hfrom⟩ :=
    (from_of_parseText hparse).exists_of_mem_nodes hnode
  have horder : Item.InOrder segment := (hitems ▸ inOrder_itemsOfText text).right.left
  obtain ⟨first, last, hfirst, hlast, hstart, hstop⟩ := hfrom.exists_ends horder
  refine ⟨?_, fun items hlist => ?_⟩
  · rw [SExpr.readFrom_iff_items, map_token_slice hitems hfirst hlast hstart hstop]
    exact hfrom.map_token
  · cases node with
    | leaf value span => simp [Tree.items?] at hlist
    | list trees span =>
        obtain rfl : trees = items := Option.some.inj hlist
        exact hfrom.encloses horder

/-- A list in a list, with a comment that holds a parenthesis. -/
theorem nodes_located_commented :
    ∃ tree inner, parseText "(a ;)\n (b |c|))" = .ok tree ∧ inner ∈ tree.nodes ∧
      inner.span.slice "(a ;)\n (b |c|))" = "(b |c|)" ∧ inner.sexpr.ReadFrom "(b |c|)" := by
  have hinner : (parseText "(a ;)\n (b |c|))").toOption.any fun tree : Tree =>
      tree.nodes[2]?.any fun inner : Tree =>
        inner.span.slice "(a ;)\n (b |c|))" = "(b |c|)" := by
    decide +kernel
  cases hparse : parseText "(a ;)\n (b |c|))" with
  | error error => simp [hparse, Except.toOption] at hinner
  | ok tree =>
      simp only [hparse, Except.toOption, Option.any_some, Option.any_eq_true_iff_get,
        decide_eq_true_iff] at hinner
      obtain ⟨hsome, hslice⟩ := hinner
      have hnode := List.mem_of_getElem? (Option.some_get hsome).symm
      exact ⟨tree, _, rfl, hnode, hslice, hslice ▸ (nodes_located hparse _ hnode).1⟩

end SmtSession
