import Mathlib.Logic.ExistsUnique
import Sentential.Diagram

namespace Sentential

open Diagram

namespace Statement

def child? : Side → Statement → Option Statement
  | .only, not s => some s
  | .left, binary _ l _ => some l
  | .right, binary _ _ r => some r
  | _, _ => none

/-- The statement at a place. A place is told by the way down to it, so equal statements at
different places are told apart. -/
def at? : List Side → Statement → Option Statement
  | [], s => some s
  | side :: path, s => (s.child? side).bind (at? path)

/-- How far behind a node the one below it comes. -/
def offset : Side → Statement → Nat
  | .right, binary _ l _ => 1 + l.size
  | _, _ => 1

def number : Statement → List Side → Nat
  | _, [] => 0
  | s, side :: path =>
    match s.child? side with
    | some c => s.offset side + c.number path
    | none => 0

/-- A statement right below another, and the label that says where. -/
inductive Child : Statement → String → Statement → Prop
  | only (s : Statement) : Child (.not s) "" s
  | left (op : Connective) (l r : Statement) : Child (.binary op l r) "L" l
  | right (op : Connective) (l r : Statement) : Child (.binary op l r) "R" r

variable {s t c c' : Statement} {side side' : Side} {path path' : List Side} {i j : Nat}

theorem offset_pos (side : Side) (s : Statement) : 0 < s.offset side := by
  unfold offset
  split <;> omega

theorem child_of_child? (h : s.child? side = some c) : s.Child side.label c := by
  cases s with
  | falsum | verum | var v => cases side <;> cases h
  | not s =>
    cases side <;> cases h
    exact .only c
  | binary op l r =>
    cases side <;> cases h
    · exact .left op c r
    · exact .right op l c

theorem Child.exists_side {label : String} (h : s.Child label c) :
    ∃ side : Side, side.label = label ∧ s.child? side = some c := by
  cases h with
  | only s => exact ⟨.only, rfl, rfl⟩
  | left op l r => exact ⟨.left, rfl, rfl⟩
  | right op l r => exact ⟨.right, rfl, rfl⟩

theorem at?_cons : t.at? (side :: path) = some s ↔ ∃ c, t.child? side = some c ∧
    c.at? path = some s :=
  Option.bind_eq_some_iff

theorem at?_concat : t.at? (path ++ [side]) = some c ↔ ∃ s, t.at? path = some s ∧
    s.child? side = some c := by
  induction path generalizing t with
  | nil => simp [at?]
  | cons side' path ih =>
    simp only [List.cons_append, at?_cons, ih]
    constructor
    · rintro ⟨c', hc', s, hs, hc⟩
      exact ⟨s, ⟨c', hc', hs⟩, hc⟩
    · rintro ⟨s, ⟨c', hc', hs⟩, hc⟩
      exact ⟨c', hc', s, hs, hc⟩

theorem number_cons (h : t.child? side = some c) (path : List Side) :
    t.number (side :: path) = t.offset side + c.number path := by
  rw [number, h]

theorem number_concat (h : t.at? path = some s) (hc : s.child? side = some c) :
    t.number (path ++ [side]) = t.number path + s.offset side := by
  induction path generalizing t with
  | nil =>
    cases h
    rw [List.nil_append, number_cons hc, number, number, Nat.add_comm]
  | cons side' path ih =>
    obtain ⟨c', hc', h⟩ := at?_cons.1 h
    rw [List.cons_append, number_cons hc', number_cons hc', ih h, Nat.add_assoc]

theorem preorder_of_child? (h : s.child? side = some c) :
    ∃ before after, s.preorder = before ++ c.preorder ++ after ∧ before.length = s.offset side := by
  cases s with
  | falsum | verum | var v => cases side <;> cases h
  | not s =>
    cases side <;> cases h
    exact ⟨[.not c], [], (List.append_nil _).symm, rfl⟩
  | binary op l r =>
    cases side <;> cases h
    · exact ⟨[.binary op c r], r.preorder, rfl, rfl⟩
    · refine ⟨.binary op l c :: l.preorder, [], (List.append_nil _).symm, ?_⟩
      rw [List.length_cons, length_preorder, offset, Nat.add_comm]

/-- The nodes from a place down stand together, behind as many nodes as its number says. -/
theorem preorder_of_at? (h : t.at? path = some s) :
    ∃ before after, t.preorder = before ++ s.preorder ++ after ∧ before.length = t.number path := by
  induction path generalizing t with
  | nil =>
    cases h
    exact ⟨[], [], (List.append_nil _).symm, rfl⟩
  | cons side path ih =>
    obtain ⟨c, hc, h⟩ := at?_cons.1 h
    obtain ⟨before, after, ht, hb⟩ := preorder_of_child? hc
    obtain ⟨before', after', hc', hb'⟩ := ih h
    refine ⟨before ++ before', after' ++ after, ?_, ?_⟩
    · simp only [ht, hc', List.append_assoc]
    · rw [List.length_append, hb, hb', number_cons hc]

theorem preorder_eq_cons (s : Statement) : ∃ below, s.preorder = s :: below := by
  cases s <;> exact ⟨_, rfl⟩

theorem getElem?_number (h : t.at? path = some s) : t.preorder[t.number path]? = some s := by
  obtain ⟨before, after, ht, hb⟩ := preorder_of_at? h
  obtain ⟨below, hs⟩ := s.preorder_eq_cons
  rw [ht, ← hb, List.append_assoc, List.getElem?_append_right (Nat.le_refl _), Nat.sub_self, hs]
  rfl

theorem exists_at?_of_getElem? (h : t.preorder[i]? = some s) :
    ∃ path, t.at? path = some s ∧ t.number path = i := by
  induction t generalizing i with
  | falsum | verum | var v =>
    cases i <;> cases h
    exact ⟨[], rfl, rfl⟩
  | not t ih =>
    cases i with
    | zero => exact ⟨[], h, rfl⟩
    | succ i =>
      obtain ⟨path, hp, rfl⟩ := ih h
      exact ⟨.only :: path, hp, Nat.add_comm ..⟩
  | binary op l r ihl ihr =>
    cases i with
    | zero => exact ⟨[], h, rfl⟩
    | succ i =>
      rw [preorder, List.getElem?_cons_succ] at h
      by_cases hi : i < l.preorder.length
      · rw [List.getElem?_append_left hi] at h
        obtain ⟨path, hp, rfl⟩ := ihl h
        exact ⟨.left :: path, hp, Nat.add_comm ..⟩
      · have hl : l.preorder.length ≤ i := Nat.le_of_not_lt hi
        rw [List.getElem?_append_right hl] at h
        obtain ⟨path, hp, hn⟩ := ihr h
        refine ⟨.right :: path, hp, ?_⟩
        rw [length_preorder] at hl hn
        simp only [number, child?, offset, hn]
        omega

theorem number_lt (h : t.at? path = some s) : t.number path < t.size := by
  rw [← length_preorder]
  exact (List.getElem?_eq_some_iff.1 (getElem?_number h)).1

/-- The numbers below one node and those below its neighbour do not meet. -/
theorem side_eq_of_offset_add_eq (h : s.child? side = some c) (h' : s.child? side' = some c')
    (hi : i < c.size) (hj : j < c'.size) (he : s.offset side + i = s.offset side' + j) :
    side = side' := by
  cases s with
  | falsum | verum | var v => cases side <;> cases h
  | not s =>
    cases side <;> cases h
    cases side' <;> cases h'
    rfl
  | binary op l r =>
    cases side <;> cases h <;> cases side' <;> cases h'
    · rfl
    · simp only [offset] at he
      omega
    · simp only [offset] at he
      omega
    · rfl

theorem path_eq_of_number_eq {s' : Statement} (h : t.at? path = some s)
    (h' : t.at? path' = some s') (he : t.number path = t.number path') : path = path' := by
  induction path generalizing t path' with
  | nil =>
    cases path' with
    | nil => rfl
    | cons side' path' =>
      obtain ⟨c', hc', -⟩ := at?_cons.1 h'
      have hp := t.offset_pos side'
      rw [number, number_cons hc'] at he
      omega
  | cons side path ih =>
    obtain ⟨c, hc, h⟩ := at?_cons.1 h
    cases path' with
    | nil =>
      have hp := t.offset_pos side
      rw [number_cons hc, number] at he
      omega
    | cons side' path' =>
      obtain ⟨c', hc', h'⟩ := at?_cons.1 h'
      rw [number_cons hc, number_cons hc'] at he
      obtain rfl := side_eq_of_offset_add_eq hc hc' (number_lt h) (number_lt h') he
      rw [hc] at hc'
      cases hc'
      rw [ih h h' (Nat.add_left_cancel he)]

end Statement

open Statement

namespace Diagram

variable {d : Diagram} {e : Edge} {s c : Statement} {side : Side} {i : Nat}

theorem mem_edgesFrom : e ∈ edgesFrom s i ↔
    e.source = i ∧ (∃ c, s.child? e.side = some c) ∧ e.target = i + s.offset e.side := by
  obtain ⟨source, side, target⟩ := e
  cases s <;> cases side <;> simp [edgesFrom, child?, offset, Nat.add_assoc]

theorem mem_edges : e ∈ d.edges ↔ ∃ s c, d.nodes[e.source]? = some s ∧
    s.child? e.side = some c ∧ e.target = e.source + s.offset e.side := by
  simp only [edges, List.mem_flatMap, mem_edgesFrom]
  constructor
  · rintro ⟨⟨s, i⟩, hs, rfl, ⟨c, hc⟩, ht⟩
    exact ⟨s, c, List.mk_mem_zipIdx_iff_getElem?.1 hs, hc, ht⟩
  · rintro ⟨s, c, hs, hc, ht⟩
    exact ⟨(s, e.source), List.mk_mem_zipIdx_iff_getElem?.2 hs, rfl, ⟨c, hc⟩, ht⟩

/-- The targets of the edges below a node are the numbers behind its own, each of them once. -/
theorem perm_targets (s : Statement) (i : Nat) :
    (((s.preorder.zipIdx i).flatMap fun (s, i) ↦ edgesFrom s i).map Edge.target).Perm
      (List.range' (i + 1) (s.size - 1)) := by
  induction s generalizing i with
  | falsum | verum | var v => exact .nil
  | not s ih =>
    have hs := (ih (i + 1)).cons (i + 1)
    rw [← List.range'_succ, Nat.sub_add_cancel s.size_pos] at hs
    rw [Statement.size, Nat.add_sub_cancel_left]
    exact hs
  | binary op l r ihl ihr =>
    have hl := (ihl (i + 1)).cons (i + 1)
    have hr := (ihr (i + 1 + l.size)).cons (i + 1 + l.size)
    rw [← List.range'_succ, Nat.sub_add_cancel (size_pos _)] at hl hr
    have h := hl.append hr
    rw [List.range'_append_1] at h
    have hs : (binary op l r).size - 1 = l.size + r.size := by
      rw [Statement.size]
      omega
    rw [hs]
    refine .trans ?_ h
    simp only [preorder, List.zipIdx_cons, List.zipIdx_append, length_preorder, List.flatMap_cons,
      List.flatMap_append, List.map_append, edgesFrom, List.map_cons, List.cons_append,
      List.nil_append]
    exact List.perm_middle.symm.cons (i + 1)

theorem count_target (d : Diagram) (j : Nat) :
    (d.edges.map Edge.target).count j = if 0 < j ∧ j < d.nodes.length then 1 else 0 := by
  have hp : (d.edges.map Edge.target).Perm (List.range' (0 + 1) (d.root.size - 1)) :=
    perm_targets d.root 0
  have hl : d.nodes.length = d.root.size := length_preorder d.root
  have hs := d.root.size_pos
  have hn : (List.range' (0 + 1) (d.root.size - 1)).Nodup := List.nodup_range' 1
  have hj : j ∈ List.range' (0 + 1) (d.root.size - 1) ↔ 0 < j ∧ j < d.nodes.length := by
    rw [List.mem_range'_1, hl]
    omega
  simp only [hp.count_eq j, hn.count, hj]

/-- Each place in a statement has a node of its own, and the edges lead from each place to those
right below it. -/
structure Numbers (d : Diagram) (number : List Side → Nat) : Prop where
  node : ∀ path s, d.root.at? path = some s → d.nodes[number path]? = some s
  place : ∀ i, i < d.nodes.length → ∃! path, (∃ s, d.root.at? path = some s) ∧ number path = i
  edge : ∀ e, e ∈ d.edges ↔ ∃ path s, d.root.at? (path ++ [e.side]) = some s ∧
    e.source = number path ∧ e.target = number (path ++ [e.side])

theorem numbers_number (d : Diagram) : d.Numbers d.root.number where
  node path s h := getElem?_number h
  place i hi := by
    obtain ⟨path, hp, hn⟩ := exists_at?_of_getElem? (List.getElem?_eq_getElem hi)
    refine ⟨path, ⟨⟨_, hp⟩, hn⟩, ?_⟩
    rintro path' ⟨⟨s, hs⟩, hn'⟩
    exact path_eq_of_number_eq hs hp (hn'.trans hn.symm)
  edge e := by
    rw [mem_edges]
    constructor
    · rintro ⟨s, c, hs, hc, ht⟩
      obtain ⟨path, hp, hn⟩ := exists_at?_of_getElem? hs
      refine ⟨path, c, at?_concat.2 ⟨s, hp, hc⟩, hn.symm, ?_⟩
      rw [ht, number_concat hp hc, hn]
    · rintro ⟨path, c, hp, hs, ht⟩
      obtain ⟨s, hp, hc⟩ := at?_concat.1 hp
      refine ⟨s, c, ?_, hc, ?_⟩
      · rw [hs]
        exact getElem?_number hp
      · rw [ht, hs, number_concat hp hc]

theorem target_of_mem_edges (he : e ∈ d.edges) :
    e.source < e.target ∧ e.target < d.nodes.length ∧
      ∃ s c, d.nodes[e.source]? = some s ∧ s.child? e.side = some c ∧
        d.nodes[e.target]? = some c := by
  obtain ⟨path, c, hc, hs, ht⟩ := (d.numbers_number.edge e).1 he
  obtain ⟨s, hp, hsc⟩ := at?_concat.1 hc
  have hc' := getElem?_number hc
  rw [← ht] at hc'
  refine ⟨?_, (List.getElem?_eq_some_iff.1 hc').1, s, c, ?_, hsc, hc'⟩
  · have ho := s.offset_pos e.side
    rw [ht, hs, number_concat hp hsc]
    omega
  · rw [hs]
    exact getElem?_number hp

/-- A diagram shows each node of its statement once, with the nodes below it right behind it, and
joins it to those that stand below it in the statement. -/
theorem edges_join (d : Diagram) :
    d.nodes[0]? = some d.root ∧ d.nodes.length = d.root.size ∧
    (∀ i s, d.nodes[i]? = some s → (d.nodes.drop i).take s.size = s.preorder) ∧
    (∀ e ∈ d.edges, e.source < e.target ∧ e.target < d.nodes.length ∧
      ∃ s c, d.nodes[e.source]? = some s ∧ s.child? e.side = some c ∧
        d.nodes[e.target]? = some c) ∧
    (∀ i s side c, d.nodes[i]? = some s → s.child? side = some c →
      ∃ e ∈ d.edges, e.source = i ∧ e.side = side) ∧
    (∀ i label j, (i, label, j) ∈ d.edges.map (fun e ↦ (e.source, e.side.label, e.target)) →
      i < j ∧ j < d.nodes.length ∧
      ∃ s c, d.nodes[i]? = some s ∧ s.Child label c ∧ d.nodes[j]? = some c) ∧
    (∀ i s label c, d.nodes[i]? = some s → s.Child label c →
      ∃ j, (i, label, j) ∈ d.edges.map (fun e ↦ (e.source, e.side.label, e.target)) ∧
        d.nodes[j]? = some c) ∧
    (∀ j, (d.edges.map Edge.target).count j = if 0 < j ∧ j < d.nodes.length then 1 else 0) ∧
    ∃ number, d.Numbers number := by
  refine ⟨?_, length_preorder d.root, ?_, fun e he ↦ target_of_mem_edges he, ?_, ?_, ?_,
    d.count_target, _, d.numbers_number⟩
  · have hr : d.root.at? [] = some d.root := rfl
    exact getElem?_number hr
  · intro i s hs
    obtain ⟨path, hp, rfl⟩ := exists_at?_of_getElem? hs
    obtain ⟨before, after, ht, hb⟩ := preorder_of_at? hp
    rw [nodes, ht, List.append_assoc, ← hb, List.drop_left, ← length_preorder, List.take_left]
  · intro i s side c hs hc
    exact ⟨⟨i, side, i + s.offset side⟩, mem_edges.2 ⟨s, c, hs, hc, rfl⟩, rfl, rfl⟩
  · intro i label j h
    obtain ⟨e, he, heq⟩ := List.mem_map.1 h
    cases heq
    obtain ⟨hlt, hj, s, c, hs, hc, hc'⟩ := target_of_mem_edges he
    exact ⟨hlt, hj, s, c, hs, child_of_child? hc, hc'⟩
  · intro i s label c hs h
    obtain ⟨side, rfl, hc⟩ := h.exists_side
    have he : ⟨i, side, i + s.offset side⟩ ∈ d.edges := mem_edges.2 ⟨s, c, hs, hc, rfl⟩
    obtain ⟨-, -, s', c', hs', hc', ht⟩ := target_of_mem_edges he
    cases hs.symm.trans hs'
    cases hc.symm.trans hc'
    exact ⟨_, List.mem_map.2 ⟨_, he, rfl⟩, ht⟩

/-- Equal operands are different nodes. -/
example : edges ⟨.binary .iff (.var ⟨26⟩) (.var ⟨26⟩)⟩ = [⟨0, .left, 1⟩, ⟨0, .right, 2⟩] := rfl

end Diagram

end Sentential
