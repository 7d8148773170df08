import Sentential.Diagram
import Sentential.Proofs.Lines

namespace Sentential

open Text

/-- What stands at the root of a statement. -/
inductive Head
  | falsum
  | verum
  | var (v : Variable)
  | not
  | binary (op : Connective)
  deriving DecidableEq, Repr

namespace Head

def label : Head → String
  | falsum => "False"
  | verum => "True"
  | var v => "Var " ++ String.singleton v.name
  | not => "Not"
  | binary op => op.name ++ " " ++ String.singleton op.symbol

/-- The head with a label. The labels of letters and connectives tell it by their last character.
Labels that are shorter belong to edges. -/
def ofLabel? (label : String) : Option Head :=
  if label.length ≤ 1 then none
  else if label = "False" then some falsum
  else if label = "True" then some verum
  else if label = "Not" then some not
  else
    match label.toList.getLast?.bind Sign.ofChar? with
    | some (.letter v) => some (var v)
    | some (.operator op) => some (binary op)
    | _ => none

/-- Puts a statement with this head in front of others, of which it takes its operands. -/
def attach : Head → List Statement → Option (List Statement)
  | falsum, behind => some (.falsum :: behind)
  | verum, behind => some (.verum :: behind)
  | var v, behind => some (.var v :: behind)
  | not, s :: behind => some (.not s :: behind)
  | binary op, l :: r :: behind => some (.binary op l r :: behind)
  | _, _ => none

/-- The statements that have these heads in preorder. -/
def assemble (heads : List Head) : Option (List Statement) :=
  heads.foldr (fun h behind ↦ behind.bind h.attach) (some [])

theorem ofLabel?_label (h : Head) : ofLabel? h.label = some h := by
  cases h with
  | falsum | verum | not => rfl
  | var v =>
    have hv : Sign.ofChar? v.name = some (.letter v) := Sign.ofChar?_symbol (.letter v)
    simp [ofLabel?, label, ← String.toList_inj, hv]
  | binary op => cases op <;> decide

theorem isOrdinary_label (h : Head) : ∀ c ∈ h.label.toList, isOrdinary c = true := by
  cases h with
  | falsum | verum | not => exact List.all_eq_true.1 rfl
  | var v =>
    have hv : ∀ c ∈ "Var ".toList, isOrdinary c = true := List.all_eq_true.1 rfl
    rw [label, String.toList_append, String.toList_singleton]
    exact List.forall_mem_append.2 ⟨hv, List.forall_mem_singleton.2 (isOrdinary_name v)⟩
  | binary op => cases op <;> exact List.all_eq_true.1 rfl

theorem assemble_cons (h : Head) (heads : List Head) :
    assemble (h :: heads) = (assemble heads).bind h.attach := rfl

end Head

namespace Statement

def head : Statement → Head
  | falsum => .falsum
  | verum => .verum
  | var v => .var v
  | not _ => .not
  | binary op _ _ => .binary op

theorem label_eq (s : Statement) : Diagram.label s = s.head.label := by
  cases s <;> simp [Diagram.label, Head.label, head]

/-- A statement is found again from the heads of its nodes, whatever comes behind them. -/
theorem assemble_preorder (s : Statement) (heads : List Head) :
    Head.assemble (s.preorder.map head ++ heads) = (Head.assemble heads).map (s :: ·) := by
  induction s generalizing heads with
  | falsum | verum | var v =>
    change (Head.assemble heads).bind (Head.attach _) = _
    cases Head.assemble heads <;> rfl
  | not s ih =>
    rw [preorder, List.map_cons, List.cons_append, Head.assemble_cons, ih]
    cases Head.assemble heads <;> rfl
  | binary op l r ihl ihr =>
    rw [preorder, List.map_cons, List.cons_append, Head.assemble_cons, List.map_append,
      List.append_assoc, ihl, ihr]
    cases Head.assemble heads <;> rfl

end Statement

namespace Diagram

def ofLabels? (labels : List String) : Option Statement :=
  (Head.assemble (labels.filterMap Head.ofLabel?)).bind List.head?

theorem ofLabels?_labels (d : Diagram) : ofLabels? (d.nodes.map label) = some d.root := by
  have hl : label = fun s ↦ s.head.label := funext Statement.label_eq
  have hh : (d.nodes.map label).filterMap Head.ofLabel? = d.nodes.map Statement.head := by
    rw [hl, List.filterMap_map, ← List.filterMap_eq_map]
    congr 1
    exact funext fun s ↦ s.head.ofLabel?_label
  have ha := d.root.assemble_preorder []
  rw [List.append_nil] at ha
  rw [ofLabels?, hh, nodes, ha]
  rfl

/-- The stretches of a text between quotes, after the beginning of one or after none. -/
def quotesAfter : Option String → List Char → List String
  | none, c :: text => quotesAfter (if c = '"' then some "" else none) text
  | some part, c :: text =>
    if c = '"' then part :: quotesAfter none text else quotesAfter (some (part.push c)) text
  | _, [] => []

def quotes (text : String) : List String := quotesAfter none text.toList

/-- Reads the text of a diagram. -/
def read? (text : String) : Option Statement := ofLabels? (quotes text)

theorem quotesAfter_none {text : List Char} (h : '"' ∉ text) (rest : List Char) :
    quotesAfter none (text ++ rest) = quotesAfter none rest := by
  induction text with
  | nil => rfl
  | cons c text ih =>
    have hc : c ≠ '"' := Ne.symm (List.ne_of_not_mem_cons h)
    rw [List.cons_append, quotesAfter, if_neg hc, ih (List.not_mem_of_not_mem_cons h)]

theorem quotesAfter_some {text : List Char} (h : '"' ∉ text) (part : String) (rest : List Char) :
    quotesAfter (some part) (text ++ '"' :: rest) =
      (part ++ String.ofList text) :: quotesAfter none rest := by
  induction text generalizing part with
  | nil => simp [quotesAfter]
  | cons c text ih =>
    have hc : c ≠ '"' := Ne.symm (List.ne_of_not_mem_cons h)
    have hp : part.push c ++ String.ofList text = part ++ String.ofList (c :: text) := by
      simp [← String.toList_inj]
    rw [List.cons_append, quotesAfter, if_neg hc, ih (List.not_mem_of_not_mem_cons h), hp]

theorem isPlain_symbol (x : Sign) : isPlain x.symbol = true := by
  cases x with
  | operator op => cases op <;> rfl
  | letter v =>
    obtain ⟨i⟩ := v
    revert i
    decide
  | _ => rfl

theorem isPlain_of_isOrdinary {c : Char} (h : isOrdinary c = true) : isPlain c = true := by
  simp only [isOrdinary, Bool.or_eq_true, decide_eq_true_eq] at h
  rcases h with rfl | h
  · rfl
  · obtain ⟨x, hx⟩ := Option.isSome_iff_exists.1 h
    rw [← Sign.symbol_of_ofChar? hx]
    exact isPlain_symbol x

theorem isPlain_label (s : Statement) : (Diagram.label s).toList.all isPlain = true := by
  rw [s.label_eq, List.all_eq_true]
  exact fun c hc ↦ isPlain_of_isOrdinary (s.head.isOrdinary_label c hc)

theorem isPlain_side (side : Side) : side.label.toList.all isPlain = true := by
  cases side <;> rfl

theorem ofLabel?_side (side : Side) : Head.ofLabel? side.label = none := by
  cases side <;> decide

theorem quote_notMem_of_isPlain {text : List Char} (h : text.all isPlain = true) : '"' ∉ text := by
  intro hm
  cases List.all_eq_true.1 h _ hm

theorem quote_notMem_nodeId (i : Nat) : '"' ∉ (nodeId i).toList := by
  intro h
  rw [nodeId, String.toList_append, List.mem_append] at h
  rcases h with h | h
  · exact absurd h (by decide)
  · cases isDigit_of_mem_toString h

namespace Printer

variable (pr : Printer)

theorem quotesAfter_item {front label : String} (hf : '"' ∉ front.toList)
    (hl : label.toList.all isPlain = true) (rest : List Char) :
    quotesAfter none ((pr.item front label).toList ++ rest) = label :: quotesAfter none rest := by
  have hi : (pr.item front label).toList ++ rest =
      front.toList ++ '"' :: (label.toList ++ '"' :: (pr.ending.toList ++ rest)) := by
    simp [item, pr.label_eq label hl]
  rw [hi, quotesAfter_none hf, quotesAfter, if_pos rfl,
    quotesAfter_some (quote_notMem_of_isPlain hl), quotesAfter_none pr.quote_notMem_ending]
  simp

theorem quotesAfter_join {α : Type} {item label : α → String}
    (h : ∀ x rest, quotesAfter none ((item x).toList ++ rest) = label x :: quotesAfter none rest)
    (xs : List α) (rest : List Char) :
    quotesAfter none ((String.join (xs.map item)).toList ++ rest) =
      xs.map label ++ quotesAfter none rest := by
  induction xs with
  | nil => simp
  | cons x xs ih =>
    rw [List.map_cons, String.join_cons, String.toList_append, List.append_assoc, h, ih]
    rfl

/-- The labels of the nodes and then those of the edges are all that stands between quotes. -/
theorem quotes_text (d : Diagram) :
    quotes (pr.text d) = d.nodes.map Diagram.label ++ d.edges.map fun e ↦ e.side.label := by
  have hn (x : Statement × Nat) (rest : List Char) :
      quotesAfter none ((pr.nodeItem x.1 x.2).toList ++ rest) =
        Diagram.label x.1 :: quotesAfter none rest :=
    pr.quotesAfter_item (pr.quote_notMem_node _ (quote_notMem_nodeId x.2)) (isPlain_label x.1) rest
  have he (e : Edge) (rest : List Char) :
      quotesAfter none ((pr.edgeItem e).toList ++ rest) = e.side.label :: quotesAfter none rest :=
    pr.quotesAfter_item (pr.quote_notMem_edge _ _ (quote_notMem_nodeId e.source)
      (quote_notMem_nodeId e.target)) (isPlain_side e.side) rest
  have ho : '"' ∉ (pr.opening "statement").toList := pr.quote_notMem_opening _ (by decide)
  have hc := quotesAfter_none pr.quote_notMem_closing []
  rw [List.append_nil] at hc
  have hm : d.nodes.zipIdx.map (fun x ↦ Diagram.label x.1) = d.nodes.map Diagram.label := by
    have hf : (fun x : Statement × Nat ↦ Diagram.label x.1) = Diagram.label ∘ Prod.fst := rfl
    rw [hf, ← List.map_map, List.zipIdx_map_fst]
  simp only [quotes, text, String.toList_append, List.append_assoc]
  rw [quotesAfter_none ho, quotesAfter_join hn, quotesAfter_join he, hc, hm]
  simp [quotesAfter]

theorem read?_text (d : Diagram) : read? (pr.text d) = some d.root := by
  have hs : (d.edges.map fun e ↦ e.side.label).filterMap Head.ofLabel? = [] := by
    rw [List.filterMap_map, List.filterMap_eq_nil_iff]
    exact fun e _ ↦ ofLabel?_side e.side
  rw [read?, pr.quotes_text, ofLabels?, List.filterMap_append, hs, List.append_nil]
  exact ofLabels?_labels d

theorem text_eq_text_iff (s t : Statement) : pr.text ⟨s⟩ = pr.text ⟨t⟩ ↔ s = t := by
  constructor
  · intro h
    have hs := pr.read?_text ⟨s⟩
    rw [h, pr.read?_text] at hs
    exact (Option.some.inj hs).symm
  · rintro rfl
    rfl

end Printer

/-- A statement can be told from the text of its diagram, however it is printed, and already from
the labels of the nodes in their order. Labels need no escapes. -/
theorem text_identifies (s t : Statement) :
    (text ⟨s⟩ = text ⟨t⟩ ↔ s = t) ∧
    (∀ pr : Printer, pr.text ⟨s⟩ = pr.text ⟨t⟩ ↔ s = t) ∧
    ((nodes ⟨s⟩).map Diagram.label = (nodes ⟨t⟩).map Diagram.label ↔ s = t) ∧
    ∀ u, (Diagram.label u).toList.all isPlain = true := by
  refine ⟨Printer.graphViz.text_eq_text_iff s t, fun pr ↦ pr.text_eq_text_iff s t, ⟨fun h ↦ ?_,
    fun h ↦ h ▸ rfl⟩, isPlain_label⟩
  have hs := ofLabels?_labels ⟨s⟩
  rw [h, ofLabels?_labels] at hs
  exact (Option.some.inj hs).symm

end Diagram

end Sentential
