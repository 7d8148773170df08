import Sentential.Statement.Rendering

namespace Sentential

/-- A statement as a graph: its nodes are numbered in preorder, so a node comes before those below
it and the left ones before the right ones. -/
structure Diagram where
  root : Statement
  deriving DecidableEq, Repr

def Statement.preorder : Statement → List Statement
  | .not s => .not s :: s.preorder
  | .binary op l r => .binary op l r :: (l.preorder ++ r.preorder)
  | s => [s]

namespace Diagram

inductive Side
  | left
  | right
  | only
  deriving DecidableEq, Repr

structure Edge where
  source : Nat
  side : Side
  target : Nat
  deriving DecidableEq, Repr

def Side.label : Side → String
  | left => "L"
  | right => "R"
  | only => ""

def nodes (d : Diagram) : List Statement := d.root.preorder

/-- The edges down from the node with number `i`. -/
def edgesFrom (s : Statement) (i : Nat) : List Edge :=
  match s with
  | .not _ => [⟨i, .only, i + 1⟩]
  | .binary _ l _ => [⟨i, .left, i + 1⟩, ⟨i, .right, i + 1 + l.size⟩]
  | _ => []

def edges (d : Diagram) : List Edge := d.nodes.zipIdx.flatMap fun (s, i) ↦ edgesFrom s i

def label : Statement → String
  | .falsum => "False"
  | .verum => "True"
  | .var v => "Var " ++ v.format .plain
  | .not _ => "Not"
  | .binary op _ _ => op.name ++ " " ++ op.format .plain

/-- Characters that stand between quotes as they are. -/
def isPlain (c : Char) : Bool := ' ' ≤ c && c ≤ '~' && c ≠ '"' && c ≠ '\'' && c ≠ '\\'

/-- How a graph is written: its nodes and then its edges, each with its label between quotes. There
are no other quotes. What else is written is left open, and so are labels that are not plain. -/
structure Printer where
  opening (graph : String) : String
  node (id : String) : String
  edge (source target : String) : String
  ending : String
  closing : String
  label (text : String) : String
  label_eq : ∀ text, text.toList.all isPlain = true → label text = text
  quote_notMem_opening : ∀ graph, '"' ∉ graph.toList → '"' ∉ (opening graph).toList
  quote_notMem_node : ∀ id, '"' ∉ id.toList → '"' ∉ (node id).toList
  quote_notMem_edge : ∀ source target, '"' ∉ source.toList → '"' ∉ target.toList →
    '"' ∉ (edge source target).toList
  quote_notMem_ending : '"' ∉ ending.toList
  quote_notMem_closing : '"' ∉ closing.toList

def nodeId (i : Nat) : String := "n_" ++ toString i

namespace Printer

variable (pr : Printer)

/-- What stands in front of a label, the label and the rest of its line. -/
def item (front label : String) : String := front ++ "\"" ++ pr.label label ++ "\"" ++ pr.ending

def nodeItem (s : Statement) (i : Nat) : String := pr.item (pr.node (nodeId i)) (Diagram.label s)

def edgeItem (e : Edge) : String :=
  pr.item (pr.edge (nodeId e.source) (nodeId e.target)) e.side.label

def text (d : Diagram) : String :=
  pr.opening "statement" ++ String.join (d.nodes.zipIdx.map fun (s, i) ↦ pr.nodeItem s i) ++
    String.join (d.edges.map pr.edgeItem) ++ pr.closing

/-- A character in a label: short escapes for the common controls, a backslash before quotes and
itself, and code points for all that is not printable as one byte. -/
def escape (c : Char) : List Char :=
  if isPlain c then [c]
  else if c = '\t' then ['\\', 't']
  else if c = '\r' then ['\\', 'r']
  else if c = '\n' then ['\\', 'n']
  else if c = '"' || c = '\'' || c = '\\' then ['\\', c]
  else ['\\', 'u', '\x7b'] ++ Nat.toDigits 16 c.toNat ++ ['\x7d']

theorem flatMap_escape {text : List Char} (h : text.all isPlain = true) :
    text.flatMap escape = text := by
  induction text with
  | nil => rfl
  | cons c text ih =>
    obtain ⟨hc, ht⟩ := Bool.and_eq_true_iff.1 (List.all_cons ▸ h)
    rw [List.flatMap_cons, ih ht, escape, if_pos hc]
    rfl

/-- The language of GraphViz. -/
def graphViz : Printer where
  opening graph := "digraph " ++ graph ++ " \x7b\n"
  node id := "    " ++ id ++ "[label="
  edge source target := "    " ++ source ++ " -> " ++ target ++ "[label="
  ending := "];\n"
  closing := "\x7d\n"
  label text := String.ofList (text.toList.flatMap escape)
  label_eq text h := by rw [flatMap_escape h, String.ofList_toList]
  quote_notMem_opening graph h := by simp [h]
  quote_notMem_node id h := by simp [h]
  quote_notMem_edge source target hs ht := by simp [hs, ht]
  quote_notMem_ending := by decide
  quote_notMem_closing := by decide

end Printer

def text (d : Diagram) : String := Printer.graphViz.text d

theorem length_preorder (s : Statement) : s.preorder.length = s.size := by
  induction s <;> simp_all [Statement.preorder, Statement.size] <;> omega

end Diagram

end Sentential
