/-!
# Syntax trees

- `Head`, `Node`: a node of a syntax tree, with what the grammar says of it and its children.
- `Node.child?`, `Node.namedChildren`, `Node.childrenOfKind`, `Node.hasToken`: the children that a
  reader asks for. Comments are never among the named ones.
- `Node.preorder`: every node of a tree, a node before what is below it.
- `Node.operands`: the operands of a chain of one kind, however the chain is nested.
- `Node.ofPreorder?`: the tree of a flat list in which every node gives the number of its children.

Where operands are searched for, the nodes still to be looked at are kept in a list; the total
weight of the list goes down with every node.
-/

namespace DeclCatalog

/-- What the grammar says of a node. -/
structure Head where
  /-- The place of the node in the pre-order of its tree. -/
  id : Nat
  kind : String
  /-- The field of the parent that holds the node. -/
  field : Option String
  isNamed : Bool
  isError : Bool
  isMissing : Bool
  /-- Whether there is an error at the node or below it. -/
  hasError : Bool
  /-- The offset of its first byte. -/
  start : Nat
  /-- The offset after its last byte. -/
  stop : Nat
  deriving DecidableEq

/-- A node of a syntax tree. -/
inductive Node where
  | mk (head : Head) (children : List Node)

namespace Node

/-- What the grammar says of a node. -/
def head : Node → Head
  | .mk head _ => head

/-- The children, named or not. -/
def children : Node → List Node
  | .mk _ children => children

/-- The kind of a node. -/
def kind (n : Node) : String :=
  n.head.kind

/-- Whether a node is an error, or stands for something that is missing. -/
def isFault (n : Node) : Bool :=
  n.head.isError || n.head.isMissing

/-! ## Children -/

/-- The child in a field. -/
def child? (n : Node) (field : String) : Option Node :=
  n.children.find? fun c => c.head.field == some field

/-- The named children without comments. -/
def namedChildren (n : Node) : List Node :=
  n.children.filter fun c => c.head.isNamed && c.kind != "comment"

/-- The first named child that is no comment. -/
def firstNamedChild? (n : Node) : Option Node :=
  n.namedChildren.head?

/-- The children of a kind, named or not. -/
def childrenOfKind (n : Node) (kind : String) : List Node :=
  n.children.filter fun c => c.kind == kind

/-- Whether there is a child of a kind, such as a keyword. -/
def hasToken (n : Node) (kind : String) : Bool :=
  n.children.any fun c => c.kind == kind

/-- The named children of the child in a field, or none. -/
def childrenIn (n : Node) (field : String) : List Node :=
  match n.child? field with
  | some c => c.namedChildren
  | none => []

/-! ## Weight and pre-order -/

mutual

/-- The number of nodes of a tree. -/
def weight : Node → Nat
  | .mk _ children => weightAll children + 1

/-- The number of nodes of several trees. -/
def weightAll : List Node → Nat
  | [] => 0
  | n :: rest => n.weight + weightAll rest

end

mutual

/-- Every node of a tree, a node before what is below it. -/
def preorder : Node → List Node
  | .mk head children => .mk head children :: preorderAll children

/-- The nodes of several trees, tree after tree. -/
def preorderAll : List Node → List Node
  | [] => []
  | n :: rest => n.preorder ++ preorderAll rest

end

theorem weight_eq (n : Node) : n.weight = weightAll n.children + 1 := by
  cases n
  simp [weight, children]

theorem preorder_eq (n : Node) : n.preorder = n :: preorderAll n.children := by
  cases n
  simp [preorder, children]

theorem weightAll_append (ms ns : List Node) :
    weightAll (ms ++ ns) = weightAll ms + weightAll ns := by
  induction ms with
  | nil => simp [weightAll]
  | cons m ms ih => simp [weightAll, ih, Nat.add_assoc]

theorem weightAll_filter_le (p : Node → Bool) (ns : List Node) :
    weightAll (ns.filter p) ≤ weightAll ns := by
  induction ns with
  | nil => simp
  | cons n ns ih =>
    by_cases h : p n
    · simp [h, weightAll, ih]
    · simp only [List.filter_cons_of_neg h, weightAll]
      omega

theorem weightAll_namedChildren_lt (n : Node) : weightAll n.namedChildren < n.weight := by
  have h := weightAll_filter_le (fun c => c.head.isNamed && c.kind != "comment") n.children
  rw [weight_eq]
  exact Nat.lt_succ_of_le h

/-! ## Operands -/

/-- The operands of the chains of a kind among pending nodes: a node of the kind gives way to its
named children, any other node is an operand. -/
def operandsOf (kind : String) : List Node → List Node
  | [] => []
  | n :: pending =>
    if n.kind == kind then operandsOf kind (n.namedChildren ++ pending)
    else n :: operandsOf kind pending
termination_by pending => weightAll pending
decreasing_by
  · have h := weightAll_namedChildren_lt n
    simp only [weightAll_append, weightAll]
    omega
  · simp only [weightAll]
    have h := weight_eq n
    omega

/-- The operands of a chain of the node's own kind, from left to right. -/
def operands (n : Node) : List Node :=
  operandsOf n.kind [n]

/-! ## Flat trees -/

/-- A tree out of a list in pre-order, where every node comes with the number of its children: from
the last node on, each takes its children from the trees that are complete. -/
def ofPreorder? (entries : List (Head × Nat)) : Option Node :=
  match entries.foldr (fun (head, count) trees =>
      .mk head (trees.take count) :: trees.drop count) [] with
  | [root] => some root
  | _ => none

end Node

/-- A node with the node above it. -/
structure Site where
  parent : Option Node
  node : Node

namespace Site

/-- The site of a root. -/
def root (n : Node) : Site where
  parent := none
  node := n

mutual

/-- The sites of a tree in pre-order, below a given parent. -/
def preorder (parent : Option Node) : Node → List Site
  | .mk head children =>
    { parent, node := .mk head children } :: preorderAll (some (.mk head children)) children

/-- The sites of several trees with one parent. -/
def preorderAll (parent : Option Node) : List Node → List Site
  | [] => []
  | n :: rest => preorder parent n ++ preorderAll parent rest

end

theorem preorder_eq (parent : Option Node) (n : Node) :
    preorder parent n = { parent, node := n } :: preorderAll (some n) n.children := by
  cases n
  simp [preorder, Node.children]

end Site

end DeclCatalog
