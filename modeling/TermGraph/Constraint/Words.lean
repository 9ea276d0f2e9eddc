import TermGraph.Arena
import TermGraph.Node

/-!
# The words of a constraint

Constraints are found again through a digest, and what is digested is a
sequence of numbers, the *words* of the constraint.  The words describe its
structure: for every node the number of its kind, its operators, literals,
lengths and the handles of declarations, types and constraints, and in the
place of every name, expression and requirement the words of that node in
turn.  The handles of names, expressions and requirements do not occur, so
that two occurrences of the same structure have the same words.

The name written in an id-expression or a member access is left out, since the
declaration that it refers to implies it.

A node is first laid out as a list of pieces (`ExprKind.pieces` and its
fellows), each a word or a part to be opened; `Arena.wordsWithin` opens the
parts.
-/

namespace TermGraph

/-- The nodes that are compared by their structure and not by their handles. -/
inductive Part where
  | name (id : NameId)
  | expr (id : ExprId)
  | req (id : ReqId)
  deriving DecidableEq, Inhabited

/-- One piece of a node laid out flat: a word or a part. -/
inductive Piece where
  | word (w : Nat)
  | part (p : Part)
  deriving DecidableEq, Inhabited

/-- The words of a list of handles: its length and the handles. -/
def Piece.handles {c : Category} (hs : List (Handle c)) : List Piece :=
  .word hs.length :: hs.map fun h => .word h.index

/-- A literal as a word: its bits. -/
def Piece.literal (value : Int64) : Piece := .word value.toUInt64.toNat

def Term.pieces : Term → List Piece
  | .name n => [.word 0, .part (.name n)]
  | .type t => [.word 1, .word t.index]
  | .expr e => [.word 2, .part (.expr e)]
  | .decl d => [.word 3, .word d.index]
  | .constraint c => [.word 4, .word c.index]

/-- A list of terms, laid out: its length and the terms. -/
def Piece.terms (ts : List Term) : List Piece := .word ts.length :: ts.flatMap Term.pieces

/-- A list of expressions, laid out: its length and the expressions. -/
def Piece.exprs (es : List ExprId) : List Piece :=
  .word es.length :: es.map fun e => .part (.expr e)

/-- A list of requirements, laid out: its length and the requirements. -/
def Piece.reqs (rs : List ReqId) : List Piece := .word rs.length :: rs.map fun r => .part (.req r)

def NameKind.pieces : NameKind → List Piece
  | .simple sym => [.word 0, .word sym.index]
  | .placeholder n => [.word 1, .word n]
  | .operator op => [.word 2, .word op.toNat]
  | .destructor ty => [.word 3, .word ty.index]
  | .template d args => .word 4 :: .word d.index :: Piece.terms args
  | .concept d args => .word 5 :: .word d.index :: Piece.terms args
  | .qualified scope name => [.word 6, .word scope.index, .part (.name name)]
  | .global => [.word 7]

/-- An expression without its type, laid out. -/
def ExprKind.pieces : ExprKind → List Piece
  | .boolean value => [.word 0, .word value.toNat]
  | .integer value => [.word 1, .literal value]
  | .object _ decl => [.word 2, .word decl.index]
  | .function _ decl => [.word 3, .word decl.index]
  | .field obj _ decl => [.word 4, .part (.expr obj), .word decl.index]
  | .method obj _ decl => [.word 5, .part (.expr obj), .word decl.index]
  | .check c args => .word 6 :: .word c.index :: Piece.terms args
  | .unary op operand => [.word 7, .word op.toNat, .part (.expr operand)]
  | .binary op lhs rhs => [.word 8, .word op.toNat, .part (.expr lhs), .part (.expr rhs)]
  | .call callee args => .word 9 :: .part (.expr callee) :: Piece.exprs args
  | .requires tparms parms reqs =>
    .word 10 :: (Piece.handles tparms ++ Piece.handles parms ++ Piece.reqs reqs)
  | .synthetic decl => [.word 11, .word decl.index]
  | .trivialInit => [.word 12]
  | .copyInit expr => [.word 13, .part (.expr expr)]
  | .bindInit expr => [.word 14, .part (.expr expr)]
  | .directInit ctor args => .word 15 :: .word ctor.index :: Piece.exprs args
  | .aggregateInit args => .word 16 :: Piece.exprs args

def ReqKind.pieces : ReqKind → List Piece
  | .basic expr ty => [.word 0, .part (.expr expr), .word ty.index]
  | .conversion expr ty => [.word 1, .part (.expr expr), .word ty.index]
  | .syntactic expr => [.word 2, .part (.expr expr)]

def ConstraintKind.pieces : ConstraintKind → List Piece
  | .concept c args => .word 0 :: .word c.index :: Piece.terms args
  | .predicate expr => [.word 1, .part (.expr expr)]
  | .expression expr ty => [.word 2, .part (.expr expr), .word ty.index]
  | .conversion expr ty => [.word 3, .part (.expr expr), .word ty.index]
  | .parameterized parms constraint => .word 4 :: (Piece.handles parms ++ [.word constraint.index])
  | .conjunction lhs rhs => [.word 5, .word lhs.index, .word rhs.index]
  | .disjunction lhs rhs => [.word 6, .word lhs.index, .word rhs.index]

/-- The words of pieces in order, with `opened` telling the words of a part.
The first part that cannot be opened decides the fault. -/
def Piece.spread (opened : Part → Except Fault (List Nat)) : List Piece → Except Fault (List Nat)
  | [] => return []
  | .word w :: rest => do return w :: (← Piece.spread opened rest)
  | .part p :: rest => do return (← opened p) ++ (← Piece.spread opened rest)

namespace Arena

/-- The node of a part, laid out; an expression begins with its type. -/
def pieces (a : Arena) : Part → Except Fault (List Piece)
  | .name n => NameKind.pieces <$> a.name n
  | .expr e => (fun x => .word x.ty.index :: x.kind.pieces) <$> a.expr e
  | .req r => ReqKind.pieces <$> a.req r

/-- The words of a part whose nodes are nested less than `depth` deep. -/
def wordsWithin (a : Arena) : Nat → Part → Except Fault (List Nat)
  | 0, _ => .error .cyclic
  | depth + 1, p => do Piece.spread (a.wordsWithin depth) (← a.pieces p)

/-- More than the number of nodes that parts can be nested through. -/
def depthBound (a : Arena) : Nat := a.names.size + a.exprs.size + a.reqs.size + 1

def partWords (a : Arena) (p : Part) : Except Fault (List Nat) := a.wordsWithin a.depthBound p

def constraintWords (a : Arena) (kind : ConstraintKind) : Except Fault (List Nat) :=
  Piece.spread a.partWords kind.pieces

end Arena

end TermGraph
