import TermGraph.Constraint.Words

/-!
# Structural equivalence

Two names, expressions or requirements are alike when they have the same
structure, whatever their handles; declarations, types and constraints are
alike when their handles are equal.  Nodes are compared pairwise: for two
nodes of the same kind `ExprKind.demands` and its fellows list, in order, what
has to hold for the nodes to be alike, either outright or of two parts in
turn, and `Arena.alikeWithin` checks the demands until one fails.

The order is visible.  A demand after a failed one is never looked at, so a
handle that leads nowhere is noticed only if everything before it agrees.
A name or expression is alike itself even if nothing is stored at its handle.

The words of `Constraint.Words` are laid out without regard to these lists.
Two constraints are alike exactly when their words are equal, and interning
rests on that.
-/

namespace TermGraph

/-- Something that has to hold for two nodes to be alike. -/
inductive Demand where
  | holds (b : Bool)
  | alike (x y : Part)
  deriving DecidableEq, Inhabited

namespace Demand

def never : List Demand := [.holds false]

/-- Expressions are alike one by one, and there are as many on both sides. -/
def exprs (xs ys : List ExprId) : List Demand :=
  .holds (xs.length = ys.length) :: xs.zipWith (fun x y => .alike (.expr x) (.expr y)) ys

/-- Requirements are alike one by one, and there are as many on both sides. -/
def reqs (xs ys : List ReqId) : List Demand :=
  .holds (xs.length = ys.length) :: xs.zipWith (fun x y => .alike (.req x) (.req y)) ys

def term : Term → Term → Demand
  | .name x, .name y => .alike (.name x) (.name y)
  | .type x, .type y => .holds (x = y)
  | .expr x, .expr y => .alike (.expr x) (.expr y)
  | .decl x, .decl y => .holds (x = y)
  | .constraint x, .constraint y => .holds (x = y)
  | _, _ => .holds false

/-- Terms are alike one by one, and there are as many on both sides. -/
def terms (xs ys : List Term) : List Demand :=
  .holds (xs.length = ys.length) :: xs.zipWith term ys

/-- Check demands in order, up to the first that fails. -/
def settle (alike? : Part → Part → Except Fault Bool) : List Demand → Except Fault Bool
  | [] => return true
  | .holds b :: rest => if b then settle alike? rest else return false
  | .alike x y :: rest => do if ← alike? x y then settle alike? rest else return false

end Demand

/-- What has to hold for two names to be alike. -/
def NameKind.demands : NameKind → NameKind → List Demand
  | .simple x, .simple y => [.holds (x = y)]
  | .placeholder x, .placeholder y => [.holds (x = y)]
  | .operator x, .operator y => [.holds (x = y)]
  | .destructor x, .destructor y => [.holds (x = y)]
  | .template d xs, .template e ys => .holds (d = e) :: Demand.terms xs ys
  | .concept d xs, .concept e ys => .holds (d = e) :: Demand.terms xs ys
  | .qualified s x, .qualified t y => [.holds (s = t), .alike (.name x) (.name y)]
  | .global, .global => []
  | _, _ => Demand.never

/-- What has to hold for two expressions of the same type to be alike. -/
def ExprKind.demands : ExprKind → ExprKind → List Demand
  | .boolean x, .boolean y => [.holds (x = y)]
  | .integer x, .integer y => [.holds (x = y)]
  | .object _ d, .object _ e => [.holds (d = e)]
  | .function _ d, .function _ e => [.holds (d = e)]
  | .field x _ d, .field y _ e => [.holds (d = e), .alike (.expr x) (.expr y)]
  | .method x _ d, .method y _ e => [.holds (d = e), .alike (.expr x) (.expr y)]
  | .check c xs, .check d ys => .holds (c = d) :: Demand.terms xs ys
  | .unary o x, .unary p y => [.holds (o = p), .alike (.expr x) (.expr y)]
  | .binary o l r, .binary p m s =>
    [.holds (o = p), .alike (.expr l) (.expr m), .alike (.expr r) (.expr s)]
  | .call f xs, .call g ys => .alike (.expr f) (.expr g) :: Demand.exprs xs ys
  | .requires ts ps rs, .requires us qs ss =>
    .holds (ts = us) :: .holds (ps = qs) :: Demand.reqs rs ss
  | .synthetic d, .synthetic e => [.holds (d = e)]
  | .trivialInit, .trivialInit => []
  | .copyInit x, .copyInit y => [.alike (.expr x) (.expr y)]
  | .bindInit x, .bindInit y => [.alike (.expr x) (.expr y)]
  | .directInit c xs, .directInit d ys => .holds (c = d) :: Demand.exprs xs ys
  | .aggregateInit xs, .aggregateInit ys => Demand.exprs xs ys
  | _, _ => Demand.never

/-- What has to hold for two requirements to be alike. -/
def ReqKind.demands : ReqKind → ReqKind → List Demand
  | .basic x t, .basic y u => [.holds (t = u), .alike (.expr x) (.expr y)]
  | .conversion x t, .conversion y u => [.holds (t = u), .alike (.expr x) (.expr y)]
  | .syntactic x, .syntactic y => [.alike (.expr x) (.expr y)]
  | _, _ => Demand.never

/-- What has to hold for two constraints to be alike. -/
def ConstraintKind.demands : ConstraintKind → ConstraintKind → List Demand
  | .concept c xs, .concept d ys => .holds (c = d) :: Demand.terms xs ys
  | .predicate x, .predicate y => [.alike (.expr x) (.expr y)]
  | .expression x t, .expression y u => [.holds (t = u), .alike (.expr x) (.expr y)]
  | .conversion x t, .conversion y u => [.holds (t = u), .alike (.expr x) (.expr y)]
  | .parameterized ps c, .parameterized qs d => [.holds (ps = qs), .holds (c = d)]
  | .conjunction l r, .conjunction m s => [.holds (l = m), .holds (r = s)]
  | .disjunction l r, .disjunction m s => [.holds (l = m), .holds (r = s)]
  | _, _ => Demand.never

namespace Arena

/-- Whether two parts whose nodes are nested less than `depth` deep are alike. -/
def alikeWithin (a : Arena) : Nat → Part → Part → Except Fault Bool
  | 0, _, _ => .error .cyclic
  | depth + 1, .name x, .name y => if x = y then return true else do
    let j ← a.name x
    let k ← a.name y
    Demand.settle (a.alikeWithin depth) (j.demands k)
  | depth + 1, .expr x, .expr y => if x = y then return true else do
    let j ← a.expr x
    let k ← a.expr y
    Demand.settle (a.alikeWithin depth) (.holds (j.ty = k.ty) :: j.kind.demands k.kind)
  | depth + 1, .req x, .req y => do
    let j ← a.req x
    let k ← a.req y
    Demand.settle (a.alikeWithin depth) (j.demands k)
  | _ + 1, _, _ => return false

def partsAlike (a : Arena) (x y : Part) : Except Fault Bool := a.alikeWithin a.depthBound x y

/-- Whether two expressions are alike: same kind, same type, alike operands and
the same declarations referred to. -/
def exprsAlike (a : Arena) (x y : ExprId) : Except Fault Bool := a.partsAlike (.expr x) (.expr y)

def constraintsAlike (a : Arena) (j k : ConstraintKind) : Except Fault Bool :=
  Demand.settle a.partsAlike (j.demands k)

end Arena

end TermGraph
