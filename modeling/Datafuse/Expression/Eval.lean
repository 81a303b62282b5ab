import Datafuse.Expression.Types

set_option autoImplicit false

/-! # Row semantics and the constant folder

`Expr.evalRow` gives the value an expression takes on one row of a block; it is what "the
predicate is true on a row" means in the pruning statements. Casts are run by the evaluator,
outside the modelled files, and enter as `Casts`.

`foldOnce` and `ConstantFolder.fold` model `ConstantFolder`, which the block filter index calls
after its rewrite. The folder is not among the source files; it is modelled from the spec
("the full predicate tree is then constant-folded"): one bottom-up pass folds a call to a
constant when its domain closure answers a single value, or else when all its arguments are
constants and evaluating it succeeds, and `fold` repeats the pass.
-/

namespace Datafuse

/-- One row of a block: the value of every column, by name. -/
abbrev Row := String → Scalar

/-- What the evaluator does at a `Cast` node (`is_try`, value, target type): its result,
and the domain `calculate_cast` / `calculate_try_cast` derive. -/
structure Casts where
  run : Bool → Scalar → DataType → Except String Scalar
  domain : Bool → Domain → DataType → Option Domain

mutual

/-- The value of an expression on one row. -/
def Expr.evalRow (cs : Casts) (r : Row) : Expr → Except String Scalar
  | .constant _ s _ => .ok s
  | .columnRef _ id _ => .ok (r id)
  | .cast _ isTry e ty => (e.evalRow cs r).bind fun v => cs.run isTry v ty
  | .functionCall _ fn args _ => (Expr.evalArgs cs r args).bind fn.eval

/-- The values of a call's arguments on one row, left to right. -/
def Expr.evalArgs (cs : Casts) (r : Row) : List Expr → Except String (List Scalar)
  | [] => .ok []
  | e :: es => (e.evalRow cs r).bind fun v => (Expr.evalArgs cs r es).map (v :: ·)

end

mutual

/-- Whether an expression reads a column anywhere. -/
def Expr.readsColumn : Expr → Bool
  | .constant .. => false
  | .columnRef .. => true
  | .cast _ _ e _ => e.readsColumn
  | .functionCall _ _ args _ => Expr.readsColumnArgs args

/-- Whether one of a call's arguments reads a column. -/
def Expr.readsColumnArgs : List Expr → Bool
  | [] => false
  | e :: es => e.readsColumn || Expr.readsColumnArgs es

end

mutual

/-- An expression that reads no column has the same value on every row. -/
theorem evalRow_eq_of_readsColumn_eq_false (cs : Casts) (r r' : Row) :
    ∀ e : Expr, e.readsColumn = false → e.evalRow cs r = e.evalRow cs r'
  | .constant .., _ => rfl
  | .columnRef .., h => by cases h
  | .cast _ _ e _, h => by
      simp only [Expr.evalRow, evalRow_eq_of_readsColumn_eq_false cs r r' e h]
  | .functionCall _ _ args _, h => by
      simp only [Expr.evalRow, evalArgs_eq_of_readsColumnArgs_eq_false cs r r' args h]

/-- Arguments that read no column have the same values on every row. -/
theorem evalArgs_eq_of_readsColumnArgs_eq_false (cs : Casts) (r r' : Row) :
    ∀ args : List Expr, Expr.readsColumnArgs args = false →
      Expr.evalArgs cs r args = Expr.evalArgs cs r' args
  | [], _ => rfl
  | e :: es, h => by
      simp only [Expr.readsColumnArgs, Bool.or_eq_false_iff] at h
      simp only [Expr.evalArgs, evalRow_eq_of_readsColumn_eq_false cs r r' e h.1,
        evalArgs_eq_of_readsColumnArgs_eq_false cs r r' es h.2]

end

/-- The domain a call's `FunctionDomain` stands for: `Full` is the full domain of the
return type, `MayThrow` none. -/
def FunctionDomain.toDomain : FunctionDomain → DataType → Option Domain
  | .mayThrow, _ => none
  | .full, ty => some (Domain.full ty)
  | .domain d, _ => some d

mutual

/-- Modelled from the spec: `ConstantFolder::fold_once`, one bottom-up pass returning the
folded expression and its domain. A column reference has the full domain of its type. -/
def foldOnce (cs : Casts) : Expr → Expr × Option Domain
  | .constant span s ty => (.constant span s ty, some (s.domain ty))
  | .columnRef span id ty =>
      match (Domain.full ty).asSingleton with
      | some s => (.constant span s ty, some (Domain.full ty))
      | none => (.columnRef span id ty, some (Domain.full ty))
  | .cast span isTry e ty =>
      let (e', d) := foldOnce cs e
      let d' := d.bind fun d => cs.domain isTry d ty
      match e'.asConstant.map fun s => cs.run isTry s ty with
      | some (.ok s) => (.constant span s ty, d')
      | _ => (.cast span isTry e' ty, d')
  | .functionCall span fn args ty =>
      let (args', ds) := foldArgs cs args
      let fd := ds.bind fun ds => (fn.calcDomain ds).toDomain ty
      match fd.bind Domain.asSingleton with
      | some s => (.constant span s ty, fd)
      | none =>
          match (args'.mapM Expr.asConstant).map fn.eval with
          | some (.ok s) => (.constant span s ty, fd)
          | _ => (.functionCall span fn args' ty, fd)

/-- `fold_once` over a call's arguments; the domains are known only if every one is. -/
def foldArgs (cs : Casts) : List Expr → List Expr × Option (List Domain)
  | [] => ([], some [])
  | e :: es =>
      let (e', d) := foldOnce cs e
      let (es', ds) := foldArgs cs es
      (e' :: es', d.bind fun d => ds.map (d :: ·))

end

mutual

/-- The number of nodes of an expression. -/
def Expr.size : Expr → Nat
  | .constant .. => 1
  | .columnRef .. => 1
  | .cast _ _ e _ => e.size + 1
  | .functionCall _ _ args _ => Expr.sizeArgs args + 1

/-- The number of nodes of a list of arguments. -/
def Expr.sizeArgs : List Expr → Nat
  | [] => 0
  | e :: es => e.size + Expr.sizeArgs es

end

/-- Modelled from the spec: `ConstantFolder::fold`, as `BlockFilter::eval` reads it (the
folded expression). It repeats `fold_once`, one pass for every node of the expression. -/
def ConstantFolder.fold (cs : Casts) (e : Expr) : Expr :=
  (fun e => (foldOnce cs e).1)^[e.size] e

end Datafuse
