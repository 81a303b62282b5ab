import Datafuse.Basic

set_option autoImplicit false

/-! # Values, types, domains and expressions

The part of `common_expression` that the block filter index and the Boolean functions read:
scalar values (`Scalar`), data types (`DataType`), the abstract domains the constant folder
computes with (`Domain`, `FunctionDomain`), registered functions (`Function`) and typed
expression trees over column names (`Expr`, the `Expr<String>` of the source).

A `Function` carries its own evaluation and domain closures, as the `Arc<Function>` inside an
`Expr::FunctionCall` does. Its evaluation is stated row by row: applied to the values its
arguments take on one row, it gives the value of the call on that row. Numbers, strings and
dates keep no domain in this model (`Domain.undefined`): the folder folds them only by
evaluating calls on constants.
-/

namespace Datafuse

/-- `Scalar`: one value. Numbers are kept as integers, strings as their bytes. -/
inductive Scalar where
  | null
  | emptyArray
  | number (n : Int)
  | timestamp (t : Int)
  | date (d : Int)
  | boolean (b : Bool)
  | string (bytes : List UInt8)
  deriving DecidableEq, Repr

/-- `Scalar::is_null`. -/
def Scalar.isNull : Scalar → Bool
  | .null => true
  | _ => false

@[simp] theorem Scalar.isNull_iff (s : Scalar) : s.isNull = true ↔ s = .null := by
  cases s <;> simp [Scalar.isNull]

@[simp] theorem Scalar.isNull_eq_false (s : Scalar) : s.isNull = false ↔ s ≠ .null := by
  cases s <;> simp [Scalar.isNull]

/-- `DataType`. -/
inductive DataType where
  | null
  | emptyArray
  | boolean
  | string
  | number
  | timestamp
  | date
  | nullable (ty : DataType)
  | array (ty : DataType)
  | variant
  deriving DecidableEq, Repr

/-- `DataType::is_nullable`. -/
def DataType.isNullable : DataType → Bool
  | .nullable _ => true
  | _ => false

/-- `DataType::remove_nullable`. -/
def DataType.removeNullable : DataType → DataType
  | .nullable ty => ty
  | ty => ty

/-- `BooleanDomain` and `NullableDomain`; the domains of other types are not tracked. -/
inductive Domain where
  | boolean (hasFalse hasTrue : Bool)
  | nullable (hasNull : Bool) (value : Option Domain)
  | undefined

/-- `FunctionDomain`: what a function's domain closure answers. -/
inductive FunctionDomain where
  | mayThrow
  | full
  | domain (d : Domain)

/-- `Domain::full`: the domain holding every value of a type. -/
def Domain.full : DataType → Domain
  | .boolean => .boolean true true
  | .null => .nullable true none
  | .nullable ty => .nullable true (some (Domain.full ty))
  | _ => .undefined

/-- `Domain::as_singleton`: the one value a domain holds, if it holds exactly one. -/
def Domain.asSingleton : Domain → Option Scalar
  | .boolean true false => some (.boolean false)
  | .boolean false true => some (.boolean true)
  | .nullable true none => some .null
  | .nullable false (some d) => d.asSingleton
  | _ => none

/-- `Scalar::domain`: the domain of a constant of a given type. -/
def Scalar.domain : Scalar → DataType → Domain
  | .null, .nullable _ => .nullable true none
  | .null, .null => .nullable true none
  | s, .nullable ty => .nullable false (some (s.domain ty))
  | .boolean b, _ => .boolean (!b) b
  | _, _ => .undefined

/-- A registered function, as an `Expr::FunctionCall` holds it: the name of its signature,
its domain closure and its evaluation on the values of its arguments on one row. -/
structure Function where
  name : String
  calcDomain : List Domain → FunctionDomain
  eval : List Scalar → Except String Scalar

/-- `Span`: where an expression stands in the query text. -/
abbrev Span := Option (Nat × Nat)

/-- `Expr<String>`: a typed expression whose column references are column names. -/
inductive Expr where
  | constant (span : Span) (scalar : Scalar) (dataType : DataType)
  | columnRef (span : Span) (id : String) (dataType : DataType)
  | cast (span : Span) (isTry : Bool) (expr : Expr) (destType : DataType)
  | functionCall (span : Span) (function : Function) (args : List Expr) (returnType : DataType)

/-- `Expr::data_type`. -/
def Expr.dataType : Expr → DataType
  | .constant _ _ ty => ty
  | .columnRef _ _ ty => ty
  | .cast _ _ _ ty => ty
  | .functionCall _ _ _ ty => ty

/-- `Expr::as_constant`: the scalar of a constant expression. -/
def Expr.asConstant : Expr → Option Scalar
  | .constant _ s _ => some s
  | _ => none

end Datafuse
