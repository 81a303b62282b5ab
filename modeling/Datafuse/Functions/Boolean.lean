import Datafuse.Expression.Fold

set_option autoImplicit false

/-! # The Boolean functions

`boolean::register`: the kernels of `not`, `and_filters`, `and`, `or` and `xor` on Boolean
values, the three-valued `and` / `or` on `Nullable(Boolean)`, and the domain closures the
constant folder calls. A kernel receives each argument as a scalar or as a column (a bitmap)
and returns a scalar or a column; its match arms short-cut on scalar arguments.

The bitmap operations `!&c`, `&a & &b`, `&a | &b` and `bitmap::xor` work bit by bit; Rust
asserts equal lengths, which every call here meets (`BooleanValue.Fits`).

`evalAnd_rowWise` and its siblings say that every kernel, with its scalars broadcast to the
length of the block, computes the row-wise operation. The closures of `and` and `or` are sound in
the sense the constant folder relies on (`Function.DomainSound`), and `and`'s closure answers
the single value `true` only on two domains `{true}` (`calcDomainAnd_asSingleton`), which is what
folding a conjunction with a `false` side rests on.
-/

namespace Datafuse.Boolean

/-- `Value<BooleanType>`: one Boolean for all rows, or one per row. -/
inductive BooleanValue where
  | scalar (b : Bool)
  | column (bits : List Bool)
  deriving DecidableEq, Repr

/-! ## The kernels -/

/-- The kernel registered for `not`. -/
def evalNot : BooleanValue → BooleanValue
  | .scalar b => .scalar (!b)
  | .column c => .column (c.map (!·))

/-- The kernel registered for `and` on `Boolean`. -/
def evalAnd : BooleanValue → BooleanValue → BooleanValue
  | .scalar true, other | other, .scalar true => other
  | .scalar false, _ | _, .scalar false => .scalar false
  | .column a, .column b => .column (List.zipWith (· && ·) a b)

/-- The kernel registered for `and_filters`: the same closure as `and`'s. -/
def evalAndFilters : BooleanValue → BooleanValue → BooleanValue := evalAnd

/-- The kernel registered for `or` on `Boolean`. -/
def evalOr : BooleanValue → BooleanValue → BooleanValue
  | .scalar true, _ | _, .scalar true => .scalar true
  | .scalar false, other | other, .scalar false => other
  | .column a, .column b => .column (List.zipWith (· || ·) a b)

/-- The kernel registered for `xor`. -/
def evalXor : BooleanValue → BooleanValue → BooleanValue
  | .scalar true, .scalar other | .scalar other, .scalar true => .scalar (!other)
  | .scalar true, .column other | .column other, .scalar true => .column (other.map (!·))
  | .scalar false, other | other, .scalar false => other
  | .column a, .column b => .column (List.zipWith xor a b)

/-- The row function vectorised for `or` on `Nullable(Boolean)`: three-valued `OR`. -/
def evalOrNullable : Option Bool → Option Bool → Option Bool
  | some true, _ => some true
  | _, some true => some true
  | some false, some false => some false
  | _, _ => none

/-! ## The domain closures -/

/-- The domain closure of `not`. -/
def calcDomainNot : Domain → FunctionDomain
  | .boolean hasFalse hasTrue => .domain (.boolean hasTrue hasFalse)
  | _ => .full

/-- The domain closure of `and` and `and_filters` on `Boolean`. -/
def calcDomainAnd : Domain → Domain → FunctionDomain
  | .boolean lf lt, .boolean rf rt => .domain (.boolean (lf || rf) (lt && rt))
  | _, _ => .full

/-- The domain closure of `or` on `Boolean`. -/
def calcDomainOr : Domain → Domain → FunctionDomain
  | .boolean lf lt, .boolean rf rt => .domain (.boolean (lf && rf) (lt || rt))
  | _, _ => .full

/-- The domain closure of `xor`. -/
def calcDomainXor : Domain → Domain → FunctionDomain
  | .boolean lf lt, .boolean rf rt =>
      .domain (.boolean ((lf && rf) || (lt && rt)) ((lf && rt) || (lt && rf)))
  | _, _ => .full

/-- The domain closure of `or` on `Nullable(Boolean)`. -/
def calcDomainOrNullable : Domain → Domain → FunctionDomain
  | .nullable false (some (.boolean lf lt)), .nullable false (some (.boolean rf rt)) =>
      .domain (.nullable false (some (.boolean (lf && rf) (lt || rt))))
  | _, _ => .full

/-! ## The registered functions

A registered function receives its argument domains and values as lists; an argument of
another type than its signature's is a type error the type checker rules out, and the model
answers it with `Full` and an error. -/

/-- A Boolean kernel's result on scalar arguments, as a scalar. -/
def BooleanValue.toScalar : BooleanValue → Except String Scalar
  | .scalar b => .ok (.boolean b)
  | .column _ => .error "column result on scalar arguments"

/-- A nullable Boolean argument on one row. -/
def asNullableBoolean : Scalar → Option (Option Bool)
  | .null => some none
  | .boolean b => some (some b)
  | _ => none

/-- A one-argument Boolean function from its kernel and domain closure. -/
def function1 (name : String) (domain : Domain → FunctionDomain)
    (eval : BooleanValue → BooleanValue) : Function where
  name := name
  calcDomain
    | [d] => domain d
    | _ => .full
  eval
    | [.boolean b] => (eval (.scalar b)).toScalar
    | _ => .error "argument is not Boolean"

/-- A two-argument Boolean function from its kernel and domain closure. -/
def function2 (name : String) (domain : Domain → Domain → FunctionDomain)
    (eval : BooleanValue → BooleanValue → BooleanValue) : Function where
  name := name
  calcDomain
    | [d, e] => domain d e
    | _ => .full
  eval
    | [.boolean a, .boolean b] => (eval (.scalar a) (.scalar b)).toScalar
    | _ => .error "arguments are not Boolean"

/-- A two-argument `Nullable(Boolean)` function from its row function and domain closure. -/
def functionNullable2 (name : String) (domain : Domain → Domain → FunctionDomain)
    (eval : Option Bool → Option Bool → Option Bool) : Function where
  name := name
  calcDomain
    | [d, e] => domain d e
    | _ => .full
  eval args :=
    match args.mapM asNullableBoolean with
    | some [a, b] => .ok ((eval a b).elim .null .boolean)
    | _ => .error "arguments are not Nullable(Boolean)"

/-- `not` on `Boolean`. -/
def notFunction : Function := function1 "not" calcDomainNot evalNot

/-- `and_filters` on `Boolean`. -/
def andFiltersFunction : Function := function2 "and_filters" calcDomainAnd evalAndFilters

/-- `and` on `Boolean`. -/
def andFunction : Function := function2 "and" calcDomainAnd evalAnd

/-- `or` on `Boolean`. -/
def orFunction : Function := function2 "or" calcDomainOr evalOr

/-- `xor` on `Boolean`. -/
def xorFunction : Function := function2 "xor" calcDomainXor evalXor

/-- `or` on `Nullable(Boolean)`. -/
def orNullableFunction : Function :=
  functionNullable2 "or" calcDomainOrNullable evalOrNullable

/-! ## The kernels compute the row-wise operations -/

/-- The rows of a value on a block of `n` rows: a scalar is broadcast. -/
def BooleanValue.broadcast (n : Nat) : BooleanValue → List Bool
  | .scalar b => List.replicate n b
  | .column c => c

/-- A value fits a block of `n` rows: a scalar, or a column of `n` bits. -/
def BooleanValue.Fits (n : Nat) : BooleanValue → Prop
  | .scalar _ => True
  | .column c => c.length = n

@[simp] theorem BooleanValue.broadcast_scalar (n : Nat) (b : Bool) :
    (BooleanValue.scalar b).broadcast n = List.replicate n b := rfl

@[simp] theorem BooleanValue.broadcast_column (n : Nat) (c : List Bool) :
    (BooleanValue.column c).broadcast n = c := rfl

@[simp] theorem BooleanValue.fits_scalar (n : Nat) (b : Bool) :
    (BooleanValue.scalar b).Fits n ↔ True := Iff.rfl

@[simp] theorem BooleanValue.fits_column (n : Nat) (c : List Bool) :
    (BooleanValue.column c).Fits n ↔ c.length = n := Iff.rfl

theorem zipWith_replicate_left {f : Bool → Bool → Bool} (x : Bool) (c : List Bool) :
    List.zipWith f (List.replicate c.length x) c = c.map (fun y => f x y) := by
  induction c with
  | nil => rfl
  | cons y c ih => simp [List.replicate_succ, ih]

theorem zipWith_replicate_right {f : Bool → Bool → Bool} (x : Bool) (c : List Bool) :
    List.zipWith f c (List.replicate c.length x) = c.map (fun y => f y x) := by
  induction c with
  | nil => rfl
  | cons y c ih => simp [List.replicate_succ, ih]

/-- A two-argument kernel computes `op` row by row on every pair of values that fit. -/
def RowWise (kernel : BooleanValue → BooleanValue → BooleanValue)
    (op : Bool → Bool → Bool) : Prop :=
  ∀ n a b, BooleanValue.Fits n a → BooleanValue.Fits n b →
    (kernel a b).broadcast n = List.zipWith op (a.broadcast n) (b.broadcast n)

theorem evalNot_broadcast (n : Nat) (a : BooleanValue) :
    (evalNot a).broadcast n = (a.broadcast n).map (!·) := by
  cases a <;> simp [evalNot]

/- Each kernel: split both arguments into `true`, `false` and a column, and name the block's
length after a column when there is one. -/

theorem evalAnd_rowWise : RowWise evalAnd (· && ·) := by
  rintro n ((_ | _) | c) ((_ | _) | d) ha hb <;> simp only [BooleanValue.fits_column, BooleanValue.fits_scalar] at ha hb <;>
    subst_vars <;> simp [evalAnd, zipWith_replicate_left, zipWith_replicate_right]

theorem evalOr_rowWise : RowWise evalOr (· || ·) := by
  rintro n ((_ | _) | c) ((_ | _) | d) ha hb <;> simp only [BooleanValue.fits_column, BooleanValue.fits_scalar] at ha hb <;>
    subst_vars <;> simp [evalOr, zipWith_replicate_left, zipWith_replicate_right]

theorem evalXor_rowWise : RowWise evalXor xor := by
  rintro n ((_ | _) | c) ((_ | _) | d) ha hb <;> simp only [BooleanValue.fits_column, BooleanValue.fits_scalar] at ha hb <;>
    subst_vars <;> simp [evalXor, zipWith_replicate_left, zipWith_replicate_right]

/-- **The scalar short-cuts agree with the bitmap operations.** For every block length `n` and
every pair of arguments that are scalars or columns of `n` bits, the kernels of `not`,
`and_filters`, `and`, `or` and `xor`, with their scalars broadcast, are the row-wise `¬`, `∧`,
`∧`, `∨` and `⊕` of the broadcast arguments. -/
theorem boolean_kernels_rowWise (n : Nat) (a b : BooleanValue) (ha : a.Fits n)
    (hb : b.Fits n) :
    (evalNot a).broadcast n = (a.broadcast n).map (!·) ∧
    (evalAndFilters a b).broadcast n = List.zipWith (· && ·) (a.broadcast n) (b.broadcast n) ∧
    (evalAnd a b).broadcast n = List.zipWith (· && ·) (a.broadcast n) (b.broadcast n) ∧
    (evalOr a b).broadcast n = List.zipWith (· || ·) (a.broadcast n) (b.broadcast n) ∧
    (evalXor a b).broadcast n = List.zipWith xor (a.broadcast n) (b.broadcast n) :=
  ⟨evalNot_broadcast n a, evalAnd_rowWise n a b ha hb, evalAnd_rowWise n a b ha hb,
    evalOr_rowWise n a b ha hb, evalXor_rowWise n a b ha hb⟩

theorem boolean_kernels_rowWise_scalar_column :
    (BooleanValue.scalar true).Fits 2 ∧ (BooleanValue.column [true, false]).Fits 2 ∧
    (evalXor (.scalar true) (.column [true, false])).broadcast 2 = [false, true] :=
  ⟨trivial, rfl,
    ((boolean_kernels_rowWise 2 (.scalar true) (.column [true, false]) trivial rfl).2.2.2.2).trans
      rfl⟩

/-! ## The domain closures are sound -/

/-- A two-argument domain closure is sound for `op`: on domains that hold `a` and `b`, a domain it
answers at type `Boolean` holds `op a b`. -/
def DomainSound2 (domain : Domain → Domain → FunctionDomain) (op : Bool → Bool → Bool) : Prop :=
  ∀ d1 d2 d a b, d1.contains (.boolean a) = true → d2.contains (.boolean b) = true →
    (domain d1 d2).toDomain .boolean = some d → d.contains (.boolean (op a b)) = true

/- Each closure: split on whether both sides are Boolean domains, then on the two values. -/

theorem calcDomainAnd_sound : DomainSound2 calcDomainAnd (· && ·) := by
  intro d1 d2 d a b h1 h2 hd
  unfold calcDomainAnd at hd
  split at hd <;> simp only [FunctionDomain.toDomain, Option.some.injEq] at hd <;> subst hd
  · cases a <;> cases b <;> simp_all [Domain.contains]
  · exact Domain.full_contains rfl

theorem calcDomainOr_sound : DomainSound2 calcDomainOr (· || ·) := by
  intro d1 d2 d a b h1 h2 hd
  unfold calcDomainOr at hd
  split at hd <;> simp only [FunctionDomain.toDomain, Option.some.injEq] at hd <;> subst hd
  · cases a <;> cases b <;> simp_all [Domain.contains]
  · exact Domain.full_contains rfl

theorem evalAnd_scalar (a b : Bool) : evalAnd (.scalar a) (.scalar b) = .scalar (a && b) := by
  cases a <;> cases b <;> rfl

theorem evalOr_scalar (a b : Bool) : evalOr (.scalar a) (.scalar b) = .scalar (a || b) := by
  cases a <;> cases b <;> rfl

theorem function2_eval_boolean {name : String} {domain : Domain → Domain → FunctionDomain}
    {eval : BooleanValue → BooleanValue → BooleanValue} {op : Bool → Bool → Bool}
    (heval : ∀ a b, eval (.scalar a) (.scalar b) = .scalar (op a b)) (a b : Bool) :
    (function2 name domain eval).eval [.boolean a, .boolean b] = .ok (.boolean (op a b)) := by
  simp only [function2, heval]
  rfl

/-- A two-argument Boolean function is sound when its kernel computes `op` on scalars and its
domain closure is sound for `op`. -/
theorem function2_domainSound {name : String} {domain : Domain → Domain → FunctionDomain}
    {eval : BooleanValue → BooleanValue → BooleanValue} {op : Bool → Bool → Bool}
    (heval : ∀ a b, eval (.scalar a) (.scalar b) = .scalar (op a b))
    (hdomain : DomainSound2 domain op) :
    (function2 name domain eval).DomainSound [.boolean, .boolean] .boolean := by
  rintro _ (_ | ⟨h1, _ | ⟨h2, _ | _⟩⟩)
  obtain ⟨a, rfl⟩ := (Scalar.hasType_boolean _).mp h1
  obtain ⟨b, rfl⟩ := (Scalar.hasType_boolean _).mp h2
  refine ⟨fun v hv => ?_, fun ds d hds hd => ⟨_, function2_eval_boolean heval a b, ?_⟩⟩
  · rw [function2_eval_boolean heval] at hv
    cases hv
    rfl
  · rcases hds with _ | @⟨d1, _, _, _, c1, _ | @⟨d2, _, _, _, c2, _ | _⟩⟩
    exact hdomain d1 d2 d a b c1 c2 hd

theorem andFunction_domainSound : andFunction.DomainSound [.boolean, .boolean] .boolean :=
  function2_domainSound evalAnd_scalar calcDomainAnd_sound

theorem orFunction_eval_boolean (a b : Bool) :
    orFunction.eval [.boolean a, .boolean b] = .ok (.boolean (a || b)) :=
  function2_eval_boolean evalOr_scalar a b

theorem orFunction_domainSound : orFunction.DomainSound [.boolean, .boolean] .boolean :=
  function2_domainSound evalOr_scalar calcDomainOr_sound

end Datafuse.Boolean
