import Datafuse.Basic
import Mathlib.Data.List.Basic

set_option autoImplicit false

/-! # Functions written one row at a time

The harness of `common_expression` that `boolean.rs`'s conversions are written against. The crate
is not among the source files and the spec does not describe it: the definitions below follow
that crate's code as `boolean.rs` calls it, and are labelled so.

* `TypedValue`: a `Value<T>` or `ValueRef<T>`, one value for all rows or a column.
* `EvalContext.setError`: a row function reports an error on a row. The first error creates the
  bitmap of valid rows, all set, and keeps its message; every error clears its row; a row that the
  validity of an outer nullable argument marks `NULL` is not an error.
* `vectorizeWithBuilder1Arg`: the row function is called once per row, with the output builder
  and the context, and the builder becomes the result.
* `errorToNull`: the errors a function recorded become the validity of a nullable result.

`vectorizeWithBuilder1Arg_column` is the run lemma of the loop: on a column, the result is the
row function's steps run one after the other over the rows.
-/

namespace Datafuse

/-! ## Values and builders -/

/-- `Value<T>` of an argument type whose scalars are `α`: one value for all rows, or a column. -/
inductive TypedValue (α : Type) where
  | scalar (a : α)
  | column (c : List α)
  deriving DecidableEq, Repr

/-- `Value<NullableType<T>>`: a scalar that may be `NULL`, or a column with its validity bitmap. -/
inductive NullableValue (α : Type) where
  | scalar (a : Option α)
  | column (c : List α) (validity : List Bool)
  deriving DecidableEq, Repr

/-- What `vectorize_with_builder_1_arg` needs of an output type: an empty builder
(`create_builder`), and how a builder becomes a column (`build_column`) or, when it holds one
value, a scalar (`build_scalar`). -/
structure BuilderOps (β α : Type) where
  create : β
  buildColumn : β → List α
  buildScalar : β → Result α

/-- `BooleanType`'s builder, a `MutableBitmap`: the bits pushed so far. `build_scalar` asserts
that it holds one bit. -/
def booleanBuilder : BuilderOps (List Bool) Bool where
  create := []
  buildColumn := id
  buildScalar
    | [b] => .ok b
    | _ => .error (.panic "assertion failed: builder.len() == 1")

/-- `StringColumnBuilder`: the rows committed so far, as the offsets delimit them in the data
buffer, and the bytes `put_str` has written to the row not yet committed. -/
structure StringColumnBuilder where
  rows : List (List UInt8)
  pending : List UInt8
  deriving DecidableEq, Repr

/-- `StringColumnBuilder::put_str`. -/
def StringColumnBuilder.putStr (b : StringColumnBuilder) (s : List UInt8) : StringColumnBuilder :=
  { b with pending := b.pending ++ s }

/-- `StringColumnBuilder::commit_row`. -/
def StringColumnBuilder.commitRow (b : StringColumnBuilder) : StringColumnBuilder :=
  ⟨b.rows ++ [b.pending], []⟩

/-- `StringType`'s builder. `build_scalar` asserts that it holds one row. -/
def stringBuilder : BuilderOps StringColumnBuilder (List UInt8) where
  create := ⟨[], []⟩
  buildColumn := StringColumnBuilder.rows
  buildScalar b :=
    match b.rows with
    | [s] => .ok s
    | _ => .error (.panic "assertion failed: self.offsets.len() == 2")

/-! ## The evaluation context -/

/-- `EvalContext`, with the fields a row function reads and writes: the number of rows of the
block, the validity of an outer nullable argument, and the errors recorded so far (the bitmap of
rows without an error, and the first message). -/
structure EvalContext where
  numRows : Nat
  validity : Option (List Bool)
  errors : Option (List Bool × String)
  deriving DecidableEq, Repr

/-- `MutableBitmap::set`: out of range, it panics. -/
def bitmapSet (bits : List Bool) (i : Nat) (b : Bool) : Result (List Bool) :=
  if i < bits.length then .ok (bits.set i b)
  else .error (.panic "assertion failed: index < self.len()")

/-- Whether the validity of an outer nullable argument marks a row `NULL`. A row beyond the
bitmap counts as valid. -/
def EvalContext.isNullRow (ctx : EvalContext) (row : Nat) : Bool :=
  match ctx.validity with
  | some bits => !bits.getD row true
  | none => false

/-- `EvalContext::set_error`, following `common_expression` (not among the source files, not
described by the spec): a row the outer validity marks `NULL` is left alone; otherwise the first
error creates the bitmap of valid rows, all set, over at least one row, and keeps its message, and
every error clears its row's bit. -/
def EvalContext.setError (ctx : EvalContext) (row : Nat) (msg : String) : Result EvalContext :=
  if ctx.isNullRow row then .ok ctx
  else
    match ctx.errors with
    | some (valids, first) => do
        let valids ← bitmapSet valids row false
        pure { ctx with errors := some (valids, first) }
    | none => do
        let valids ← bitmapSet (List.replicate (max ctx.numRows 1) true) row false
        pure { ctx with errors := some (valids, msg) }

/-! ## The vectorised loop -/

section Vectorize

variable {ι β α : Type}

/-- One call of the row function, as the loop over a column makes it. -/
def rowStep (func : ι → β → EvalContext → Result (β × EvalContext))
    (acc : β × EvalContext) (v : ι) : Result (β × EvalContext) :=
  func v acc.1 acc.2

/-- `vectorize_with_builder_1_arg`, following `common_expression` (not among the source files,
not described by the spec): on a scalar, one call on a fresh builder and its one value; on a
column, one call per row, in order, on one builder. -/
def vectorizeWithBuilder1Arg (ops : BuilderOps β α)
    (func : ι → β → EvalContext → Result (β × EvalContext)) (val : TypedValue ι)
    (ctx : EvalContext) : Result (TypedValue α × EvalContext) :=
  match val with
  | .scalar v => do
      let (builder, ctx) ← func v ops.create ctx
      let s ← ops.buildScalar builder
      pure (.scalar s, ctx)
  | .column col => do
      let (builder, ctx) ← col.foldlM (rowStep func) (ops.create, ctx)
      pure (.column (ops.buildColumn builder), ctx)

/-- **The loop on a column**: the row function's steps, run over the rows from the empty builder,
and the builder as a column. -/
theorem vectorizeWithBuilder1Arg_column (ops : BuilderOps β α)
    (func : ι → β → EvalContext → Result (β × EvalContext)) (col : List ι) (ctx : EvalContext) :
    vectorizeWithBuilder1Arg ops func (.column col) ctx =
      (col.foldlM (rowStep func) (ops.create, ctx)).map
        fun acc => (.column (ops.buildColumn acc.1), acc.2) := by
  simp only [vectorizeWithBuilder1Arg]
  cases col.foldlM (rowStep func) (ops.create, ctx) <;> rfl

end Vectorize

/-- `error_to_null`, following `common_expression` (not among the source files, not described by
the spec): the function's result, made nullable. If it recorded errors, they are taken
out of the context and a scalar becomes `NULL`, a column gets the bitmap of rows without an error
as its validity; otherwise every row is valid. -/
def errorToNull {ι α : Type}
    (func : TypedValue ι → EvalContext → Result (TypedValue α × EvalContext))
    (val : TypedValue ι) (ctx : EvalContext) : Result (NullableValue α × EvalContext) := do
  let (output, ctx) ← func val ctx
  match ctx.errors, output with
  | some _, .scalar _ => pure (.scalar none, { ctx with errors := none })
  | some (validity, _), .column column =>
      pure (.column column validity, { ctx with errors := none })
  | none, .scalar s => pure (.scalar (some s), ctx)
  | none, .column column => pure (.column column (List.replicate column.length true), ctx)

end Datafuse
