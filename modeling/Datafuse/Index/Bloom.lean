import Datafuse.Expression.Block
import Datafuse.Index.Visit

set_option autoImplicit false

/-! # The block filter index

`BlockFilter` (`bloom.rs`): one probabilistic filter per column of a data block whose type
supports it, stored as the serialised bytes of each filter in a one-row block of strings whose
field for column `c` is named `Bloom(c)`.

* `BlockFilter.tryCreate` builds the filters over a list of blocks.
* `BlockFilter.find` answers whether a column may hold a constant.
* `BlockFilter.eval` rewrites every comparison `column = constant` that `find` rules out to
  `false`, folds the predicate and answers `MustFalse` when it folds to `false`.
* `BlockFilter.findEqColumns` lists the comparisons once per query, so that the caller can
  compute the constants' digests once (`scalarMapOf`).

What the file takes from outside is a parameter (`IndexEnv`): the filter family of
`crate::filters`, the digest `siphash` that the function registry computes, and the version
tag `V2BloomBlock::VERSION` of the older format whose filters hold typed values.
-/

namespace Datafuse

/-- The operations of the filter family `Xor8Filter` / `Xor8Builder` that the index calls. -/
structure FilterOps (Filter : Type) where
  /-- `Xor8Builder::create`, `add_digests` and `build`. -/
  build : List UInt64 → Result Filter
  /-- `Filter::len`: the number of distinct digests, when the family keeps it. -/
  len : Filter → Option Nat
  toBytes : Filter → Result (List UInt8)
  fromBytes : List UInt8 → Result (Filter × Nat)
  /-- `contains(&scalar_to_datavalue(v))`: the membership test of the typed-value format. -/
  contains : Filter → Scalar → Bool
  containsDigest : Filter → UInt64 → Bool

/-- The filter family reports every digest a filter was built from, also after a round trip
through its bytes. -/
def FilterOps.NoFalseNegatives {Filter : Type} (ops : FilterOps Filter) : Prop :=
  ∀ ds filter bytes, ops.build ds = .ok filter → ops.toBytes filter = .ok bytes →
    ∃ filter' n, ops.fromBytes bytes = .ok (filter', n) ∧
      ∀ d ∈ ds, ops.containsDigest filter' d = true

/-- The filter family answers "present", after a round trip through its bytes, for exactly the
digests a filter was built from: it has no false positives either. -/
def FilterOps.Exact {Filter : Type} (ops : FilterOps Filter) : Prop :=
  ∀ ds filter bytes, ops.build ds = .ok filter → ops.toBytes filter = .ok bytes →
    ∃ filter' n, ops.fromBytes bytes = .ok (filter', n) ∧
      ∀ d, ops.containsDigest filter' d = true ↔ d ∈ ds

/-- The filter family builds a filter from every list of digests and serialises every filter. -/
def FilterOps.Total {Filter : Type} (ops : FilterOps Filter) : Prop :=
  (∀ ds, ∃ filter, ops.build ds = .ok filter) ∧ ∀ filter, ∃ bytes, ops.toBytes filter = .ok bytes

/-- The filter family reads back the bytes of every filter it builds. -/
def FilterOps.ReadsBack {Filter : Type} (ops : FilterOps Filter) : Prop :=
  ∀ ds filter bytes, ops.build ds = .ok filter → ops.toBytes filter = .ok bytes →
    ∃ r, ops.fromBytes bytes = .ok r

theorem FilterOps.Exact.noFalseNegatives {Filter : Type} {ops : FilterOps Filter}
    (h : ops.Exact) : ops.NoFalseNegatives := fun ds filter bytes hbuild hbytes =>
  let ⟨filter', n, hfrom, hiff⟩ := h ds filter bytes hbuild hbytes
  ⟨filter', n, hfrom, fun d hd => (hiff d).mpr hd⟩

/-- What `bloom.rs` takes from outside the file. -/
structure IndexEnv (Filter : Type) where
  filter : FilterOps Filter
  /-- The `siphash` function of the registry on one value. -/
  siphash : Scalar → UInt64
  /-- `V2BloomBlock::VERSION`. -/
  v2BloomBlockVersion : UInt64

/-- Modelled from the spec: `Xor8Filter::is_supported_type`, "numeric, string, date/time,
boolean — not nested/structured types", nullable or not. -/
def isSupportedType (ty : DataType) : Bool :=
  match ty.removeNullable with
  | .number | .string | .date | .timestamp | .boolean => true
  | _ => false

/-- `FilterEvalResult`. -/
inductive FilterEvalResult where
  | mustFalse
  | uncertain
  deriving DecidableEq, Repr

/-- `BlockFilter`, without the function context that only the external evaluator reads. -/
structure BlockFilter where
  sourceSchema : TableSchema
  filterSchema : TableSchema
  version : UInt64
  filterBlock : DataBlock
  columnDistinctCount : HashMap Nat Nat

namespace BlockFilter

/-- `BlockFilter::build_filter_column_name`. -/
def buildFilterColumnName (columnName : String) : String :=
  "Bloom(" ++ columnName ++ ")"

/-- `BlockFilter::from_filter_block`: a filter loaded from storage. -/
def fromFilterBlock (sourceSchema filterSchema : TableSchema) (filterBlock : DataBlock)
    (version : UInt64) : Result BlockFilter :=
  .ok { sourceSchema, filterSchema, version, filterBlock, columnDistinctCount := .empty }

variable {F : Type} (env : IndexEnv F)

/-! ## `find` -/

/-- The serialised filter at an offset of the filter block: the string scalar, or the first
row of a string column. -/
def filterBytesAt (block : DataBlock) (idx : Nat) : Result (List UInt8) := do
  let entry ← block.getByOffset idx
  match entry.value with
  | .scalar (.string bytes) => .ok bytes
  | .column (.string bytes :: _) => .ok bytes
  | _ => .error (.panic "called `Option::unwrap()` on a `None` value")

/-- The filter `find` reads for a filter field: its position in the filter schema, its bytes
in the filter block, deserialised. -/
def filterOf (f : BlockFilter) (filterColumn : String) : Result F := do
  let idx ← f.filterSchema.indexOf filterColumn
  let bytes ← filterBytesAt f.filterBlock idx
  let (filter, _) ← env.filter.fromBytes bytes
  pure filter

/-- A filter field `filterOf` reads is a field of the filter schema. -/
theorem hasField_of_filterOf {f : BlockFilter} {filterColumn : String} {filter : F}
    (h : f.filterOf env filterColumn = .ok filter) :
    f.filterSchema.hasField filterColumn = true := by
  obtain ⟨idx, hidx, -⟩ := bind_eq_ok h
  exact TableSchema.hasField_of_indexOf hidx

/-- The membership test `find` makes on a filter: the typed value in the `V2BloomBlock`
format, otherwise the digest that `scalar_map` holds, a missing entry counting as present. -/
def contains (f : BlockFilter) (filter : F) (target : Scalar)
    (scalarMap : HashMap Scalar UInt64) : Bool :=
  if f.version = env.v2BloomBlockVersion then env.filter.contains filter target
  else
    match scalarMap.get target with
    | some digest => env.filter.containsDigest filter digest
    | none => true

/-- `BlockFilter::find`: `MustFalse` when the column's filter rules the constant out. -/
def find (f : BlockFilter) (columnName : String) (target : Scalar) (ty : DataType)
    (scalarMap : HashMap Scalar UInt64) : Result FilterEvalResult :=
  let filterColumn := buildFilterColumnName columnName
  if !f.filterSchema.hasField filterColumn || !isSupportedType ty || target.isNull then
    .ok .uncertain
  else do
    let filter ← f.filterOf env filterColumn
    pure (if f.contains env filter target scalarMap then .uncertain else .mustFalse)

/-- `find` rules a constant out exactly when the column has a filter, the type is supported,
the constant is not `NULL`, and the column's filter answers "absent". -/
theorem find_eq_mustFalse {f : BlockFilter} {col : String} {c : Scalar} {ty : DataType}
    {m : HashMap Scalar UInt64} :
    f.find env col c ty m = .ok .mustFalse ↔
      f.filterSchema.hasField (buildFilterColumnName col) = true ∧ isSupportedType ty = true ∧
        c ≠ .null ∧ ∃ filter, f.filterOf env (buildFilterColumnName col) = .ok filter ∧
          f.contains env filter c m = false := by
  unfold find
  by_cases hg : (!f.filterSchema.hasField (buildFilterColumnName col) || !isSupportedType ty ||
      c.isNull) = true
  · simp only [hg, if_true]
    simp only [Bool.or_eq_true, Bool.not_eq_true', Scalar.isNull_iff] at hg
    constructor
    · intro h; cases h
    · rintro ⟨h1, h2, h3, -⟩
      rcases hg with (hg | hg) | hg <;> simp_all
  · simp only [hg, if_false]
    simp only [Bool.or_eq_true, Bool.not_eq_true', Scalar.isNull_iff, not_or,
      Bool.not_eq_false] at hg
    obtain ⟨⟨h1, h2⟩, h3⟩ := hg
    cases hf : f.filterOf env (buildFilterColumnName col) with
    | error err => simp [bind, Except.bind]
    | ok filter =>
        by_cases hc : f.contains env filter c m = true <;>
          simp [bind, Except.bind, pure, Except.pure, hc, h1, h2, h3]

/-- Once `find` reads a filter that answers "present", it answers `Uncertain`. -/
theorem find_of_contains {f : BlockFilter} {col : String} {c : Scalar} {ty : DataType}
    {m : HashMap Scalar UInt64} {filter : F}
    (hf : f.filterOf env (buildFilterColumnName col) = .ok filter)
    (hc : f.contains env filter c m = true) :
    f.find env col c ty m = .ok .uncertain := by
  unfold find
  dsimp only
  split
  · rfl
  · simp [hf, hc, bind, Except.bind, pure, Except.pure]

/-- `find` reads the digest table only at a constant other than `NULL` compared at a supported
type. -/
theorem find_congr_scalarMap {f : BlockFilter} {col : String} {c : Scalar} {ty : DataType}
    {m m' : HashMap Scalar UInt64}
    (h : isSupportedType ty = true → c ≠ .null → m.get c = m'.get c) :
    f.find env col c ty m = f.find env col c ty m' := by
  unfold find
  dsimp only
  split
  · rfl
  · rename_i hg
    simp only [Bool.or_eq_true, Bool.not_eq_true', Scalar.isNull_iff, not_or,
      Bool.not_eq_false] at hg
    simp only [contains, h hg.1.2 hg.2]

/-! ## `eval` and `find_eq_columns` -/

/-- The callback of `eval`: a comparison that `find` rules out becomes the constant `false`
of the comparison's type. -/
def evalVisitor (f : BlockFilter) (scalarMap : HashMap Scalar UInt64) : Visitor Unit :=
  fun _ a =>
    ((), (f.find env a.column a.scalar a.dataType scalarMap).map fun r =>
      if r = .mustFalse then some (.constant a.span (.boolean false) a.returnType) else none)

/-- The predicate after `eval`'s rewrite. -/
def rewrite (f : BlockFilter) (expr : Expr) (scalarMap : HashMap Scalar UInt64) :
    Result Expr :=
  (visitExprColumnEqConstant (f.evalVisitor env scalarMap) () expr).2

/-- A comparison `find` rules out is rewritten to the constant `false` of its type. -/
theorem rewrite_eqCall {f : BlockFilter} {span : Span} {fn : Function} {args : List Expr}
    {rt : DataType} {col : String} {c : Scalar} {ty : DataType} {m : HashMap Scalar UInt64}
    (hcall : eqCall fn args = some (col, c, ty)) (hfind : f.find env col c ty m = .ok .mustFalse) :
    f.rewrite env (.functionCall span fn args rt) m = .ok (.constant span (.boolean false) rt) := by
  simp only [rewrite, visitExprColumnEqConstant, hcall, evalVisitor, hfind]
  rfl

/-- `BlockFilter::eval`, with the constant folder it calls. -/
def eval (fold : Expr → Expr) (f : BlockFilter) (expr : Expr)
    (scalarMap : HashMap Scalar UInt64) : Result FilterEvalResult := do
  let expr' ← f.rewrite env expr scalarMap
  match fold expr' with
  | .constant _ (.boolean false) _ => pure .mustFalse
  | _ => pure .uncertain

/-- `eval` prunes exactly when the rewrite succeeds and the folder folds its result to `false`. -/
theorem eval_eq_mustFalse {fold : Expr → Expr} {f : BlockFilter} {expr : Expr}
    {scalarMap : HashMap Scalar UInt64} :
    f.eval env fold expr scalarMap = .ok .mustFalse ↔
      ∃ e' span ty, f.rewrite env expr scalarMap = .ok e' ∧
        fold e' = .constant span (.boolean false) ty := by
  unfold eval
  constructor
  · intro h
    obtain ⟨e', hrw, h⟩ := bind_eq_ok h
    split at h
    · exact ⟨e', _, _, hrw, ‹_›⟩
    · cases h
  · rintro ⟨e', span, ty, hrw, hf⟩
    simp only [hrw, hf, bind, Except.bind]
    rfl

/-- The callback of `find_eq_columns`: it collects the comparisons of a supported type with
a constant that is not `NULL`, and rewrites nothing. -/
def findEqColumnsVisitor : Visitor (List (String × Scalar × DataType)) :=
  fun cols a =>
    (if isSupportedType a.dataType && !a.scalar.isNull then
      cols ++ [(a.column, a.scalar, a.dataType)] else cols, .ok none)

/-- `BlockFilter::find_eq_columns`. -/
def findEqColumns (expr : Expr) : Result (List (String × Scalar × DataType)) :=
  let (cols, r) := visitExprColumnEqConstant findEqColumnsVisitor [] expr
  r.map fun _ => cols

/-- The comparisons `find_eq_columns` keeps: a supported type, a constant other than `NULL`. -/
def keepsEq (a : EqAtom) : Bool :=
  isSupportedType a.dataType && !a.scalar.isNull

theorem visitAll_findEqColumnsVisitor (cols : List (String × Scalar × DataType))
    (as : List EqAtom) :
    visitAll findEqColumnsVisitor cols as =
      (cols ++ (as.filter keepsEq).map fun a => (a.column, a.scalar, a.dataType), .ok ()) := by
  induction as generalizing cols with
  | nil => simp [visitAll]
  | cons a as ih =>
      simp only [visitAll, findEqColumnsVisitor, ih, List.filter_cons, keepsEq]
      split <;> simp_all

/-- `find_eq_columns` succeeds on every expression and lists, in walk order, the comparisons
of a supported type with a constant other than `NULL`. -/
theorem findEqColumns_eq (e : Expr) :
    findEqColumns e =
      .ok (((eqAtoms e).filter keepsEq).map fun a => (a.column, a.scalar, a.dataType)) := by
  have h := visit_eq_visitAll findEqColumnsVisitor [] e
  rw [visitAll_findEqColumnsVisitor, List.nil_append] at h
  unfold findEqColumns
  rcases hv : visitExprColumnEqConstant findEqColumnsVisitor [] e with ⟨cols, _ | e'⟩ <;>
    simp_all [forget, Except.map]

/-- Modelled from the spec: the per-query digest table, "precomputed once per query across
all blocks": every constant `find_eq_columns` lists, mapped to its digest. -/
def scalarMapOf (cols : List (String × Scalar × DataType)) : HashMap Scalar UInt64 :=
  cols.foldl (fun m c => m.insert c.2.1 (env.siphash c.2.1)) .empty

theorem scalarMapOf_get (cols : List (String × Scalar × DataType)) (s : Scalar) :
    (scalarMapOf env cols).get s =
      if s ∈ cols.map (·.2.1) then some (env.siphash s) else none := by
  suffices h : ∀ m : HashMap Scalar UInt64,
      (cols.foldl (fun m c => m.insert c.2.1 (env.siphash c.2.1)) m).get s =
        if s ∈ cols.map (·.2.1) then some (env.siphash s) else m.get s by
    simpa using h .empty
  induction cols with
  | nil => simp
  | cons c cols ih =>
      intro m
      rw [List.foldl_cons, ih, HashMap.get_insert]
      simp only [List.map_cons, List.mem_cons]
      by_cases h1 : s ∈ cols.map (·.2.1)
      · simp only [h1, if_true, or_true]
      · by_cases h2 : s = c.2.1
        · simp only [h1, h2, if_true, true_or, ite_self]
        · simp only [h1, h2, if_false, or_self]

/-- The digest table maps every scalar it holds to that scalar's digest. -/
theorem scalarMapOf_digest {cols : List (String × Scalar × DataType)} {s : Scalar} {d : UInt64}
    (h : (scalarMapOf env cols).get s = some d) : d = env.siphash s := by
  rw [scalarMapOf_get] at h
  split at h <;> simp_all

/-! ## `try_create` -/

/-- `calculate_column_digest`: `siphash` on every row, with the rows' validity when the
target type is nullable. -/
def calculateColumnDigest (column : List Scalar) (targetType : DataType) :
    Result (List UInt64 × Option (List Bool)) :=
  .ok (column.map env.siphash,
    if targetType.isNullable then some (column.map fun v => !v.isNull) else none)

/-- `calculate_scalar_digest`. -/
def calculateScalarDigest (scalar : Scalar) : Result UInt64 :=
  .ok (env.siphash scalar)

/-- The plain path the per-query table stands for: every constant's digest computed by
`calculate_scalar_digest` where `find` looks it up. -/
def inlineDigests : HashMap Scalar UInt64 := fun s => (calculateScalarDigest env s).toOption

/-- The digests a column's filter is built from: the row digests, with `0` at the rows the
validity marks `NULL` when there is one. -/
def filterDigests (digests : List UInt64) (validity : Option (List Bool)) : List UInt64 :=
  match validity with
  | some v => if v.any (!·) then List.zipWith (fun d b => if !b then 0 else d) digests v
      else digests
  | none => digests

/-- The columns of a block whose type the filter supports, with their offsets and types. -/
def supportedColumns (b : DataBlock) : List (Nat × DataType) :=
  (b.columns.enum.filter fun p => isSupportedType p.2.dataType).map fun p =>
    (p.1, p.2.dataType)

/-- The closure of the first loop of `try_create` on one block: the entry at offset `i` made a
full column at `dataType` by `value.convert_to_full_column(data_type, block.num_rows())`, with
its layout. -/
def fullColumnAt (block : DataBlock) (i : Nat) (dataType : DataType) :
    Result (DataType × List Scalar) := do
  let entry ← block.getByOffset i
  pure (entry.fullColumnType dataType, entry.value.convertToFullColumn block.numRows)

/-- The first loop of `try_create` on a supported column `i` of type `dataType`: its field (the
source name and the digest type), and its values over all blocks, each block's entry made a full
column at `dataType` and the columns joined by `Column::concat`. -/
def sourceColumn (sourceSchema : TableSchema) (blocks : List DataBlock) (i : Nat)
    (dataType : DataType) : Result (TableField × List Scalar) := do
  let sourceField ← sourceSchema.field i
  let returnType := if dataType.isNullable then DataType.nullable .number else .number
  let sourceColumns ← blocks.mapM fun block => fullColumnAt block i dataType
  let column ← Column.concat sourceColumns
  pure (⟨sourceField.name, returnType⟩, column)

/-- The distinct count the second loop of `try_create` records for a filter, when the filter
keeps one: under the position of the column's name in the source schema, found by an
`index_of(..).unwrap()`. -/
def distinctCountOf (sourceSchema : TableSchema) (field : TableField) (filter : F) :
    Result (Option (Nat × Nat)) :=
  match env.filter.len filter with
  | some len =>
      match sourceSchema.indexOf field.name with
      | .ok idx => .ok (some (idx, len))
      | .error _ => .error (.panic "called `Result::unwrap()` on an `Err` value")
  | none => .ok none

/-- The second loop of `try_create` on one column: the filter field, the serialised filter,
and the distinct count keyed by the source position when the filter has one. -/
def buildColumnFilter (sourceSchema : TableSchema) (field : TableField)
    (column : List Scalar) : Result (TableField × List UInt8 × Option (Nat × Nat)) := do
  let (digests, validity) ← calculateColumnDigest env column field.dataType
  let filter ← env.filter.build (filterDigests digests validity)
  let count ← distinctCountOf env sourceSchema field filter
  let bytes ← env.filter.toBytes filter
  pure (⟨buildFilterColumnName field.name, .string⟩, bytes, count)

/-- One step of `column_distinct_count`'s loop: a filter that keeps its distinct count records it
under the source position of its column. -/
def insertDistinctCount (m : HashMap Nat Nat)
    (built : TableField × List UInt8 × Option (Nat × Nat)) : HashMap Nat Nat :=
  match built.2.2 with
  | some (idx, len) => m.insert idx len
  | none => m

/-- `column_distinct_count` after the second loop of `try_create`. -/
def distinctCounts (built : List (TableField × List UInt8 × Option (Nat × Nat))) :
    HashMap Nat Nat :=
  built.foldl insertDistinctCount .empty

/-- `BlockFilter::try_create`. -/
def tryCreate (sourceSchema : TableSchema) (version : UInt64) (blocks : List DataBlock) :
    Result (Option BlockFilter) :=
  match blocks with
  | [] => .error (.badArguments "block is empty")
  | b0 :: _ => do
      let columns ← (supportedColumns b0).mapM fun c =>
        sourceColumn sourceSchema blocks c.1 c.2
      if columns.isEmpty then pure none
      else do
        let built ← columns.mapM fun c => buildColumnFilter env sourceSchema c.1 c.2
        pure (some {
          sourceSchema, version
          filterSchema := ⟨built.map (·.1)⟩
          filterBlock := ⟨built.map fun b => ⟨.string, .scalar (.string b.2.1)⟩, 1⟩
          columnDistinctCount := distinctCounts built })

end BlockFilter

/-! ## A filter family that answers exactly

The member of the family without false positives: a filter is the list of its digests,
serialised as eight little-endian bytes each. It has no false negatives either, and serves
to evaluate the index on concrete blocks. -/

/-- Reading back eight little-endian bytes per digest. -/
def readDigests : List UInt8 → List UInt64
  | b0 :: b1 :: b2 :: b3 :: b4 :: b5 :: b6 :: b7 :: rest =>
      UInt64.ofNat (fromLeBytes [b0, b1, b2, b3, b4, b5, b6, b7]) :: readDigests rest
  | _ => []

/-- The filter family that answers exactly, with a digest for its typed-value test. -/
def exactFilter (siphash : Scalar → UInt64) : FilterOps (List UInt64) where
  build ds := .ok ds
  len ds := some ds.dedup.length
  toBytes ds := .ok (ds.flatMap fun d => toLeBytes 8 d.toNat)
  fromBytes bytes := .ok (readDigests bytes, bytes.length)
  contains ds v := ds.contains (siphash v)
  containsDigest ds d := ds.contains d

theorem readDigests_append {l : List UInt8} (h : l.length = 8) (rest : List UInt8) :
    readDigests (l ++ rest) = UInt64.ofNat (fromLeBytes l) :: readDigests rest := by
  match l, h with
  | [_, _, _, _, _, _, _, _], _ => rfl

/-- The bytes of a list of digests read back to the list. -/
theorem readDigests_flatMap (ds : List UInt64) :
    readDigests (ds.flatMap fun d => toLeBytes 8 d.toNat) = ds := by
  induction ds with
  | nil => rfl
  | cons d ds ih =>
      rw [List.flatMap_cons, readDigests_append (length_toLeBytes 8 _), ih,
        fromLeBytes_toLeBytes, uInt64_ofNat_toNat_mod]

theorem exactFilter_exact (siphash : Scalar → UInt64) : (exactFilter siphash).Exact := by
  rintro ds _ _ ⟨⟩ ⟨⟩
  refine ⟨ds, (ds.flatMap fun d => toLeBytes 8 d.toNat).length, ?_, fun d => by
    simp [exactFilter]⟩
  simp only [exactFilter, readDigests_flatMap]

theorem exactFilter_noFalseNegatives (siphash : Scalar → UInt64) :
    (exactFilter siphash).NoFalseNegatives :=
  (exactFilter_exact siphash).noFalseNegatives

theorem exactFilter_readsBack (siphash : Scalar → UInt64) : (exactFilter siphash).ReadsBack :=
  fun _ _ _ _ _ => ⟨_, rfl⟩

end Datafuse
