import Datafuse.Index.Build
import Datafuse.Expression.Eval
import Datafuse.Functions.Boolean

set_option autoImplicit false

/-! # Pruning with the block filter index

Properties of `BlockFilter.eval`.

* The digest table the caller builds once per query from `find_eq_columns` covers every lookup
  `eval` makes (`eval_lookups_in_scalarMap`): the walk hands `eval`'s callback the comparisons
  it hands `find_eq_columns`'s, in the same order, whatever `eval` rewrites on the way.
* A block `eval` prunes holds no row on which the predicate is true, as long as the columns the
  predicate compares with constants are not `NULL` on that row (`eval_mustFalse_sound`). On a
  row where such a column is `NULL` the comparison is `NULL` and not `false`, and a context that
  tells the two apart, such as `is_not_null`, makes the rewrite change the predicate's value.
  `eval` then prunes a block with a matching row (`eval_mustFalse_on_null_row`), against its
  doc comment, which promises `MustFalse` only when the expression must be false.
* The per-query digest table prunes as digests computed at every lookup would
  (`eval_scalarMapOf_eq_inline`), and a digest missing from the table never prunes: with an
  empty table `eval` answers what the folder makes of the predicate alone
  (`eval_empty_scalarMap`).
* `eval` fails exactly where `find` fails, with the error of the first failing comparison in
  the order of the walk (`eval_eq_error_iff`).
-/

namespace Datafuse

open BlockFilter

variable {F : Type} (env : IndexEnv F)

/-! ## The digest table covers every lookup -/

/-- **The per-query digest table never misses.** On every predicate, `find_eq_columns`'s
callback is handed all the comparisons of the walk (`eqAtoms e`), and `eval`'s callback, whatever
filter and table it consults, is handed the same comparisons in the same order: a prefix of them
if a lookup fails, all of them otherwise. Every comparison `eval` looks up with a supported type
and a constant other than `NULL` is one `find_eq_columns` returns, and the table built from
them holds its digest. -/
theorem eval_lookups_in_scalarMap (f : BlockFilter) (m : HashMap Scalar UInt64) (e : Expr) :
    callsOf findEqColumnsVisitor [] e = eqAtoms e ∧
    callsOf (f.evalVisitor env m) () e <+: eqAtoms e ∧
    (∀ e', f.rewrite env e m = .ok e' → callsOf (f.evalVisitor env m) () e = eqAtoms e) ∧
    ∃ cols, findEqColumns e = .ok cols ∧
      ∀ a ∈ callsOf (f.evalVisitor env m) () e, isSupportedType a.dataType = true →
        a.scalar ≠ .null → (a.column, a.scalar, a.dataType) ∈ cols ∧
          (scalarMapOf env cols).get a.scalar = some (env.siphash a.scalar) := by
  have hfind := visit_eq_visitAll findEqColumnsVisitor [] e
  rw [visitAll_findEqColumnsVisitor] at hfind
  obtain ⟨hpre, hall⟩ := callsOf_spec (f.evalVisitor env m) () e
  refine ⟨?_, hpre, hall, _, findEqColumns_eq e, fun a ha hty hnull => ?_⟩
  · rcases hv : visitExprColumnEqConstant findEqColumnsVisitor [] e with ⟨cols, _ | e'⟩
    · simp [hv, forget, Except.map] at hfind
    · exact (callsOf_spec findEqColumnsVisitor [] e).2 e' (by rw [hv])
  · have hmem : (a.column, a.scalar, a.dataType) ∈
        ((eqAtoms e).filter keepsEq).map fun a => (a.column, a.scalar, a.dataType) :=
      List.mem_map.mpr ⟨a, List.mem_filter.mpr ⟨hpre.subset ha, by simp [keepsEq, hty, hnull]⟩,
        rfl⟩
    refine ⟨hmem, ?_⟩
    rw [scalarMapOf_get, if_pos (List.mem_map.mpr ⟨_, hmem, rfl⟩)]

/-! ## Pruning soundness -/

section Soundness

variable (cs : Casts)

/-- The index invariant `find` relies on, for the rows of a block: whenever `find` reads the
filter of a column, its membership test answers "present" for every value other than `NULL`
that the column takes on a row. -/
def Covers (f : BlockFilter) (rows : List Row) (m : HashMap Scalar UInt64) : Prop :=
  ∀ n filter, f.filterOf env (buildFilterColumnName n) = .ok filter →
    ∀ r ∈ rows, r n ≠ .null → f.contains env filter (r n) m = true

/-- A constant folder is sound on the rows of a block when it folds an expression to a
constant only if the expression has that value on every row. -/
def FoldSound (fold : Expr → Expr) (rows : List Row) : Prop :=
  ∀ e span c ty, fold e = .constant span c ty → ∀ r ∈ rows, e.evalRow cs r = .ok c

/-- A function computes equality: on two values other than `NULL` it answers whether they
are equal. -/
def Function.IsEquality (fn : Function) : Prop :=
  ∀ a b, a ≠ .null → b ≠ .null → fn.eval [a, b] = .ok (.boolean (decide (a = b)))

mutual

/-- Every `eq` call of an expression computes equality, as the registry's `eq` does. -/
def Expr.EqCompares : Expr → Prop
  | .functionCall _ fn args _ => (fn.name = "eq" → fn.IsEquality) ∧ Expr.EqComparesArgs args
  | .cast _ _ e _ => e.EqCompares
  | _ => True

/-- Every `eq` call of a list of arguments computes equality. -/
def Expr.EqComparesArgs : List Expr → Prop
  | [] => True
  | e :: es => e.EqCompares ∧ Expr.EqComparesArgs es

end

/-- A matched comparison, on a row where its column is not `NULL`, evaluates to whether the
column's value is the constant. -/
theorem evalRow_eqOperands {fn : Function} {args : List Expr} {id : String} {c : Scalar}
    {ty : DataType} (h : eqOperands args = some (id, c, ty)) (hfn : fn.IsEquality) (r : Row)
    (hr : r id ≠ .null) (hc : c ≠ .null) :
    (Expr.evalArgs cs r args).bind fn.eval = .ok (.boolean (decide (r id = c))) := by
  match args, h with
  | [.columnRef _ _ _, .constant _ _ _], rfl =>
      simp [Expr.evalArgs, Expr.evalRow, Except.bind, Except.map, hfn _ _ hr hc]
  | [.constant _ _ _, .columnRef _ _ _], rfl =>
      simp [Expr.evalArgs, Expr.evalRow, Except.bind, Except.map, hfn _ _ hc hr, eq_comm]

/-- What `eval`'s rewrite does to a matched comparison on a row where its column is not
`NULL`: it keeps the comparison, or replaces it by `false` when the comparison is `false`. -/
theorem rewrite_atom_evalRow {f : BlockFilter} {m : HashMap Scalar UInt64} {rows : List Row}
    (hcov : Covers env f rows m) {r : Row} (hr : r ∈ rows) {span : Span} {fn : Function}
    {args : List Expr} {rt : DataType} {id : String} {c : Scalar} {ty : DataType}
    (hc : eqCall fn args = some (id, c, ty)) (hfn : fn.name = "eq" → fn.IsEquality)
    (hn : r id ≠ .null) {e' : Expr}
    (h : (visitExprColumnEqConstant (f.evalVisitor env m) () (.functionCall span fn args rt)).2 =
      .ok e') :
    e'.evalRow cs r = (Expr.functionCall span fn args rt).evalRow cs r := by
  have hops : eqOperands args = some (id, c, ty) ∧ fn.name = "eq" := by
    unfold eqCall at hc; split at hc <;> simp_all
  simp only [visitExprColumnEqConstant, hc, evalVisitor] at h
  rcases hfind : f.find env id c ty m with _ | _ | _
  · simp [hfind, Except.map] at h
  · -- `find` rules the constant out: the comparison is `false` on the row
    simp only [hfind, Except.map, if_true] at h
    cases h
    obtain ⟨-, -, hcn, filter, hf, hcontains⟩ := (find_eq_mustFalse env).mp hfind
    have hne : r id ≠ c := fun heq =>
      absurd (hcov id filter hf r hr hn) (by rw [heq, hcontains]; decide)
    simp [Expr.evalRow, evalRow_eqOperands cs hops.1 (hfn hops.2) r hn hcn, hne]
  · -- `find` is uncertain: the comparison stays
    simp only [hfind, Except.map, reduceCtorEq, if_false,
      (visitArgs_eqOperands _ hops.1 ()).1] at h
    cases h
    rfl

mutual

/-- **The rewrite keeps the predicate's value** on every row where the columns it compares
with constants are not `NULL`. -/
theorem rewrite_evalRow {f : BlockFilter} {m : HashMap Scalar UInt64} {rows : List Row}
    (hcov : Covers env f rows m) {r : Row} (hr : r ∈ rows) :
    ∀ (e e' : Expr), e.EqCompares → (∀ a ∈ eqAtoms e, r a.column ≠ .null) →
      (visitExprColumnEqConstant (f.evalVisitor env m) () e).2 = .ok e' →
        e'.evalRow cs r = e.evalRow cs r
  | .constant .., _, _, _, h => by cases h; rfl
  | .columnRef .., _, _, _, h => by cases h; rfl
  | .cast span isTry x ty, e', hq, hn, h => by
      obtain ⟨x', hx, rfl⟩ := map_eq_ok h
      simp only [Expr.evalRow, rewrite_evalRow hcov hr x x' hq hn hx]
  | .functionCall span fn args rt, e', hq, hn, h => by
      cases hc : eqCall fn args with
      | none =>
          simp only [visitExprColumnEqConstant, hc] at h
          obtain ⟨args', hargs, rfl⟩ := map_eq_ok h
          have hn' : ∀ a ∈ eqAtomsArgs args, r a.column ≠ .null := by
            simpa [eqAtoms, hc] using hn
          simp only [Expr.evalRow, rewriteArgs_evalArgs hcov hr args args' hq.2 hn' hargs]
      | some o =>
          obtain ⟨id, c, ty⟩ := o
          exact rewrite_atom_evalRow env cs hcov hr hc hq.1
            (hn ⟨span, id, c, ty, rt⟩ (by simp [eqAtoms, hc])) h

/-- The rewrite keeps the values of a call's arguments. -/
theorem rewriteArgs_evalArgs {f : BlockFilter} {m : HashMap Scalar UInt64} {rows : List Row}
    (hcov : Covers env f rows m) {r : Row} (hr : r ∈ rows) :
    ∀ (args args' : List Expr), Expr.EqComparesArgs args →
      (∀ a ∈ eqAtomsArgs args, r a.column ≠ .null) →
      (visitArgs (f.evalVisitor env m) () args).2 = .ok args' →
        Expr.evalArgs cs r args' = Expr.evalArgs cs r args
  | [], _, _, _, h => by cases h; rfl
  | x :: xs, args', hq, hn, h => by
      simp only [visitArgs] at h
      rcases hx : visitExprColumnEqConstant (f.evalVisitor env m) () x with ⟨_, _ | x'⟩ <;>
        rw [hx] at h
      · cases h
      · obtain ⟨xs', hxs, rfl⟩ := map_eq_ok h
        have hn' : ∀ a ∈ eqAtoms x ++ eqAtomsArgs xs, r a.column ≠ .null := hn
        rw [Expr.evalArgs, Expr.evalArgs,
          rewrite_evalRow hcov hr x x' hq.1 (fun a ha => hn' a (List.mem_append_left _ ha))
            (by rw [hx]),
          rewriteArgs_evalArgs hcov hr xs xs' hq.2
            (fun a ha => hn' a (List.mem_append_right _ ha)) hxs]

end

/-- **Pruning is sound on rows without `NULL` in the compared columns.** If the filter covers
the rows of a block, the folder is sound on them and every `eq` computes equality, then when
`eval` answers `MustFalse` the predicate is `false` on every row where the columns it compares
with constants are not `NULL`. -/
theorem eval_mustFalse_sound (fold : Expr → Expr) (f : BlockFilter) (rows : List Row)
    (m : HashMap Scalar UInt64) (e : Expr) (hcov : Covers env f rows m)
    (hfold : FoldSound cs fold rows) (heq : e.EqCompares)
    (h : f.eval env fold e m = .ok .mustFalse) :
    ∀ r ∈ rows, (∀ a ∈ eqAtoms e, r a.column ≠ .null) → e.evalRow cs r = .ok (.boolean false) := by
  intro r hr hn
  obtain ⟨e', span, ty, hrw, hfe⟩ := (eval_eq_mustFalse env).mp h
  rw [← rewrite_evalRow env cs hcov hr e e' heq hn hrw, hfold e' span _ ty hfe r hr]

end Soundness

/-! ## A prune on a row where a compared column is `NULL`

The block below has a nullable column `age`, `NULL` on its first row and `20` on its second.
`try_create` builds its filter from the digests `0` (for the `NULL` row) and that of `20`, so
`age = 5` is ruled out and rewritten to `false`. On the first row `age = 5` is `NULL`, and
`NOT is_not_null(age = 5)` is true there; after the rewrite it is `NOT is_not_null(false)`,
which is `false` on every row. The filter covers the block, the digest table is the one built
from `find_eq_columns`, and the folder is sound. -/

/-- A sound folder: it folds exactly the expressions that read no column, to the value they take
on every row. -/
def foldClosed (cs : Casts) (e : Expr) : Expr :=
  if e.readsColumn then e
  else
    match e.evalRow cs fun _ => .null with
    | .ok c => .constant none c e.dataType
    | .error _ => e

theorem foldClosed_sound (cs : Casts) (rows : List Row) : FoldSound cs (foldClosed cs) rows := by
  intro e span c ty h r _
  unfold foldClosed at h
  split at h
  · subst h; rfl
  · rename_i hread
    split at h
    · rename_i c' hc'
      cases h
      rw [evalRow_eq_of_readsColumn_eq_false cs r _ e (by simpa using hread), hc']
    · subst h; rfl

/-- The registry's `eq` on one row: `NULL` when either side is `NULL`, otherwise whether the two
values are equal. -/
def eqFunction : Function where
  name := "eq"
  calcDomain _ := .full
  eval
    | [a, b] => .ok (if a.isNull || b.isNull then .null else .boolean (decide (a = b)))
    | _ => .error "eq takes two arguments"

/-- The registry's `is_not_null` on one row. -/
def isNotNullFunction : Function where
  name := "is_not_null"
  calcDomain _ := .full
  eval
    | [a] => .ok (.boolean !a.isNull)
    | _ => .error "is_not_null takes one argument"

theorem eqFunction_isEquality : eqFunction.IsEquality := by
  intro a b ha hb
  simp [eqFunction, ha, hb]

/-- The rows of `ageBlock`. -/
def ageRows : List Row := [fun _ => .null, fun c => if c = "age" then .number 20 else .null]

/-- `NOT is_not_null(age = 5)`: true on the rows where `age` is `NULL`. -/
def ageEqFiveIsNull : Expr :=
  .functionCall none Boolean.notFunction
    [.functionCall none isNotNullFunction
      [.functionCall none eqFunction
        [.columnRef none "age" (.nullable .number), .constant none (.number 5) .number]
        (.nullable .boolean)]
      .boolean]
    .boolean

/-- The digest table of the query `ageEqFiveIsNull`. -/
def ageScalarMap : HashMap Scalar UInt64 :=
  scalarMapOf sampleEnv [("age", .number 5, .nullable .number)]

theorem findEqColumns_ageEqFiveIsNull :
    findEqColumns ageEqFiveIsNull = .ok [("age", .number 5, .nullable .number)] :=
  rfl

theorem ageFilter_covers : Covers sampleEnv ageFilter ageRows ageScalarMap := by
  intro n filter hf r hr hn
  simp only [ageRows, List.mem_cons, List.mem_singleton, List.not_mem_nil, or_false] at hr
  rcases hr with rfl | rfl
  · exact absurd rfl hn
  · have hage : n = "age" := by by_contra h; simp [h] at hn
    subst hage
    cases hf
    rfl

theorem ageEqFiveIsNull_eqCompares : ageEqFiveIsNull.EqCompares :=
  ⟨fun h => absurd h (by decide), ⟨fun h => absurd h (by decide),
    ⟨fun _ => eqFunction_isEquality, trivial, trivial, trivial⟩, trivial⟩, trivial⟩

theorem ageFilter_eval (cs : Casts) :
    ageFilter.eval sampleEnv (foldClosed cs) ageEqFiveIsNull ageScalarMap = .ok .mustFalse :=
  rfl

/-- **`eval` prunes a block on which the predicate is true.** The filter is the one `try_create`
builds, it covers the block, the digest table is the one built from `find_eq_columns` and holds
digests only, and `eq` computes equality. Yet with a sound folder, and with the modelled
`ConstantFolder` too, `eval` answers `MustFalse` for `NOT is_not_null(age = 5)`, which is true
on the row where `age` is `NULL`. -/
theorem eval_mustFalse_on_null_row :
    tryCreate sampleEnv ageSchema 0 [ageBlock] = .ok (some ageFilter) ∧
    Covers sampleEnv ageFilter ageRows ageScalarMap ∧
    findEqColumns ageEqFiveIsNull = .ok [("age", .number 5, .nullable .number)] ∧
    (∀ s d, ageScalarMap.get s = some d → d = sampleEnv.siphash s) ∧
    ageEqFiveIsNull.EqCompares ∧
    ∀ cs : Casts, FoldSound cs (foldClosed cs) ageRows ∧
      ageFilter.eval sampleEnv (foldClosed cs) ageEqFiveIsNull ageScalarMap = .ok .mustFalse ∧
      ageFilter.eval sampleEnv (ConstantFolder.fold cs) ageEqFiveIsNull ageScalarMap =
        .ok .mustFalse ∧
      ∃ r ∈ ageRows, ageEqFiveIsNull.evalRow cs r = .ok (.boolean true) :=
  ⟨tryCreate_ageBlock, ageFilter_covers, findEqColumns_ageEqFiveIsNull,
    fun _ _ h => scalarMapOf_digest sampleEnv h, ageEqFiveIsNull_eqCompares,
    fun cs => ⟨foldClosed_sound cs ageRows, ageFilter_eval cs, rfl, _, List.mem_cons_self _ _,
      rfl⟩⟩

/-- On the row where `age` is `20` the pruned predicate is `false`, as pruning soundness says. -/
theorem eval_mustFalse_sound_age_twenty :
    Covers sampleEnv ageFilter ageRows ageScalarMap ∧
    FoldSound ⟨fun _ v _ => .ok v, fun _ d _ => some d⟩
      (foldClosed ⟨fun _ v _ => .ok v, fun _ d _ => some d⟩) ageRows ∧
    ageEqFiveIsNull.EqCompares ∧
    ageFilter.eval sampleEnv (foldClosed ⟨fun _ v _ => .ok v, fun _ d _ => some d⟩)
      ageEqFiveIsNull ageScalarMap = .ok .mustFalse ∧
    ageEqFiveIsNull.evalRow ⟨fun _ v _ => .ok v, fun _ d _ => some d⟩
      (fun c => if c = "age" then .number 20 else .null) = .ok (.boolean false) :=
  ⟨ageFilter_covers, foldClosed_sound _ ageRows, ageEqFiveIsNull_eqCompares, ageFilter_eval _,
    eval_mustFalse_sound sampleEnv _ _ ageFilter ageRows ageScalarMap ageEqFiveIsNull
      ageFilter_covers (foldClosed_sound _ ageRows) ageEqFiveIsNull_eqCompares (ageFilter_eval _)
      _ (List.mem_cons_of_mem _ (List.mem_singleton_self _)) (by decide)⟩

/-! ## The digest table and the digests computed inline -/

/-- The digest table built from `find_eq_columns` holds, at every constant `find` looks up,
the digest `calculate_scalar_digest` computes. -/
theorem scalarMapOf_get_inline {e : Expr} {a : EqAtom} (ha : a ∈ eqAtoms e)
    (hty : isSupportedType a.dataType = true) (hnull : a.scalar ≠ .null) :
    (scalarMapOf env (((eqAtoms e).filter keepsEq).map fun a =>
      (a.column, a.scalar, a.dataType))).get a.scalar = (inlineDigests env).get a.scalar := by
  have hkeep : keepsEq a = true := by simp [keepsEq, hty, hnull]
  rw [scalarMapOf_get, if_pos (List.mem_map.mpr ⟨_, List.mem_map.mpr
    ⟨a, List.mem_filter.mpr ⟨ha, hkeep⟩, rfl⟩, rfl⟩)]
  rfl

/-- **The per-query digest table prunes as digests computed inline would.** With the table the
caller builds from what `find_eq_columns` returns, `eval` rewrites the predicate to the same
expression, or fails with the same error, and gives the same answer as when every digest `find`
looks up is computed on the spot by `calculate_scalar_digest`. -/
theorem eval_scalarMapOf_eq_inline (fold : Expr → Expr) (f : BlockFilter) (e : Expr)
    (cols : List (String × Scalar × DataType)) (hcols : findEqColumns e = .ok cols) :
    f.rewrite env e (scalarMapOf env cols) = f.rewrite env e (inlineDigests env) ∧
      f.eval env fold e (scalarMapOf env cols) = f.eval env fold e (inlineDigests env) := by
  rw [findEqColumns_eq, Except.ok.injEq] at hcols
  have hrw : f.rewrite env e (scalarMapOf env cols) = f.rewrite env e (inlineDigests env) := by
    unfold rewrite
    rw [visit_congr _ (f.evalVisitor env (inlineDigests env)) () e fun _ a ha => by
      simp only [evalVisitor, find_congr_scalarMap env fun hty hnull =>
        hcols ▸ scalarMapOf_get_inline env ha hty hnull]]
  exact ⟨hrw, by rw [eval, eval, hrw]⟩

theorem eval_scalarMapOf_eq_inline_age :
    findEqColumns ageEqFiveIsNull = .ok [("age", .number 5, .nullable .number)] ∧
      ageFilter.rewrite sampleEnv ageEqFiveIsNull
          (scalarMapOf sampleEnv [("age", .number 5, .nullable .number)]) =
        ageFilter.rewrite sampleEnv ageEqFiveIsNull (inlineDigests sampleEnv) ∧
      ageFilter.eval sampleEnv (foldClosed ⟨fun _ v _ => .ok v, fun _ d _ => some d⟩)
          ageEqFiveIsNull (scalarMapOf sampleEnv [("age", .number 5, .nullable .number)]) =
        ageFilter.eval sampleEnv (foldClosed ⟨fun _ v _ => .ok v, fun _ d _ => some d⟩)
          ageEqFiveIsNull (inlineDigests sampleEnv) :=
  ⟨rfl, eval_scalarMapOf_eq_inline sampleEnv _ ageFilter ageEqFiveIsNull _ rfl⟩

/-! ## A digest missing from the table -/

/-- The answer `eval` draws from the folded predicate. -/
def foldVerdict (fold : Expr → Expr) (e : Expr) : FilterEvalResult :=
  match fold e with
  | .constant _ (.boolean false) _ => .mustFalse
  | _ => .uncertain

theorem eval_eq_map_foldVerdict (fold : Expr → Expr) (f : BlockFilter) (e : Expr)
    (m : HashMap Scalar UInt64) :
    f.eval env fold e m = (f.rewrite env e m).map (foldVerdict fold) := by
  unfold eval foldVerdict
  rcases f.rewrite env e m with _ | e'
  · rfl
  · simp only [ok_bind, Except.map]
    rcases fold e' with ⟨_, _ | _ | _ | _ | _ | ⟨_ | _⟩ | _, _⟩ | _ | _ | _ <;> rfl

/-- On an index newer than `V2BloomBlock`, `find` never rules out a constant the table has no
digest for. -/
theorem evalVisitor_empty_no_rewrite {f : BlockFilter}
    (hver : f.version ≠ env.v2BloomBlockVersion) (s : Unit) (a : EqAtom) (e : Expr) :
    (f.evalVisitor env .empty s a).2 ≠ .ok (some e) := by
  simp only [evalVisitor, find]
  split
  · simp [Except.map]
  · cases f.filterOf env (buildFilterColumnName a.column) <;>
      simp [bind, Except.bind, pure, Except.pure, Except.map, contains, hver]

/-- **A digest missing from the table never prunes.** On an index of a format newer than
`V2BloomBlock`, with an empty digest table, `eval` rewrites no comparison: when it answers, its
answer is the one the constant folder gives on the predicate as it is, whatever the filters
hold. -/
theorem eval_empty_scalarMap (fold : Expr → Expr) (f : BlockFilter) (e : Expr)
    (hver : f.version ≠ env.v2BloomBlockVersion) (r : FilterEvalResult)
    (h : f.eval env fold e .empty = .ok r) : r = foldVerdict fold e := by
  rw [eval_eq_map_foldVerdict] at h
  obtain ⟨e', hrw, rfl⟩ := map_eq_ok h
  rw [visit_eq_self (evalVisitor_empty_no_rewrite env hver) () e e' hrw]

/-- With the empty table, the index built for `ageBlock` no longer rules out `age = 5`. -/
theorem eval_empty_scalarMap_age :
    ageFilter.version ≠ sampleEnv.v2BloomBlockVersion ∧
      ageFilter.eval sampleEnv (foldClosed ⟨fun _ v _ => .ok v, fun _ d _ => some d⟩)
        ageEqFiveIsNull .empty = .ok .uncertain ∧
      FilterEvalResult.uncertain =
        foldVerdict (foldClosed ⟨fun _ v _ => .ok v, fun _ d _ => some d⟩) ageEqFiveIsNull :=
  ⟨by decide, rfl, eval_empty_scalarMap sampleEnv _ ageFilter ageEqFiveIsNull (by decide) _ rfl⟩

/-- **`eval` fails only where `find` does.** For every filter, digest table and folder, `eval`
fails exactly when `find` fails on a comparison of the predicate: with the error of the first
one, in the order of the walk, every comparison before it having been looked up. The rewrite's
other steps and the folder never fail. -/
theorem eval_eq_error_iff (fold : Expr → Expr) (f : BlockFilter) (e : Expr)
    (m : HashMap Scalar UInt64) (err : ErrorCode) :
    f.eval env fold e m = .error err ↔
      ∃ pre a post, eqAtoms e = pre ++ a :: post ∧
        (∀ a' ∈ pre, ∃ r, f.find env a'.column a'.scalar a'.dataType m = .ok r) ∧
        f.find env a.column a.scalar a.dataType m = .error err := by
  have hwalk : (forget (visitExprColumnEqConstant (f.evalVisitor env m) () e)).2 = .error err ↔
      f.rewrite env e m = .error err := map_eq_error_iff
  rw [eval_eq_map_foldVerdict, map_eq_error_iff, ← hwalk, visit_eq_visitAll,
    visitAll_eq_error_iff]
  simp only [evalVisitor, map_eq_error_iff, exists_map_eq_ok_iff]

/-- A filter loaded from a filter block that lacks the bytes of its field `Bloom(age)` fails on
`age = 5`: `find` panics at the block's offset. -/
example : ∃ err, (BlockFilter.fromFilterBlock ageSchema ageFilter.filterSchema ⟨[], 1⟩ 0 >>=
    fun f => f.eval sampleEnv (foldClosed ⟨fun _ v _ => .ok v, fun _ d _ => some d⟩)
      ageEqFiveIsNull ageScalarMap) = .error err :=
  ⟨_, rfl⟩

end Datafuse
