import Datafuse.Index.Folding

set_option autoImplicit false

/-! # From the blocks to the prune

The pieces of `bloom.rs` put together, as a reader of a table uses them: `try_create` builds the
index of some blocks, the caller turns a predicate's comparisons into a digest table, and `eval`
decides whether a block can be skipped.

* `tryCreate_covers` closes the gap between the two halves of the development: the filter
  `try_create` builds covers the rows of the blocks it was built from, under every digest table
  whose entries are the digests of their keys, which is what the pruning theorems assume. So
  `tryCreate_eval_mustFalse_sound` needs no assumption about the index, only about the predicate
  (typed on the blocks' rows, with sound domain closures): a block the index prunes holds no row
  on which the predicate is true, among the rows where the columns it compares with constants
  are not `NULL`.
* Pruning is not vacuous. With a filter family that has no false positives, a comparison of an
  indexed column with a constant whose digest no value of the column has is pruned
  (`tryCreate_eval_eq_mustFalse`). The digest must also differ from `0`, which stands for a
  `NULL` row among the digests of a nullable column.
* `eval` never fails on the index `try_create` builds (`tryCreate_eval_ok`): the only errors of
  `find`, a filter field without bytes or bytes that do not read back, cannot arise there.
-/

namespace Datafuse

/-! ## The rows of a block -/

/-- Row `k` of a block as a predicate reads it: under each name, the value on that row of the
column at the position of the first source field of the name; `NULL` under a name no field has. -/
def DataBlock.row (schema : TableSchema) (b : DataBlock) (k : Nat) : Row := fun name =>
  match schema.indexOf name with
  | .ok i => (b.valueAt i k).getD .null
  | .error _ => .null

/-- The rows of a block. -/
def DataBlock.rows (schema : TableSchema) (b : DataBlock) : List Row :=
  (List.range b.numRows).map (b.row schema)

/-- With distinct field names, a row holds under a field's name the value of the field's
column. -/
theorem DataBlock.row_name {schema : TableSchema} (hnames : (schema.fields.map (·.name)).Nodup)
    {i : Nat} {src : TableField} (hsrc : schema.fields[i]? = some src) (b : DataBlock) (k : Nat) :
    b.row schema k src.name = (b.valueAt i k).getD .null := by
  simp only [DataBlock.row, TableSchema.indexOf_eq_ok_of_nodup hnames hsrc]

theorem mem_flatMap_rows {schema : TableSchema} {blocks : List DataBlock} {r : Row} :
    r ∈ blocks.flatMap (·.rows schema) ↔
      ∃ b ∈ blocks, ∃ k < b.numRows, r = b.row schema k := by
  simp only [List.mem_flatMap, DataBlock.rows, List.mem_map, List.mem_range]
  constructor <;> rintro ⟨b, hb, k, hk, rfl⟩ <;> exact ⟨b, hb, k, hk, rfl⟩

namespace BlockFilter

variable {F : Type} (env : IndexEnv F)

/-! ## The index covers its blocks -/

/-- **The filter `try_create` builds covers the rows it was built from**, under every digest
table whose entries are the digests of their keys (as `scalarMapOf` builds them,
`scalarMapOf_digest`). -/
theorem tryCreate_covers {sourceSchema : TableSchema} {version : UInt64} {b0 : DataBlock}
    {bs : List DataBlock} {f : BlockFilter} (hnfn : env.filter.NoFalseNegatives)
    (hnames : (sourceSchema.fields.map (·.name)).Nodup)
    (hversion : version ≠ env.v2BloomBlockVersion)
    (h : tryCreate env sourceSchema version (b0 :: bs) = .ok (some f))
    {m : HashMap Scalar UInt64} (hm : ∀ s d, m.get s = some d → d = env.siphash s) :
    Covers env f ((b0 :: bs).flatMap (·.rows sourceSchema)) m := by
  intro name filter hf r hr hnull
  obtain ⟨i, src, hsrc, rfl, hcontains⟩ := filterOf_tryCreate env hnames h hnfn hf
  obtain ⟨b, hb, k, -, rfl⟩ := mem_flatMap_rows.mp hr
  rw [DataBlock.row_name hnames hsrc] at hnull ⊢
  cases hv : b.valueAt i k with
  | none => exact absurd (by rw [hv]; rfl) hnull
  | some v =>
      rw [hv, Option.getD_some] at hnull
      rw [Option.getD_some]
      obtain ⟨_, -, rfl⟩ := tryCreate_columnBuilt env hnames h
      unfold contains
      rw [if_neg hversion]
      cases hmv : m.get v with
      | none => rfl
      | some d => rw [hm v d hmv]; exact hcontains b hb k v hv hnull

/-! ## Pruning through the index is sound -/

/-- **A block the index prunes holds no row on which the predicate is true.** Let `try_create`
build the index of some blocks (a filter family without false negatives, distinct source names,
a version other than `V2BloomBlock::VERSION`), and let the digest table hold the digests of its
keys. If every `eq` computes equality, the casts are sound, the predicate is typed on the rows of
the blocks, the functions it calls have sound domain closures and the `false` the rewrite puts in
a comparison's place is a value of the comparison's type, then when `eval` answers `MustFalse`
the predicate is `false` on every row of every one of the blocks where the columns it compares
with constants are not `NULL`. -/
theorem tryCreate_eval_mustFalse_sound (cs : Casts) (hcs : cs.Sound)
    (sourceSchema : TableSchema) (version : UInt64) (b0 : DataBlock) (bs : List DataBlock)
    (hnfn : env.filter.NoFalseNegatives) (hnames : (sourceSchema.fields.map (·.name)).Nodup)
    (hversion : version ≠ env.v2BloomBlockVersion) (f : BlockFilter)
    (htc : tryCreate env sourceSchema version (b0 :: bs) = .ok (some f))
    (m : HashMap Scalar UInt64) (hm : ∀ s d, m.get s = some d → d = env.siphash s) (e : Expr)
    (heq : e.EqCompares)
    (hfits : ∀ b ∈ b0 :: bs, ∀ k < b.numRows, e.Fits (b.row sourceSchema k))
    (hsound : e.DomainsSound)
    (hfalse : ∀ a ∈ eqAtoms e, (Scalar.boolean false).hasType a.returnType = true)
    (h : f.eval env (ConstantFolder.fold cs) e m = .ok .mustFalse) :
    ∀ b ∈ b0 :: bs, ∀ k < b.numRows,
      (∀ a ∈ eqAtoms e, b.row sourceSchema k a.column ≠ .null) →
        e.evalRow cs (b.row sourceSchema k) = .ok (.boolean false) := fun b hb k hk =>
  evalRow_false_of_fold_mustFalse env hcs (tryCreate_covers env hnfn hnames hversion htc hm) heq
    hsound hfalse h (mem_flatMap_rows.mpr ⟨b, hb, k, hk, rfl⟩) (hfits b hb k hk)

/-! ## The index prunes what its filters rule out -/

/-- **The index prunes a comparison with a constant its column does not hold.** With a filter
family that answers "present" only for the digests a filter was built from, let `try_create`
build the index of some blocks, and let an `eq` call compare the source field of a supported
column of the first block with a constant other than `NULL`, at a supported type. If the digest
of the constant is neither `0` nor that of a value the column holds in any of the blocks, `eval`
answers `MustFalse` under every digest table that maps the constant to its digest. -/
theorem tryCreate_eval_eq_mustFalse (cs : Casts) (sourceSchema : TableSchema) (version : UInt64)
    (b0 : DataBlock) (bs : List DataBlock) (hexact : env.filter.Exact)
    (hnames : (sourceSchema.fields.map (·.name)).Nodup)
    (hversion : version ≠ env.v2BloomBlockVersion) (f : BlockFilter)
    (htc : tryCreate env sourceSchema version (b0 :: bs) = .ok (some f))
    (i : Nat) (e : BlockEntry) (src : TableField) (he : b0.columns[i]? = some e)
    (hs : isSupportedType e.dataType = true) (hsrc : sourceSchema.fields[i]? = some src)
    (span : Span) (fn : Function) (args : List Expr) (rt : DataType) (c : Scalar) (ty : DataType)
    (hfn : fn.name = "eq") (hargs : eqOperands args = some (src.name, c, ty))
    (hty : isSupportedType ty = true) (hc : c ≠ .null)
    (hdigest : ∀ b ∈ b0 :: bs, ∀ e', b.columns[i]? = some e' →
      ∀ v ∈ e'.value.convertToFullColumn b.numRows, env.siphash v ≠ env.siphash c)
    (hzero : env.siphash c ≠ 0) (m : HashMap Scalar UInt64)
    (hm : m.get c = some (env.siphash c)) :
    f.eval env (ConstantFolder.fold cs) (.functionCall span fn args rt) m = .ok .mustFalse := by
  obtain ⟨filter, hf⟩ :=
    filterOf_tryCreate_supported env hnames htc hexact.noFalseNegatives he hs hsrc
  obtain ⟨i', src', hsrc', hname, hpresent⟩ := filterOf_tryCreate_exact env hnames htc hexact hf
  obtain rfl := TableSchema.eq_of_name_eq hnames hsrc' hsrc hname
  have habsent : env.filter.containsDigest filter (env.siphash c) = false := by
    refine Bool.eq_false_iff.mpr fun h => ?_
    rcases hpresent _ h with h0 | ⟨b, hb, e', he', v, hv, hdv⟩
    · exact hzero h0
    · exact hdigest b hb e' he' v hv hdv.symm
  have hversion' : f.version ≠ env.v2BloomBlockVersion := by
    obtain ⟨_, -, rfl⟩ := tryCreate_columnBuilt env hnames htc
    exact hversion
  have hfind : f.find env src.name c ty m = .ok .mustFalse := by
    refine (find_eq_mustFalse env).mpr ⟨hasField_of_filterOf env hf, hty, hc, filter, hf, ?_⟩
    simp only [contains, if_neg hversion', hm, habsent]
  refine (eval_eq_mustFalse env).mpr ⟨_, span, rt, rewrite_eqCall env ?_ hfind, ?_⟩
  · rw [eqCall, if_pos hfn, hargs]
  · exact iterate_foldOnce_constant _ span _ rt

/-- The sample block, whose `id` column holds `20`, is pruned for `id = 5`. -/
theorem tryCreate_eval_eq_mustFalse_idBlock :
    (exactFilter sampleSiphash).Exact ∧ (idSchema.fields.map (·.name)).Nodup ∧
    (0 : UInt64) ≠ sampleEnv.v2BloomBlockVersion ∧
    tryCreate sampleEnv idSchema 0 [idBlock] = .ok (some idFilter) ∧
    idBlock.columns[0]? = some ⟨.number, .column [.number 20]⟩ ∧
    isSupportedType DataType.number = true ∧ idSchema.fields[0]? = some ⟨"id", .number⟩ ∧
    eqFunction.name = "eq" ∧
    eqOperands [.columnRef none "id" .number, .constant none (.number 5) .number] =
      some ("id", .number 5, .number) ∧
    Scalar.number 5 ≠ .null ∧
    (∀ b ∈ [idBlock], ∀ e', b.columns[0]? = some e' →
      ∀ v ∈ e'.value.convertToFullColumn b.numRows,
        sampleSiphash v ≠ sampleSiphash (.number 5)) ∧
    sampleSiphash (.number 5) ≠ 0 ∧
    idScalarMap.get (.number 5) = some (sampleSiphash (.number 5)) ∧
    idFilter.eval sampleEnv (ConstantFolder.fold strictCasts) idEqFive idScalarMap =
      .ok .mustFalse :=
  have hdigest : ∀ b ∈ [idBlock], ∀ e', b.columns[0]? = some e' →
      ∀ v ∈ e'.value.convertToFullColumn b.numRows,
        sampleSiphash v ≠ sampleSiphash (.number 5) := by
    intro b hb e' he' v hv
    obtain rfl := List.mem_singleton.mp hb
    obtain rfl : e' = ⟨.number, .column [.number 20]⟩ := (Option.some.inj he').symm
    obtain rfl := List.mem_singleton.mp hv
    decide
  ⟨exactFilter_exact _, by decide, by decide, tryCreate_idBlock, rfl, rfl, rfl, rfl, rfl,
    by decide, hdigest, by decide, rfl,
    tryCreate_eval_eq_mustFalse sampleEnv strictCasts idSchema 0 idBlock [] (exactFilter_exact _)
      (by decide) (by decide) idFilter tryCreate_idBlock 0 _ _ rfl rfl rfl none eqFunction
      [.columnRef none "id" .number, .constant none (.number 5) .number] .boolean (.number 5)
      .number rfl rfl rfl (by decide) hdigest (by decide) idScalarMap rfl⟩

/-- The sample block is pruned for `id = 5`, and `id = 5` is `false` on its row. -/
theorem tryCreate_eval_mustFalse_sound_idBlock :
    strictCasts.Sound ∧ sampleEnv.filter.NoFalseNegatives ∧
    (idSchema.fields.map (·.name)).Nodup ∧ (0 : UInt64) ≠ sampleEnv.v2BloomBlockVersion ∧
    tryCreate sampleEnv idSchema 0 [idBlock] = .ok (some idFilter) ∧
    (∀ s d, idScalarMap.get s = some d → d = sampleEnv.siphash s) ∧ idEqFive.EqCompares ∧
    (∀ b ∈ [idBlock], ∀ k < b.numRows, idEqFive.Fits (b.row idSchema k)) ∧
    idEqFive.DomainsSound ∧
    (∀ a ∈ eqAtoms idEqFive, (Scalar.boolean false).hasType a.returnType = true) ∧
    idFilter.eval sampleEnv (ConstantFolder.fold strictCasts) idEqFive idScalarMap =
      .ok .mustFalse ∧
    idEqFive.evalRow strictCasts (idBlock.row idSchema 0) = .ok (.boolean false) :=
  have hfits : ∀ b ∈ [idBlock], ∀ k < b.numRows, idEqFive.Fits (b.row idSchema k) := by
    intro b hb k hk
    obtain rfl := List.mem_singleton.mp hb
    obtain rfl : k = 0 := by simpa [idBlock] using hk
    exact ⟨rfl, rfl, trivial⟩
  ⟨strictCasts_sound, exactFilter_noFalseNegatives _, by decide, by decide, tryCreate_idBlock,
    fun _ _ h => scalarMapOf_digest sampleEnv h, idEqFive_eqCompares, hfits,
    idEqFive_domainsSound, idEqFive_false_hasType, idEqFive_eval,
    BlockFilter.tryCreate_eval_mustFalse_sound sampleEnv strictCasts strictCasts_sound idSchema 0
      idBlock [] (exactFilter_noFalseNegatives _) (by decide) (by decide) idFilter
      tryCreate_idBlock idScalarMap (fun _ _ h => scalarMapOf_digest sampleEnv h) idEqFive
      idEqFive_eqCompares hfits idEqFive_domainsSound idEqFive_false_hasType idEqFive_eval idBlock
      (List.mem_singleton_self _) 0 (by decide) (by decide)⟩

/-! ## Evaluation never fails on the index

`eval` fails only where `find` does, and `find` only where it reads a filter: `index_of` of a
filter field, the `unwrap` of the filter block's bytes, and `from_bytes`. On the index
`try_create` builds, a filter field that `find` reads has bytes at its position, and they are
the bytes of a filter the family built. -/

section EvalOk

variable {sourceSchema : TableSchema} {version : UInt64} {b0 : DataBlock} {bs : List DataBlock}
  {f : BlockFilter} (hread : env.filter.ReadsBack)
  (h : tryCreate env sourceSchema version (b0 :: bs) = .ok (some f))
include hread h

/-- Every filter field of the index reads back. -/
theorem filterOf_ok_of_tryCreate {name : String} (hname : f.filterSchema.hasField name = true) :
    ∃ filter, f.filterOf env name = .ok filter := by
  obtain ⟨_, built, -, hbuilt, rfl⟩ := tryCreate_eq_some env h
  obtain ⟨k, hk⟩ := TableSchema.indexOf_ok_of_hasField hname
  obtain ⟨fld, hfld, -⟩ := TableSchema.indexOf_eq_ok hk
  obtain ⟨out, hout, -⟩ := Option.map_eq_some'.mp (List.getElem?_map _ _ _ ▸ hfld)
  obtain ⟨c, -, hc⟩ := forall₂_getElem? (mapM_eq_ok_forall₂ hbuilt).flip hout
  obtain ⟨-, -, filter, hbuild, hbytes⟩ := buildColumnFilter_eq_ok env hc
  obtain ⟨⟨filter', n⟩, hfrom⟩ := hread _ _ _ hbuild hbytes
  refine ⟨filter', ?_⟩
  simp only [filterOf, hk, filterBytesAt_built.mpr ⟨out, hout, rfl⟩, hfrom, ok_bind]
  rfl

/-- `find` never fails on the index. -/
theorem find_ok_of_tryCreate (col : String) (c : Scalar) (ty : DataType)
    (m : HashMap Scalar UInt64) : ∃ r, f.find env col c ty m = .ok r := by
  unfold find
  dsimp only
  split
  · exact ⟨_, rfl⟩
  · rename_i hg
    simp only [Bool.or_eq_true, Bool.not_eq_true', not_or, Bool.not_eq_false] at hg
    obtain ⟨filter, hf⟩ := filterOf_ok_of_tryCreate env hread h hg.1.1
    simp only [hf, ok_bind]
    exact ⟨_, rfl⟩

/-- The callback of `eval` never fails on the index. -/
theorem evalVisitor_ok_of_tryCreate (m : HashMap Scalar UInt64) (s : Unit) (a : EqAtom) :
    ∃ r, (f.evalVisitor env m s a).2 = .ok r := by
  obtain ⟨r, hr⟩ := find_ok_of_tryCreate env hread h a.column a.scalar a.dataType m
  simp only [evalVisitor, hr]
  exact ⟨_, rfl⟩

/-- **`eval` never fails on the index `try_create` builds.** With a filter family that reads
back the bytes of every filter it builds, `eval` gives a verdict on every predicate, under every
digest table and with every folder: a filter field `find` reads was built by `try_create`, so
its bytes are in the filter block and read back. -/
theorem tryCreate_eval_ok (fold : Expr → Expr) (e : Expr) (m : HashMap Scalar UInt64) :
    ∃ r, f.eval env fold e m = .ok r := by
  obtain ⟨e', hrw⟩ := visit_ok (evalVisitor_ok_of_tryCreate env hread h m) () e
  simp only [eval, rewrite, hrw, ok_bind]
  split <;> exact ⟨_, rfl⟩

end EvalOk

/-- The index of `ageBlock` gives a verdict on `NOT is_not_null(age = 5)`. -/
theorem tryCreate_eval_ok_ageBlock :
    sampleEnv.filter.ReadsBack ∧
    tryCreate sampleEnv ageSchema 0 [ageBlock] = .ok (some ageFilter) ∧
    ∃ r, ageFilter.eval sampleEnv (ConstantFolder.fold strictCasts) ageEqFiveIsNull ageScalarMap =
      .ok r :=
  ⟨exactFilter_readsBack _, tryCreate_ageBlock,
    tryCreate_eval_ok sampleEnv (exactFilter_readsBack _) tryCreate_ageBlock _ _ _⟩

end BlockFilter

end Datafuse
