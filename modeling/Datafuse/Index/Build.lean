import Datafuse.Index.Bloom
import Mathlib.Data.List.Forall2
import Mathlib.Data.List.Nodup

set_option autoImplicit false

/-! # The index invariant `try_create` establishes

`find` answers `MustFalse` for a column only when the column's filter answers "absent". That is
safe when the filter stored as `Bloom(c)` reports the digest of every value other than `NULL`
that column `c` holds in the blocks it was built from. `tryCreate_index_invariant` proves that
`try_create` builds exactly such filters, one for each column of the first block whose type is
supported, in column order and at the same offsets, provided the filter family has no false
negatives and the names of the source schema are distinct. It also says when `try_create`
builds no filter at all.

The proof follows the two loops of `try_create`. A `mapM` that succeeds relates every element to
its image (`mapM_eq_ok_forall₂`); the first loop relates a supported column to its values over
all blocks (`sourceColumn_eq_ok`), the second to its filter field, serialised filter and distinct
count (`buildColumnFilter_eq_ok`). `ColumnBuilt` says what the two loops give one column.

The distinct counts of the second loop are keyed by the columns' offsets, which are distinct, so
the count under a column's offset is the `len` of the very filter stored for that column
(`tryCreate_columnDistinctCount`).
-/

namespace Datafuse

/-! ## Loops that succeed -/

section Forall₂

variable {α β γ : Type}

/-- A `mapM` that succeeds relates every element to its image. -/
theorem mapM_eq_ok_forall₂ {g : α → Result β} :
    ∀ {l : List α} {l' : List β}, l.mapM g = .ok l' → List.Forall₂ (fun a b => g a = .ok b) l l'
  | [], _, h => by cases h; exact .nil
  | a :: l, l', h => by
      rw [List.mapM_cons] at h
      obtain ⟨b, hb, h⟩ := bind_eq_ok h
      obtain ⟨bs, hbs, h⟩ := bind_eq_ok h
      cases h
      exact .cons hb (mapM_eq_ok_forall₂ hbs)

theorem forall₂_comp {R : α → β → Prop} {Q : β → γ → Prop} {P : α → γ → Prop}
    (hRQ : ∀ a b c, R a b → Q b c → P a c) :
    ∀ {l₁ l₂ l₃}, List.Forall₂ R l₁ l₂ → List.Forall₂ Q l₂ l₃ → List.Forall₂ P l₁ l₃
  | _, _, _, .nil, .nil => .nil
  | _, _, _, .cons h₁ t₁, .cons h₂ t₂ => .cons (hRQ _ _ _ h₁ h₂) (forall₂_comp hRQ t₁ t₂)

/-- Related lists are related position by position. -/
theorem forall₂_getElem? {R : α → β → Prop} {l : List α} {l' : List β}
    (h : List.Forall₂ R l l') {k : Nat} {a : α} (ha : l[k]? = some a) :
    ∃ b, l'[k]? = some b ∧ R a b := by
  induction h generalizing k with
  | nil => cases ha
  | cons hab _ ih =>
      cases k with
      | zero =>
          rw [List.getElem?_cons_zero, Option.some.injEq] at ha
          subst ha
          exact ⟨_, List.getElem?_cons_zero, hab⟩
      | succ k =>
          rw [List.getElem?_cons_succ] at ha
          simpa only [List.getElem?_cons_succ] using ih ha

theorem forall₂_exists_of_mem {R : α → β → Prop} {l : List α} {l' : List β}
    (h : List.Forall₂ R l l') {a : α} (ha : a ∈ l) : ∃ b ∈ l', R a b := by
  obtain ⟨k, hk⟩ := List.mem_iff_getElem?.mp ha
  obtain ⟨b, hb, hab⟩ := forall₂_getElem? h hk
  exact ⟨b, List.getElem?_mem hb, hab⟩

theorem map_eq_map_of_forall₂ {f : α → γ} {g : β → γ} :
    ∀ {l : List α} {l' : List β}, List.Forall₂ (fun a b => f a = g b) l l' → l.map f = l'.map g
  | _, _, .nil => rfl
  | _, _, .cons h t => by rw [List.map_cons, List.map_cons, h, map_eq_map_of_forall₂ t]

/-- A relation that relates no two elements of `l` to one element keeps the list duplicate-free. -/
theorem forall₂_nodup {R : α → β → Prop} :
    ∀ {l : List α} {l' : List β}, List.Forall₂ R l l' → l.Nodup →
      (∀ a ∈ l, ∀ a' ∈ l, ∀ b, R a b → R a' b → a = a') → l'.Nodup
  | _, _, .nil, _, _ => List.nodup_nil
  | a :: l, b :: l', .cons hab t, hl, hinj => by
      obtain ⟨ha, hl⟩ := List.nodup_cons.mp hl
      refine List.nodup_cons.mpr ⟨fun hb => ?_, forall₂_nodup t hl fun x hx y hy =>
        hinj x (List.mem_cons_of_mem _ hx) y (List.mem_cons_of_mem _ hy)⟩
      obtain ⟨a', ha', hab'⟩ := forall₂_exists_of_mem (List.Forall₂.flip (R := flip R) t) hb
      exact ha (hinj a (List.mem_cons_self _ _) a' (List.mem_cons_of_mem _ ha') b hab hab' ▸ ha')

end Forall₂

namespace BlockFilter

variable {F : Type} (env : IndexEnv F)

/-! ## The steps of `try_create` -/

theorem buildFilterColumnName_injective : Function.Injective buildFilterColumnName := by
  intro a b h
  have hdata := congrArg String.data h
  simp only [buildFilterColumnName, String.data_append, List.append_assoc,
    List.append_cancel_left_eq, List.append_cancel_right_eq] at hdata
  exact String.ext hdata

/-- The supported columns of a block are its columns of a supported type, with their offsets. -/
theorem mem_supportedColumns {b : DataBlock} {c : Nat × DataType} :
    c ∈ supportedColumns b ↔
      ∃ e, b.columns[c.1]? = some e ∧ c.2 = e.dataType ∧ isSupportedType e.dataType = true := by
  obtain ⟨i, ty⟩ := c
  simp only [supportedColumns, List.mem_map, List.mem_filter, List.mem_enum_iff_getElem?,
    Prod.exists, Prod.mk.injEq]
  constructor
  · rintro ⟨j, e, ⟨hj, hs⟩, rfl, rfl⟩
    exact ⟨e, hj, rfl, hs⟩
  · rintro ⟨e, he, rfl, hs⟩
    exact ⟨i, e, ⟨he, hs⟩, rfl, rfl⟩

theorem nodup_supportedColumns_offsets (b : DataBlock) :
    ((supportedColumns b).map (·.1)).Nodup := by
  have hsub : List.Sublist ((supportedColumns b).map (·.1)) (b.columns.enum.map Prod.fst) := by
    rw [supportedColumns, List.map_map]
    exact (List.filter_sublist _).map Prod.fst
  exact hsub.nodup (by rw [List.enum_map_fst]; exact List.nodup_range _)

/-- What the closure of the first loop reads from a block: the entry at the offset, with the
layout and the rows of its full column. -/
theorem fullColumnAt_eq_ok {b : DataBlock} {i : Nat} {dataType : DataType}
    {p : DataType × List Scalar} :
    fullColumnAt b i dataType = .ok p ↔ ∃ e, b.columns[i]? = some e ∧
      p = (e.fullColumnType dataType, e.value.convertToFullColumn b.numRows) := by
  unfold fullColumnAt DataBlock.getByOffset
  cases b.columns[i]? with
  | none => exact ⟨fun h => (by cases h), fun ⟨_, h, _⟩ => (by cases h)⟩
  | some e =>
      exact ⟨fun h => ⟨e, rfl, (by cases h; rfl)⟩, fun ⟨_, he, hp⟩ => (by cases he; rw [hp]; rfl)⟩

/-- The values a supported column's digests are taken from: the values the column holds in
every block, and the source field that names it. -/
theorem sourceColumn_eq_ok {sourceSchema : TableSchema} {blocks : List DataBlock} {i : Nat}
    {dataType : DataType} {field : TableField} {column : List Scalar}
    (h : sourceColumn sourceSchema blocks i dataType = .ok (field, column)) :
    (∃ src, sourceSchema.fields[i]? = some src ∧ field.name = src.name ∧
      field.dataType = if dataType.isNullable then .nullable .number else .number) ∧
    (∀ b ∈ blocks, ∀ r v, b.valueAt i r = some v → v ∈ column) ∧
    ∀ v ∈ column, ∃ b ∈ blocks, ∃ e, b.columns[i]? = some e ∧
      v ∈ e.value.convertToFullColumn b.numRows := by
  unfold sourceColumn at h
  obtain ⟨src, hsrc, h⟩ := bind_eq_ok h
  obtain ⟨cols, hcols, h⟩ := bind_eq_ok h
  obtain ⟨column', hconcat, h⟩ := bind_eq_ok h
  cases h
  obtain ⟨rfl, -⟩ := Column.concat_eq_ok hconcat
  have hrel := mapM_eq_ok_forall₂ hcols
  refine ⟨⟨src, (TableSchema.field_eq_ok _ _ _).mp hsrc, rfl, rfl⟩, fun b hb r v hv => ?_,
    fun v hv => ?_⟩
  · obtain ⟨e, he, hv⟩ := DataBlock.mem_of_valueAt hv
    obtain ⟨p, hp, hget⟩ := forall₂_exists_of_mem hrel hb
    obtain ⟨e', he', rfl⟩ := fullColumnAt_eq_ok.mp hget
    rw [he, Option.some.injEq] at he'
    subst he'
    exact List.mem_flatten.mpr ⟨_, List.mem_map_of_mem _ hp, hv⟩
  · obtain ⟨col, hcol, hv⟩ := List.mem_flatten.mp hv
    obtain ⟨p, hp, rfl⟩ := List.mem_map.mp hcol
    obtain ⟨b, hb, hget⟩ := forall₂_exists_of_mem (List.Forall₂.flip (R := flip _) hrel) hp
    obtain ⟨e, he, rfl⟩ := fullColumnAt_eq_ok.mp hget
    exact ⟨b, hb, e, he, hv⟩

/-- A value other than `NULL` keeps its digest among those a filter is built from, on the
nullable path (where `NULL` rows get the digest `0`) as on the other. -/
theorem siphash_mem_filterDigests {column : List Scalar} {v : Scalar} (hv : v ∈ column)
    (hnull : v ≠ .null) (ty : DataType) :
    env.siphash v ∈ filterDigests (column.map env.siphash)
      (if ty.isNullable then some (column.map fun v => !v.isNull) else none) := by
  have hmem := List.mem_map_of_mem env.siphash hv
  cases ty.isNullable
  · exact hmem
  · simp only [if_true, filterDigests]
    split
    · rw [List.zipWith_map, List.zipWith_same]
      exact List.mem_map.mpr ⟨v, hv, by simp [hnull]⟩
    · exact hmem

theorem mem_zipWith_zero :
    ∀ {ds : List UInt64} {v : List Bool} {d : UInt64},
      d ∈ List.zipWith (fun d b => if !b then 0 else d) ds v → d = 0 ∨ d ∈ ds
  | [], _, _, h => by simp at h
  | _ :: _, [], _, h => by simp at h
  | x :: xs, b :: bs, d, h => by
      rw [List.zipWith_cons_cons, List.mem_cons] at h
      rcases h with rfl | h
      · cases b <;> simp
      · exact (mem_zipWith_zero h).imp_right (List.mem_cons_of_mem x)

/-- A filter's digests are row digests, or the `0` of a `NULL` row. -/
theorem mem_filterDigests {ds : List UInt64} {validity : Option (List Bool)} {d : UInt64}
    (h : d ∈ filterDigests ds validity) : d = 0 ∨ d ∈ ds := by
  unfold filterDigests at h
  split at h
  · split at h
    · exact mem_zipWith_zero h
    · exact .inr h
  · exact .inr h

/-- What the second loop gives one column: the field `Bloom(name)`, the bytes of a filter built
from the column's digests, and a distinct count under the position `index_of` finds. -/
theorem buildColumnFilter_eq_ok {sourceSchema : TableSchema} {field : TableField}
    {column : List Scalar} {out : TableField × List UInt8 × Option (Nat × Nat)}
    (h : buildColumnFilter env sourceSchema field column = .ok out) :
    out.1 = ⟨buildFilterColumnName field.name, .string⟩ ∧
    (∀ idx len, out.2.2 = some (idx, len) → sourceSchema.indexOf field.name = .ok idx) ∧
    ∃ filter, env.filter.build (filterDigests (column.map env.siphash)
        (if field.dataType.isNullable then some (column.map fun v => !v.isNull) else none)) =
        .ok filter ∧ env.filter.toBytes filter = .ok out.2.1 := by
  unfold buildColumnFilter at h
  obtain ⟨⟨digests, validity⟩, hdigest, h⟩ := bind_eq_ok h
  simp only [calculateColumnDigest, Except.ok.injEq, Prod.mk.injEq] at hdigest
  obtain ⟨rfl, rfl⟩ := hdigest
  obtain ⟨filter, hbuild, h⟩ := bind_eq_ok h
  obtain ⟨count, hcount, h⟩ := bind_eq_ok h
  obtain ⟨bytes, hbytes, h⟩ := bind_eq_ok h
  cases h
  refine ⟨rfl, fun idx len hc => ?_, filter, hbuild, hbytes⟩
  subst hc
  unfold distinctCountOf at hcount
  split at hcount
  · split at hcount
    · cases hcount; assumption
    · cases hcount
  · cases hcount

/-- The inversion of `try_create` on blocks for which it builds a filter: both loops succeeded,
and the filter is assembled from the second loop's results. -/
theorem tryCreate_eq_some {sourceSchema : TableSchema} {version : UInt64} {b0 : DataBlock}
    {bs : List DataBlock} {f : BlockFilter}
    (h : tryCreate env sourceSchema version (b0 :: bs) = .ok (some f)) :
    ∃ columns built,
      (supportedColumns b0).mapM (fun c => sourceColumn sourceSchema (b0 :: bs) c.1 c.2) =
        .ok columns ∧
      columns.mapM (fun c => buildColumnFilter env sourceSchema c.1 c.2) = .ok built ∧
      f = { sourceSchema, version
            filterSchema := ⟨built.map (·.1)⟩
            filterBlock := ⟨built.map fun b => ⟨.string, .scalar (.string b.2.1)⟩, 1⟩
            columnDistinctCount := distinctCounts built } := by
  obtain ⟨columns, hcols, h⟩ := bind_eq_ok h
  split at h
  · cases h
  · obtain ⟨built, hbuilt, h⟩ := bind_eq_ok h
    cases h
    exact ⟨columns, built, hcols, hbuilt, rfl⟩

/-- `try_create` builds no filter exactly when the first block has no column of a supported
type. -/
theorem tryCreate_eq_none_iff {sourceSchema : TableSchema} {version : UInt64} {b0 : DataBlock}
    {bs : List DataBlock} :
    tryCreate env sourceSchema version (b0 :: bs) = .ok none ↔ supportedColumns b0 = [] := by
  constructor
  · intro h
    obtain ⟨columns, hcols, h⟩ := bind_eq_ok h
    split at h
    · rename_i hempty
      rw [List.isEmpty_iff.mp hempty] at hcols
      exact List.forall₂_nil_right_iff.mp (mapM_eq_ok_forall₂ hcols)
    · obtain ⟨_, _, h⟩ := bind_eq_ok h
      cases h
  · intro h
    simp only [tryCreate, h]
    rfl

/-- The filter the second loop serialises for a column is the one whose `len` it records, under
the position `index_of` finds. -/
theorem buildColumnFilter_len {sourceSchema : TableSchema} {field : TableField}
    {column : List Scalar} {out : TableField × List UInt8 × Option (Nat × Nat)}
    (h : buildColumnFilter env sourceSchema field column = .ok out) :
    ∃ filter, env.filter.build (filterDigests (column.map env.siphash)
        (if field.dataType.isNullable then some (column.map fun v => !v.isNull) else none)) =
        .ok filter ∧ env.filter.toBytes filter = .ok out.2.1 ∧
      ∀ idx, sourceSchema.indexOf field.name = .ok idx →
        out.2.2 = (env.filter.len filter).map (idx, ·) := by
  obtain ⟨_, hdigest, h⟩ := bind_eq_ok h
  cases hdigest
  obtain ⟨filter, hbuild, h⟩ := bind_eq_ok h
  obtain ⟨count, hcount, h⟩ := bind_eq_ok h
  obtain ⟨bytes, hbytes, h⟩ := bind_eq_ok h
  cases h
  refine ⟨filter, hbuild, hbytes, fun idx hidx => ?_⟩
  unfold distinctCountOf at hcount
  cases hlen : env.filter.len filter <;> simp only [hlen, hidx] at hcount <;> cases hcount <;> rfl

theorem distinctCounts_get {built : List (TableField × List UInt8 × Option (Nat × Nat))}
    {k n : Nat} (h : (distinctCounts built).get k = some n) :
    ∃ b ∈ built, ∃ len, b.2.2 = some (k, len) := by
  suffices hfold : ∀ m : HashMap Nat Nat, (built.foldl insertDistinctCount m).get k = some n →
      m.get k = some n ∨ ∃ b ∈ built, ∃ len, b.2.2 = some (k, len) by
    simpa using hfold .empty h
  clear h
  induction built with
  | nil => exact fun _ h => .inl h
  | cons b built ih =>
      intro m h
      rw [List.foldl_cons] at h
      rcases ih _ h with h | ⟨b', hb', len, hlen⟩
      · unfold insertDistinctCount at h
        split at h
        · rename_i idx len hb
          rw [HashMap.get_insert] at h
          split at h
          · subst_vars; exact .inr ⟨b, List.mem_cons_self _ _, len, hb⟩
          · exact .inl h
        · exact .inl h
      · exact .inr ⟨b', List.mem_cons_of_mem _ hb', len, hlen⟩

/-! ## What the loops give each column -/

/-- What `try_create` produces for a supported column `c` of the first block: the filter field
named after the column's source field, the bytes of a filter built from digests among which is
that of every value other than `NULL` the column holds in some block, and which are all digests
of the column's values or the `0` of a `NULL` row, and a distinct count under the column's own
position. -/
structure ColumnBuilt (sourceSchema : TableSchema) (blocks : List DataBlock) (c : Nat × DataType)
    (out : TableField × List UInt8 × Option (Nat × Nat)) : Prop where
  field : ∃ src, sourceSchema.fields[c.1]? = some src ∧
    out.1 = ⟨buildFilterColumnName src.name, .string⟩
  filter : ∃ ds filter, env.filter.build ds = .ok filter ∧ env.filter.toBytes filter = .ok out.2.1 ∧
    (∀ b ∈ blocks, ∀ r v, b.valueAt c.1 r = some v → v ≠ .null → env.siphash v ∈ ds) ∧
    ∀ d ∈ ds, d = 0 ∨ ∃ b ∈ blocks, ∃ e, b.columns[c.1]? = some e ∧
      ∃ v ∈ e.value.convertToFullColumn b.numRows, d = env.siphash v
  count : ∀ idx len, out.2.2 = some (idx, len) → idx = c.1

theorem columnBuilt_of_eq_ok {sourceSchema : TableSchema} {blocks : List DataBlock}
    {c : Nat × DataType} {col : TableField × List Scalar}
    {out : TableField × List UInt8 × Option (Nat × Nat)}
    (hnames : (sourceSchema.fields.map (·.name)).Nodup)
    (hcol : sourceColumn sourceSchema blocks c.1 c.2 = .ok col)
    (hout : buildColumnFilter env sourceSchema col.1 col.2 = .ok out) :
    ColumnBuilt env sourceSchema blocks c out := by
  obtain ⟨⟨src, hsrc, hname, -⟩, hvals, hcolumn⟩ := sourceColumn_eq_ok hcol
  obtain ⟨hfield, hcount, filter, hbuild, hbytes⟩ := buildColumnFilter_eq_ok env hout
  refine ⟨⟨src, hsrc, by rw [hfield, hname]⟩,
    ⟨_, filter, hbuild, hbytes, fun b hb r v hv hnull =>
      siphash_mem_filterDigests env (hvals b hb r v hv) hnull _, fun d hd => ?_⟩,
    fun idx len h => ?_⟩
  · refine (mem_filterDigests hd).imp_right fun hd => ?_
    obtain ⟨v, hv, rfl⟩ := List.mem_map.mp hd
    obtain ⟨b, hb, e, he, hv⟩ := hcolumn v hv
    exact ⟨b, hb, e, he, v, hv, rfl⟩
  have hidx := hcount idx len h
  rw [hname, TableSchema.indexOf_eq_ok_of_nodup hnames hsrc] at hidx
  cases hidx
  rfl

/-- The filter `try_create` builds, as the list of what it built for each supported column. -/
theorem tryCreate_columnBuilt {sourceSchema : TableSchema} {version : UInt64} {b0 : DataBlock}
    {bs : List DataBlock} {f : BlockFilter} (hnames : (sourceSchema.fields.map (·.name)).Nodup)
    (h : tryCreate env sourceSchema version (b0 :: bs) = .ok (some f)) :
    ∃ built, List.Forall₂ (ColumnBuilt env sourceSchema (b0 :: bs)) (supportedColumns b0) built ∧
      f = { sourceSchema, version
            filterSchema := ⟨built.map (·.1)⟩
            filterBlock := ⟨built.map fun b => ⟨.string, .scalar (.string b.2.1)⟩, 1⟩
            columnDistinctCount := distinctCounts built } := by
  obtain ⟨columns, built, hcols, hbuilt, rfl⟩ := tryCreate_eq_some env h
  exact ⟨built, forall₂_comp (P := ColumnBuilt env sourceSchema (b0 :: bs))
    (fun c col out (hc : sourceColumn sourceSchema (b0 :: bs) c.1 c.2 = .ok col)
      (ho : buildColumnFilter env sourceSchema col.1 col.2 = .ok out) =>
      columnBuilt_of_eq_ok env hnames hc ho)
    (mapM_eq_ok_forall₂ hcols) (mapM_eq_ok_forall₂ hbuilt), rfl⟩

/-- Distinct source names give distinct filter names. -/
theorem nodup_filterNames {sourceSchema : TableSchema} {blocks : List DataBlock} {b0 : DataBlock}
    {built : List (TableField × List UInt8 × Option (Nat × Nat))}
    (hnames : (sourceSchema.fields.map (·.name)).Nodup)
    (hbuilt : List.Forall₂ (ColumnBuilt env sourceSchema blocks) (supportedColumns b0) built) :
    (built.map (·.1.name)).Nodup := by
  refine forall₂_nodup (R := fun c n => ∃ src, sourceSchema.fields[c.1]? = some src ∧
      n = buildFilterColumnName src.name)
    (List.forall₂_map_right_iff.mpr (hbuilt.imp fun c out hc => ?_))
    (List.Nodup.of_map (·.1) (nodup_supportedColumns_offsets b0)) ?_
  · obtain ⟨src, hsrc, hout⟩ := hc.field
    exact ⟨src, hsrc, by rw [hout]⟩
  · rintro c hc c' hc' n ⟨src, hsrc, rfl⟩ ⟨src', hsrc', hname⟩
    have hpos : c.1 = c'.1 := by
      refine List.getElem?_inj ?_ hnames ?_
      · simpa using (List.getElem?_eq_some_iff.mp hsrc).1
      · simp [List.getElem?_map, hsrc, hsrc', buildFilterColumnName_injective hname]
    obtain ⟨e, he, hty, -⟩ := mem_supportedColumns.mp hc
    obtain ⟨e', he', hty', -⟩ := mem_supportedColumns.mp hc'
    rw [hpos, he'] at he
    cases he
    exact Prod.ext hpos (hty.trans hty'.symm)

/-! ## The distinct counts -/

/-- The distinct counts are the counts the second loop keeps, inserted in order. -/
theorem distinctCounts_eq (built : List (TableField × List UInt8 × Option (Nat × Nat))) :
    distinctCounts built =
      (built.filterMap (·.2.2)).foldl (fun m e => m.insert e.1 e.2) .empty := by
  suffices h : ∀ m : HashMap Nat Nat, built.foldl insertDistinctCount m =
      (built.filterMap (·.2.2)).foldl (fun m e => m.insert e.1 e.2) m from h .empty
  induction built with
  | nil => exact fun _ => rfl
  | cons b built ih =>
      intro m
      rcases hb : b.2.2 with _ | ⟨idx, len⟩ <;>
        simp only [List.foldl_cons, List.filterMap_cons, insertDistinctCount, hb, ih]

/-- Columns at distinct offsets keep their distinct counts under distinct keys. -/
theorem nodup_countKeys {sourceSchema : TableSchema} {blocks : List DataBlock}
    {cs : List (Nat × DataType)} {built : List (TableField × List UInt8 × Option (Nat × Nat))}
    (hbuilt : List.Forall₂ (ColumnBuilt env sourceSchema blocks) cs built)
    (hnd : (cs.map (·.1)).Nodup) : ((built.filterMap (·.2.2)).map (·.1)).Nodup := by
  induction hbuilt with
  | nil => exact List.nodup_nil
  | @cons c out cs built hc t ih =>
      rw [List.map_cons, List.nodup_cons] at hnd
      cases hb : out.2.2 with
      | none => simpa only [List.filterMap_cons, hb] using ih hnd.2
      | some p =>
          simp only [List.filterMap_cons, hb, List.map_cons, List.nodup_cons]
          refine ⟨fun hp => hnd.1 ?_, ih hnd.2⟩
          obtain ⟨q, hq, hpq⟩ := List.mem_map.mp hp
          obtain ⟨out', hout', hq'⟩ := List.mem_filterMap.mp hq
          obtain ⟨c', hc', hcb'⟩ := forall₂_exists_of_mem (List.Forall₂.flip (R := flip _) t) hout'
          refine List.mem_map.mpr ⟨c', hc', ?_⟩
          rw [← hcb'.count q.1 q.2 hq', hpq, hc.count p.1 p.2 hb]

/-- The distinct count under a column's offset is the one the second loop kept for it, if any. -/
theorem distinctCounts_get_eq {sourceSchema : TableSchema} {blocks : List DataBlock}
    {cs : List (Nat × DataType)} {built : List (TableField × List UInt8 × Option (Nat × Nat))}
    (hbuilt : List.Forall₂ (ColumnBuilt env sourceSchema blocks) cs built)
    (hnd : (cs.map (·.1)).Nodup) {k : Nat} {c : Nat × DataType}
    {out : TableField × List UInt8 × Option (Nat × Nat)} (hc : cs[k]? = some c)
    (hout : built[k]? = some out) :
    (distinctCounts built).get c.1 = out.2.2.map Prod.snd := by
  obtain ⟨out', hout', hcb⟩ := forall₂_getElem? hbuilt hc
  rw [hout, Option.some.injEq] at hout'
  subst hout'
  rw [distinctCounts_eq]
  cases hb : out.2.2 with
  | some p =>
      rw [show p = (c.1, p.2) from Prod.ext (hcb.count p.1 p.2 hb) rfl] at hb
      exact HashMap.get_foldl_insert_of_mem _ _ (nodup_countKeys env hbuilt hnd)
        (List.mem_filterMap.mpr ⟨out, List.getElem?_mem hout, hb⟩)
  | none =>
      refine HashMap.get_foldl_insert_of_not_mem _ _ fun hmem => ?_
      obtain ⟨q, hq, hqc⟩ := List.mem_map.mp hmem
      obtain ⟨out', hout', hq'⟩ := List.mem_filterMap.mp hq
      obtain ⟨k', hk'⟩ := List.mem_iff_getElem?.mp hout'
      obtain ⟨c', hc', hcb'⟩ := forall₂_getElem? hbuilt.flip hk'
      have hkk : k' = k := List.getElem?_inj
        (by simpa using (List.getElem?_eq_some_iff.mp hc').1) hnd
        (by simp only [List.getElem?_map, hc, hc', Option.map_some', ← hcb'.count q.1 q.2 hq', hqc])
      rw [hkk, hout, Option.some.injEq] at hk'
      subst hk'
      rw [hb] at hq'
      cases hq'

/-! ## What `find` reads back -/

/-- A filter built for a column reads back from its bytes as a filter that holds the digest of
every value other than `NULL` the column holds in some block. -/
theorem ColumnBuilt.fromBytes {sourceSchema : TableSchema} {blocks : List DataBlock}
    {c : Nat × DataType} {out : TableField × List UInt8 × Option (Nat × Nat)}
    (hnfn : env.filter.NoFalseNegatives) (hc : ColumnBuilt env sourceSchema blocks c out) :
    ∃ filter n, env.filter.fromBytes out.2.1 = .ok (filter, n) ∧
      ∀ b ∈ blocks, ∀ r v, b.valueAt c.1 r = some v → v ≠ .null →
        env.filter.containsDigest filter (env.siphash v) = true := by
  obtain ⟨ds, filter, hbuild, hbytes, hds, -⟩ := hc.filter
  obtain ⟨filter', n, hfrom, hcontains⟩ := hnfn ds filter out.2.1 hbuild hbytes
  exact ⟨filter', n, hfrom, fun b hb r v hv hnull => hcontains _ (hds b hb r v hv hnull)⟩

/-- The filter block `try_create` assembles holds each filter's bytes at the filter's position. -/
theorem filterBytesAt_built {built : List (TableField × List UInt8 × Option (Nat × Nat))}
    {k : Nat} {bytes : List UInt8} :
    filterBytesAt ⟨built.map fun b => ⟨.string, .scalar (.string b.2.1)⟩, 1⟩ k = .ok bytes ↔
      ∃ out, built[k]? = some out ∧ bytes = out.2.1 := by
  simp only [filterBytesAt, DataBlock.getByOffset, List.getElem?_map]
  cases built[k]? <;> simp [bind, Except.bind, eq_comm]

section FilterOf

variable {sourceSchema : TableSchema} {version : UInt64} {b0 : DataBlock} {bs : List DataBlock}
  {f : BlockFilter} (hnames : (sourceSchema.fields.map (·.name)).Nodup)
  (h : tryCreate env sourceSchema version (b0 :: bs) = .ok (some f))
include hnames h

/-- **What `find` reads from the filter `try_create` builds.** A filter field reads back only
for the name of the source field of a supported column, and what it reads is the filter built
for that column, read back from its bytes. -/
theorem filterOf_tryCreate_built {name : String} {filter : F}
    (hf : f.filterOf env (buildFilterColumnName name) = .ok filter) :
    ∃ c out src n, ColumnBuilt env sourceSchema (b0 :: bs) c out ∧
      sourceSchema.fields[c.1]? = some src ∧ src.name = name ∧
      env.filter.fromBytes out.2.1 = .ok (filter, n) := by
  obtain ⟨built, hbuilt, rfl⟩ := tryCreate_columnBuilt env hnames h
  unfold filterOf at hf
  obtain ⟨k, hk, hf⟩ := bind_eq_ok hf
  obtain ⟨bytes, hbytes, hf⟩ := bind_eq_ok hf
  obtain ⟨⟨filter', n⟩, hfrom, hf⟩ := bind_eq_ok hf
  cases hf
  obtain ⟨out, hout, rfl⟩ := filterBytesAt_built.mp hbytes
  obtain ⟨c, -, hc⟩ := forall₂_getElem? hbuilt.flip hout
  obtain ⟨src, hsrc, hfield⟩ := hc.field
  obtain ⟨fld, hfld, hname⟩ := TableSchema.indexOf_eq_ok hk
  rw [List.getElem?_map, hout, Option.map_some', Option.some.injEq, hfield] at hfld
  subst hfld
  exact ⟨c, out, src, n, hc, hsrc, buildFilterColumnName_injective hname, hfrom⟩

/-- What a filter field reads back holds the digest of every value other than `NULL` that its
column holds in any block. -/
theorem filterOf_tryCreate (hnfn : env.filter.NoFalseNegatives) {name : String} {filter : F}
    (hf : f.filterOf env (buildFilterColumnName name) = .ok filter) :
    ∃ i src, sourceSchema.fields[i]? = some src ∧ src.name = name ∧
      ∀ b ∈ b0 :: bs, ∀ r v, b.valueAt i r = some v → v ≠ .null →
        env.filter.containsDigest filter (env.siphash v) = true := by
  obtain ⟨c, out, src, n, hc, hsrc, hname, hfrom⟩ := filterOf_tryCreate_built env hnames h hf
  obtain ⟨filter', n', hfrom', hcontains⟩ := hc.fromBytes env hnfn
  rw [hfrom', Except.ok.injEq, Prod.mk.injEq] at hfrom
  obtain ⟨rfl, -⟩ := hfrom
  exact ⟨c.1, src, hsrc, hname, hcontains⟩

/-- With an exact filter family, what a filter field reads back answers "present" only for the
digest of a value its column holds in some block, or for `0`. -/
theorem filterOf_tryCreate_exact (hexact : env.filter.Exact) {name : String} {filter : F}
    (hf : f.filterOf env (buildFilterColumnName name) = .ok filter) :
    ∃ (i : Nat) (src : TableField), sourceSchema.fields[i]? = some src ∧ src.name = name ∧
      ∀ d, env.filter.containsDigest filter d = true → d = 0 ∨ ∃ b ∈ b0 :: bs, ∃ e : BlockEntry,
        b.columns[i]? = some e ∧ ∃ v ∈ e.value.convertToFullColumn b.numRows, d = env.siphash v := by
  obtain ⟨c, out, src, n, hc, hsrc, hname, hfrom⟩ := filterOf_tryCreate_built env hnames h hf
  obtain ⟨ds, filter', hbuild, hbytes, -, hds⟩ := hc.filter
  obtain ⟨filter'', n', hfrom', hiff⟩ := hexact ds filter' out.2.1 hbuild hbytes
  rw [hfrom', Except.ok.injEq, Prod.mk.injEq] at hfrom
  obtain ⟨rfl, -⟩ := hfrom
  exact ⟨c.1, src, hsrc, hname, fun d hd => hds d ((hiff d).mp hd)⟩

/-- The filter field of the source field of a supported column reads back. -/
theorem filterOf_tryCreate_supported (hnfn : env.filter.NoFalseNegatives) {i : Nat}
    {e : BlockEntry} {src : TableField} (he : b0.columns[i]? = some e)
    (hs : isSupportedType e.dataType = true) (hsrc : sourceSchema.fields[i]? = some src) :
    ∃ filter, f.filterOf env (buildFilterColumnName src.name) = .ok filter := by
  obtain ⟨built, hbuilt, rfl⟩ := tryCreate_columnBuilt env hnames h
  obtain ⟨k, hk⟩ := List.mem_iff_getElem?.mp (mem_supportedColumns.mpr ⟨e, he, rfl, hs⟩ :
    (i, e.dataType) ∈ supportedColumns b0)
  obtain ⟨out, hout, hcb⟩ := forall₂_getElem? hbuilt hk
  obtain ⟨src', hsrc', hfield⟩ := hcb.field
  rw [hsrc, Option.some.injEq] at hsrc'
  subst hsrc'
  obtain ⟨filter, n, hfrom, -⟩ := hcb.fromBytes env hnfn
  have hindex : TableSchema.indexOf ⟨built.map (·.1)⟩ (buildFilterColumnName src.name) =
      .ok k := by
    have h := TableSchema.indexOf_eq_ok_of_nodup (s := ⟨built.map (·.1)⟩) (k := k) (f := out.1)
      (by rw [List.map_map]; exact nodup_filterNames env hnames hbuilt) (by simp [hout])
    rwa [hfield] at h
  refine ⟨filter, ?_⟩
  simp [filterOf, hindex, filterBytesAt, DataBlock.getByOffset, hout, hfrom, bind,
    Except.bind, pure, Except.pure]

end FilterOf

theorem supportedColumns_eq_nil_iff (b : DataBlock) :
    supportedColumns b = [] ↔ ∀ e ∈ b.columns, isSupportedType e.dataType = false := by
  rw [List.eq_nil_iff_forall_not_mem]
  constructor
  · intro h e he
    obtain ⟨i, hi⟩ := List.mem_iff_getElem?.mp he
    by_contra hs
    exact h (i, e.dataType) (mem_supportedColumns.mpr ⟨e, hi, rfl, by simpa using hs⟩)
  · intro h c hc
    obtain ⟨e, he, -, hs⟩ := mem_supportedColumns.mp hc
    rw [h e (List.getElem?_mem he)] at hs
    cases hs

/-! ## The index invariant -/

/-- **`try_create` establishes the index invariant.** Take a non-empty list of blocks, a source
schema with distinct names, a version other than `V2BloomBlock::VERSION`, and a filter family
without false negatives. `try_create` builds no filter exactly when no column of the first block
has a supported type. When it builds a filter `f`:
1. the filter schema lists `Bloom(name)` of the source field of each supported column, in
   column order;
2. the one-row filter block holds at the same offset the bytes of a filter built from digests
   that include the digest of every value other than `NULL` the column holds in any block;
3. every key of the distinct counts is the position of a supported column;
4. `find` answers `Uncertain` for every such value, with every type, under every digest table
   that maps the value to its digest. -/
theorem tryCreate_index_invariant (sourceSchema : TableSchema) (version : UInt64)
    (b0 : DataBlock) (bs : List DataBlock) (hnfn : env.filter.NoFalseNegatives)
    (hnames : (sourceSchema.fields.map (·.name)).Nodup)
    (hversion : version ≠ env.v2BloomBlockVersion) :
    (tryCreate env sourceSchema version (b0 :: bs) = .ok none ↔
      ∀ e ∈ b0.columns, isSupportedType e.dataType = false) ∧
    ∀ f, tryCreate env sourceSchema version (b0 :: bs) = .ok (some f) →
      f.filterSchema.fields.map some = (supportedColumns b0).map (fun c =>
        sourceSchema.fields[c.1]?.map fun src => ⟨buildFilterColumnName src.name, .string⟩) ∧
      f.filterBlock.numRows = 1 ∧
      List.Forall₂ (fun c entry => ∃ ds filter bytes,
          entry = ⟨.string, .scalar (.string bytes)⟩ ∧ env.filter.build ds = .ok filter ∧
          env.filter.toBytes filter = .ok bytes ∧
          ∀ b ∈ b0 :: bs, ∀ r v, b.valueAt c.1 r = some v → v ≠ .null → env.siphash v ∈ ds)
        (supportedColumns b0) f.filterBlock.columns ∧
      (∀ k n, f.columnDistinctCount.get k = some n →
        ∃ e, b0.columns[k]? = some e ∧ isSupportedType e.dataType = true) ∧
      ∀ i e src, b0.columns[i]? = some e → isSupportedType e.dataType = true →
        sourceSchema.fields[i]? = some src → ∀ b ∈ b0 :: bs, ∀ r v, b.valueAt i r = some v →
          v ≠ .null → ∀ ty m, m.get v = some (env.siphash v) →
            f.find env src.name v ty m = .ok .uncertain := by
  refine ⟨(tryCreate_eq_none_iff env).trans (supportedColumns_eq_nil_iff b0), fun f h => ?_⟩
  obtain ⟨built, hbuilt, rfl⟩ := tryCreate_columnBuilt env hnames h
  refine ⟨?_, rfl, ?_, ?_, ?_⟩
  · -- the filter fields
    rw [List.map_map]
    refine (map_eq_map_of_forall₂ (hbuilt.imp fun c out hc => ?_)).symm
    obtain ⟨src, hsrc, hout⟩ := hc.field
    simp [hsrc, hout]
  · -- the serialised filters
    refine List.forall₂_map_right_iff.mpr (hbuilt.imp fun c out hc => ?_)
    obtain ⟨ds, filter, hbuild, hbytes, hds, -⟩ := hc.filter
    exact ⟨ds, filter, out.2.1, rfl, hbuild, hbytes, hds⟩
  · -- the distinct counts
    intro k n hk
    obtain ⟨out, hout, len, hlen⟩ := distinctCounts_get hk
    obtain ⟨c, hc, hcb⟩ := forall₂_exists_of_mem (List.Forall₂.flip (R := flip _) hbuilt) hout
    obtain ⟨e, he, -, hs⟩ := mem_supportedColumns.mp hc
    exact ⟨e, hcb.count k len hlen ▸ he, hs⟩
  · -- `find` on the values of a supported column
    intro i e src he hs hsrc b hb r v hv hnull ty m hm
    obtain ⟨filter, hf⟩ := filterOf_tryCreate_supported env hnames h hnfn he hs hsrc
    obtain ⟨i', src', hsrc', hname, hcontains⟩ := filterOf_tryCreate env hnames h hnfn hf
    obtain rfl := TableSchema.eq_of_name_eq hnames hsrc' hsrc hname
    refine find_of_contains env hf ?_
    simp [contains, hversion, hm, hcontains b hb r v hv hnull]

end BlockFilter

/-! ## A filter over a block with a `NULL`

The exactly answering filter family over one block whose nullable column `age` is `NULL` on its
first row and `20` on its second: the filter holds the digest `0` for the `NULL` row. -/

open BlockFilter

/-- A digest for the example: one more than a number's value, `0` for every other value. -/
def sampleSiphash : Scalar → UInt64
  | .number n => UInt64.ofNat n.toNat + 1
  | _ => 0

/-- The exactly answering filter family, the digest above, and `V2BloomBlock::VERSION = 2`. -/
def sampleEnv : IndexEnv (List UInt64) := ⟨exactFilter sampleSiphash, sampleSiphash, 2⟩

/-- A schema with one nullable number column `age`. -/
def ageSchema : TableSchema := ⟨[⟨"age", .nullable .number⟩]⟩

/-- A block of two rows: `age` is `NULL`, then `20`. -/
def ageBlock : DataBlock := ⟨[⟨.nullable .number, .column [.null, .number 20]⟩], 2⟩

/-- The filter `try_create` builds over `ageBlock`: the digests `0` and `21`. -/
def ageFilter : BlockFilter where
  sourceSchema := ageSchema
  filterSchema := ⟨[⟨"Bloom(age)", .string⟩]⟩
  version := 0
  filterBlock :=
    ⟨[⟨.string, .scalar (.string ([0, 21].flatMap fun d : UInt64 => toLeBytes 8 d.toNat))⟩], 1⟩
  columnDistinctCount := HashMap.empty.insert 0 2

theorem tryCreate_ageBlock : tryCreate sampleEnv ageSchema 0 [ageBlock] = .ok (some ageFilter) :=
  rfl

/-- The filter `try_create` builds over `ageBlock` does not rule out the value `20` the block
holds. -/
theorem tryCreate_index_invariant_ageBlock :
    sampleEnv.filter.NoFalseNegatives ∧ (ageSchema.fields.map (·.name)).Nodup ∧
    (0 : UInt64) ≠ sampleEnv.v2BloomBlockVersion ∧
    ageFilter.find sampleEnv "age" (.number 20) (.nullable .number)
      (HashMap.empty.insert (.number 20) (sampleSiphash (.number 20))) = .ok .uncertain :=
  ⟨exactFilter_noFalseNegatives _, by decide, by decide,
    ((tryCreate_index_invariant sampleEnv ageSchema 0 ageBlock [] (exactFilter_noFalseNegatives _)
      (by decide) (by decide)).2 ageFilter tryCreate_ageBlock).2.2.2.2 0 _ _ rfl rfl rfl ageBlock
      (List.mem_singleton_self _) 1 _ rfl (by decide) _ _ (HashMap.get_insert_self _ _ _)⟩

/-! ## What `try_create` needs and what it reads -/

section TryCreate

variable {F : Type} (env : IndexEnv F)

/-- **The distinct counts are those of the stored filters.** With distinct source names, for
every supported column of the first block, the distinct count `try_create` records under the
column's offset is the `len` of the filter it serialises under `Bloom(name)` of the column's
source field, a filter built from digests that include that of every value other than `NULL`
the column holds in any block. A filter without a `len` leaves no count. -/
theorem tryCreate_columnDistinctCount (sourceSchema : TableSchema) (version : UInt64)
    (b0 : DataBlock) (bs : List DataBlock) (hnames : (sourceSchema.fields.map (·.name)).Nodup)
    (f : BlockFilter) (h : tryCreate env sourceSchema version (b0 :: bs) = .ok (some f))
    (i : Nat) (e : BlockEntry) (src : TableField) (he : b0.columns[i]? = some e)
    (hs : isSupportedType e.dataType = true) (hsrc : sourceSchema.fields[i]? = some src) :
    ∃ ds filter bytes, env.filter.build ds = .ok filter ∧ env.filter.toBytes filter = .ok bytes ∧
      (∀ b ∈ b0 :: bs, ∀ r v, b.valueAt i r = some v → v ≠ .null → env.siphash v ∈ ds) ∧
      (f.filterSchema.indexOf (buildFilterColumnName src.name) >>= filterBytesAt f.filterBlock) =
        .ok bytes ∧
      f.columnDistinctCount.get i = env.filter.len filter := by
  obtain ⟨columns, built, hcols, hbuilt, rfl⟩ := tryCreate_eq_some env h
  have hcb : List.Forall₂ (ColumnBuilt env sourceSchema (b0 :: bs)) (supportedColumns b0) built :=
    forall₂_comp (P := ColumnBuilt env sourceSchema (b0 :: bs))
      (fun c col out (hc : sourceColumn sourceSchema (b0 :: bs) c.1 c.2 = .ok col)
        (ho : buildColumnFilter env sourceSchema col.1 col.2 = .ok out) =>
        columnBuilt_of_eq_ok env hnames hc ho)
      (mapM_eq_ok_forall₂ hcols) (mapM_eq_ok_forall₂ hbuilt)
  obtain ⟨k, hk⟩ := List.mem_iff_getElem?.mp (mem_supportedColumns.mpr ⟨e, he, rfl, hs⟩ :
    (i, e.dataType) ∈ supportedColumns b0)
  obtain ⟨col, hcol, hsc⟩ := forall₂_getElem? (mapM_eq_ok_forall₂ hcols) hk
  obtain ⟨out, hout, hbc⟩ := forall₂_getElem? (mapM_eq_ok_forall₂ hbuilt) hcol
  obtain ⟨⟨src', hsrc', hname, -⟩, hvals, -⟩ := sourceColumn_eq_ok hsc
  rw [hsrc, Option.some.injEq] at hsrc'
  subst hsrc'
  obtain ⟨filter, hbuild, hbytes, hcount⟩ := buildColumnFilter_len env hbc
  refine ⟨_, filter, out.2.1, hbuild, hbytes,
    fun b hb r v hv hnull => siphash_mem_filterDigests env (hvals b hb r v hv) hnull _, ?_, ?_⟩
  · -- the bytes stored under the filter field
    have hindex := TableSchema.indexOf_eq_ok_of_nodup (s := ⟨built.map (·.1)⟩) (k := k)
      (f := out.1) (by rw [List.map_map]; exact nodup_filterNames env hnames hcb)
      (by simp [hout])
    rw [(buildColumnFilter_eq_ok env hbc).1, hname] at hindex
    rw [hindex, ok_bind]
    exact filterBytesAt_built.mpr ⟨out, hout, rfl⟩
  · -- the distinct count under the column's offset
    have hc := hcount i (by rw [hname]; exact TableSchema.indexOf_eq_ok_of_nodup hnames hsrc)
    show (distinctCounts built).get (i, e.dataType).1 = _
    rw [distinctCounts_get_eq env hcb (nodup_supportedColumns_offsets b0) hk hout, hc,
      Option.map_map]
    cases env.filter.len filter <;> rfl

/-- Over `ageBlock`, the count of `age` is that of the filter stored as `Bloom(age)`. -/
theorem tryCreate_columnDistinctCount_ageBlock :
    (ageSchema.fields.map (·.name)).Nodup ∧
    tryCreate sampleEnv ageSchema 0 [ageBlock] = .ok (some ageFilter) ∧
    ageBlock.columns[0]? = some ⟨.nullable .number, .column [.null, .number 20]⟩ ∧
    isSupportedType (.nullable .number) = true ∧
    ageSchema.fields[0]? = some ⟨"age", .nullable .number⟩ ∧
    ∃ ds filter bytes, sampleEnv.filter.build ds = .ok filter ∧
      sampleEnv.filter.toBytes filter = .ok bytes ∧
      (∀ b ∈ [ageBlock], ∀ r v, b.valueAt 0 r = some v → v ≠ .null → sampleEnv.siphash v ∈ ds) ∧
      (ageFilter.filterSchema.indexOf (buildFilterColumnName "age") >>=
        filterBytesAt ageFilter.filterBlock) = .ok bytes ∧
      ageFilter.columnDistinctCount.get 0 = sampleEnv.filter.len filter :=
  ⟨by decide, tryCreate_ageBlock, rfl, rfl, rfl,
    tryCreate_columnDistinctCount sampleEnv ageSchema 0 ageBlock [] (by decide) ageFilter
      tryCreate_ageBlock 0 _ _ rfl rfl rfl⟩

end TryCreate

end Datafuse
