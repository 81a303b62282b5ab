import Datafuse.Expression.Types

set_option autoImplicit false

/-! # Schemas and data blocks

`TableSchema` with the three lookups the index makes (`has_field`, `index_of`, `field`), and
the columnar `DataBlock`: typed entries, each either a scalar standing for every row or a column
with one value per row. Both types belong to `common_expression`; the lookups are modelled as
that crate documents them, `index_of` answering the first field of the name.
-/

namespace Datafuse

/-- A field of a schema: a name and a type. -/
structure TableField where
  name : String
  dataType : DataType

/-- `TableSchema`: the fields, in order. -/
structure TableSchema where
  fields : List TableField

namespace TableSchema

/-- `TableSchema::has_field`. -/
def hasField (s : TableSchema) (name : String) : Bool :=
  s.fields.any (·.name == name)

/-- `TableSchema::index_of`: the position of the first field of the name. -/
def indexOf (s : TableSchema) (name : String) : Result Nat :=
  match s.fields.findIdx? (·.name == name) with
  | some i => .ok i
  | none => .error (.badArguments ("Unable to get field named " ++ name.quote))

/-- `TableSchema::field`: the field at a position; out of range, the index panics. -/
def field (s : TableSchema) (i : Nat) : Result TableField :=
  match s.fields[i]? with
  | some f => .ok f
  | none => .error (.panic "index out of bounds")

@[simp] theorem field_eq_ok (s : TableSchema) (i : Nat) (f : TableField) :
    s.field i = .ok f ↔ s.fields[i]? = some f := by
  unfold field
  cases h : s.fields[i]? <;> simp

/-- What `index_of` finds is a field of the name. -/
theorem indexOf_eq_ok {s : TableSchema} {name : String} {i : Nat} (h : s.indexOf name = .ok i) :
    ∃ f, s.fields[i]? = some f ∧ f.name = name := by
  unfold indexOf at h
  split at h
  · rename_i hfind
    cases h
    obtain ⟨hlt, heq, -⟩ := List.findIdx?_eq_some_iff_getElem.mp hfind
    exact ⟨_, List.getElem?_eq_getElem hlt, beq_iff_eq.mp heq⟩
  · cases h

/-- With distinct field names, `index_of` finds every field at its own position. -/
theorem indexOf_eq_ok_of_nodup {s : TableSchema} {k : Nat} {f : TableField}
    (hnd : (s.fields.map (·.name)).Nodup) (hk : s.fields[k]? = some f) :
    s.indexOf f.name = .ok k := by
  obtain ⟨hlt, rfl⟩ := List.getElem?_eq_some_iff.mp hk
  have hfind : s.fields.findIdx? (·.name == s.fields[k].name) = some k := by
    refine List.findIdx?_eq_some_iff_getElem.mpr ⟨hlt, by simp, fun j hj heq => ?_⟩
    have hname : (s.fields.map (·.name))[j]? = (s.fields.map (·.name))[k]? := by
      simp [List.getElem?_map, List.getElem?_eq_getElem (Nat.lt_trans hj hlt),
        List.getElem?_eq_getElem hlt, beq_iff_eq.mp heq]
    exact absurd (List.getElem?_inj (by simpa using Nat.lt_trans hj hlt) hnd hname) (by omega)
  simp [indexOf, hfind]

/-- `index_of` finds every name of the schema. -/
theorem indexOf_ok_of_hasField {s : TableSchema} {name : String} (h : s.hasField name = true) :
    ∃ i, s.indexOf name = .ok i := by
  unfold indexOf
  cases hfind : s.fields.findIdx? (·.name == name) with
  | some i => exact ⟨i, rfl⟩
  | none =>
      obtain ⟨f, hf, hname⟩ := List.any_eq_true.mp h
      rw [List.findIdx?_eq_none_iff.mp hfind f hf] at hname
      cases hname

/-- A name `index_of` finds is a name of the schema. -/
theorem hasField_of_indexOf {s : TableSchema} {name : String} {i : Nat}
    (h : s.indexOf name = .ok i) : s.hasField name = true := by
  obtain ⟨f, hf, rfl⟩ := indexOf_eq_ok h
  exact List.any_eq_true.mpr ⟨f, List.getElem?_mem hf, beq_self_eq_true _⟩

/-- With distinct field names, two positions holding fields of one name are one position. -/
theorem eq_of_name_eq {s : TableSchema} (hnd : (s.fields.map (·.name)).Nodup) {i j : Nat}
    {f g : TableField} (hf : s.fields[i]? = some f) (hg : s.fields[j]? = some g)
    (hname : f.name = g.name) : i = j := by
  have h := indexOf_eq_ok_of_nodup hnd hf
  rwa [hname, indexOf_eq_ok_of_nodup hnd hg, Except.ok.injEq, eq_comm] at h

end TableSchema

/-- `Value`: a scalar for every row, or a column. -/
inductive Value where
  | scalar (s : Scalar)
  | column (c : List Scalar)

/-- `Value::convert_to_full_column`: the values of all `numRows` rows. -/
def Value.convertToFullColumn (v : Value) (numRows : Nat) : List Scalar :=
  match v with
  | .scalar s => List.replicate numRows s
  | .column c => c

/-- `BlockEntry`: a column of a block with its type. -/
structure BlockEntry where
  dataType : DataType
  value : Value

/-- `DataBlock`: its columns and its number of rows. -/
structure DataBlock where
  columns : List BlockEntry
  numRows : Nat

/-- `DataBlock::get_by_offset`; out of range, the index panics. -/
def DataBlock.getByOffset (b : DataBlock) (i : Nat) : Result BlockEntry :=
  match b.columns[i]? with
  | some e => .ok e
  | none => .error (.panic "index out of bounds")

@[simp] theorem DataBlock.getByOffset_eq_ok (b : DataBlock) (i : Nat) (e : BlockEntry) :
    b.getByOffset i = .ok e ↔ b.columns[i]? = some e := by
  unfold DataBlock.getByOffset
  cases h : b.columns[i]? <;> simp

/-- The layout of a block's column once `Value::convert_to_full_column` has made it a column at
the type it is given: a column keeps its own type, a scalar is repeated at the given type. -/
def BlockEntry.fullColumnType (e : BlockEntry) (ty : DataType) : DataType :=
  match e.value with
  | .scalar _ => ty
  | .column _ => e.dataType

/-- `Column::concat`: the rows of the columns one after the other, each column given with its
layout. The first column's layout decides: every other column is downcast to it with `unwrap`,
which panics on a column of another layout. With no column, reading the first one panics. -/
def Column.concat : List (DataType × List Scalar) → Result (List Scalar)
  | [] => .error (.panic "index out of bounds")
  | (ty, c) :: cs =>
      if cs.all (·.1 == ty) then .ok (c ++ (cs.map (·.2)).flatten)
      else .error (.panic "called `Option::unwrap()` on a `None` value")

/-- A concatenation that succeeds holds the rows of every column, in order, and its columns
share one layout. -/
theorem Column.concat_eq_ok {cols : List (DataType × List Scalar)} {c : List Scalar}
    (h : Column.concat cols = .ok c) :
    c = (cols.map (·.2)).flatten ∧ ∀ p ∈ cols, ∀ q ∈ cols, p.1 = q.1 := by
  rcases cols with _ | ⟨⟨ty, c0⟩, cs⟩
  · cases h
  by_cases hall : cs.all (·.1 == ty)
  · rw [Column.concat, if_pos hall] at h
    cases h
    have hty : ∀ p ∈ (ty, c0) :: cs, p.1 = ty := fun p hp => by
      rcases List.mem_cons.mp hp with rfl | hp
      · rfl
      · simpa using List.all_eq_true.mp hall p hp
    exact ⟨rfl, fun p hp q hq => (hty p hp).trans (hty q hq).symm⟩
  · rw [Column.concat, if_neg hall] at h
    cases h

/-- The value column `i` of a block holds on row `r`. -/
def DataBlock.valueAt (b : DataBlock) (i r : Nat) : Option Scalar :=
  if r < b.numRows then
    b.columns[i]?.bind fun e => (e.value.convertToFullColumn b.numRows)[r]?
  else none

/-- A value a column holds on some row is one of the values of its full column. -/
theorem DataBlock.mem_of_valueAt {b : DataBlock} {i r : Nat} {v : Scalar}
    (h : b.valueAt i r = some v) :
    ∃ e, b.columns[i]? = some e ∧ v ∈ e.value.convertToFullColumn b.numRows := by
  unfold valueAt at h
  split at h
  · obtain ⟨e, he, hv⟩ := Option.bind_eq_some.mp h
    exact ⟨e, he, List.getElem?_mem hv⟩
  · cases h

end Datafuse
