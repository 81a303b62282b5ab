import Datafuse.Expression.Vectorize

set_option autoImplicit false

/-! # Converting between Boolean and String

The end of `boolean::register`: `to_string` and `try_to_string` on `Boolean`, `to_boolean` and
`try_to_boolean` on `String`, with their kernels `eval_boolean_to_string` and
`eval_string_to_boolean`, each a row function under `vectorize_with_builder_1_arg`.

`eval_string_to_boolean` records an error on a string that is neither `true` nor `false` in any
ASCII case, at the row `output.len()`: the length of the output builder, which is the row index
because every branch of the row function pushes exactly one bit. `stringToBoolean_run` is the run
lemma of the loop, from the step lemma `stringToBooleanRow_step`; the errors of a whole column are
`parseErrors`, and `error_to_null` turns them into the validity of `try_to_boolean`. A row the
outer validity marks `NULL` records no error (`stringToBoolean_run_of_null`), so a string that
does not parse under a `NULL` row is harmless (`evalStringToBoolean_null_rows`).
-/

namespace Datafuse.Boolean

/-! ## ASCII text -/

/-- The bytes of an ASCII literal such as `b"true"`. -/
def asciiBytes (s : String) : List UInt8 := s.toList.map Char.toUInt8

/-- `u8::to_ascii_lowercase`: an uppercase ASCII letter moves to its lowercase one. -/
def asciiLowercase (b : UInt8) : UInt8 := if 65 ≤ b ∧ b ≤ 90 then b + 32 else b

/-- `<[u8]>::eq_ignore_ascii_case`: equal lengths, and equal bytes once lowercased. -/
def eqIgnoreAsciiCase (a b : List UInt8) : Bool :=
  a.length == b.length && (List.zip a b).all fun p => asciiLowercase p.1 == asciiLowercase p.2

/-- Whether a string reads `true` in some ASCII case. -/
def isTrueText (s : List UInt8) : Bool := eqIgnoreAsciiCase s (asciiBytes "true")

/-- Whether a string reads `true` or `false` in some ASCII case: the strings
`eval_string_to_boolean` parses. -/
def isBooleanText (s : List UInt8) : Bool :=
  eqIgnoreAsciiCase s (asciiBytes "true") || eqIgnoreAsciiCase s (asciiBytes "false")

/-! ## The kernels -/

/-- The message `eval_string_to_boolean` records. -/
def parseBooleanError : String := "unable to parse string to type \x60BOOLEAN\x60"

/-- The row function of `eval_boolean_to_string`. -/
def booleanToStringRow (val : Bool) (output : StringColumnBuilder) (ctx : EvalContext) :
    Result (StringColumnBuilder × EvalContext) :=
  .ok ((output.putStr (asciiBytes (if val then "true" else "false"))).commitRow, ctx)

/-- The row function of `eval_string_to_boolean`: an unparsable string is an error at the row
`output.len()`, and `false`. -/
def stringToBooleanRow (val : List UInt8) (output : List Bool) (ctx : EvalContext) :
    Result (List Bool × EvalContext) :=
  if eqIgnoreAsciiCase val (asciiBytes "true") then .ok (output ++ [true], ctx)
  else if eqIgnoreAsciiCase val (asciiBytes "false") then .ok (output ++ [false], ctx)
  else do
    let ctx ← ctx.setError output.length parseBooleanError
    pure (output ++ [false], ctx)

/-- `eval_boolean_to_string`, the kernel of `to_string` on `Boolean`. -/
def evalBooleanToString :
    TypedValue Bool → EvalContext → Result (TypedValue (List UInt8) × EvalContext) :=
  vectorizeWithBuilder1Arg stringBuilder booleanToStringRow

/-- `eval_string_to_boolean`, the kernel of `to_boolean` on `String`. -/
def evalStringToBoolean :
    TypedValue (List UInt8) → EvalContext → Result (TypedValue Bool × EvalContext) :=
  vectorizeWithBuilder1Arg booleanBuilder stringToBooleanRow

/-- `error_to_null(eval_boolean_to_string)`, the kernel of `try_to_string`. -/
def tryToString :
    TypedValue Bool → EvalContext → Result (NullableValue (List UInt8) × EvalContext) :=
  errorToNull evalBooleanToString

/-- `error_to_null(eval_string_to_boolean)`, the kernel of `try_to_boolean`. -/
def tryToBoolean :
    TypedValue (List UInt8) → EvalContext → Result (NullableValue Bool × EvalContext) :=
  errorToNull evalStringToBoolean

/-! ## One row -/

/-- A string that parses pushes its value and leaves the context as it is. -/
theorem stringToBooleanRow_of_isBooleanText {s : List UInt8} (hs : isBooleanText s)
    (output : List Bool) (ctx : EvalContext) :
    stringToBooleanRow s output ctx = .ok (output ++ [isTrueText s], ctx) := by
  unfold isBooleanText at hs
  unfold stringToBooleanRow isTrueText
  cases ht : eqIgnoreAsciiCase s (asciiBytes "true")
  · simp only [ht, Bool.false_or] at hs
    simp only [hs, Bool.false_eq_true, if_false, if_true]
  · rfl

/-- A string that does not parse is an error at the row `output.len()`, and pushes `false`. -/
theorem stringToBooleanRow_of_not_isBooleanText {s : List UInt8} (hs : isBooleanText s = false)
    (output : List Bool) (ctx : EvalContext) :
    stringToBooleanRow s output ctx =
      (ctx.setError output.length parseBooleanError).map fun ctx => (output ++ [false], ctx) := by
  simp only [isBooleanText, Bool.or_eq_false_iff] at hs
  simp only [stringToBooleanRow, hs.1, hs.2, Bool.false_eq_true, if_false]
  cases ctx.setError output.length parseBooleanError <;> rfl

theorem isTrueText_of_not_isBooleanText {s : List UInt8} (hs : isBooleanText s = false) :
    isTrueText s = false := by
  simp only [isBooleanText, Bool.or_eq_false_iff] at hs
  exact hs.1

/-! ## The errors of a column -/

/-- The errors recorded once the rows `done` of a block of `n` rows are read: none while every row
read parses; otherwise the bitmap that clears exactly the rows read that do not parse, and the
message. -/
def parseErrors (n : Nat) (done : List (List UInt8)) : Option (List Bool × String) :=
  if done.all isBooleanText then none
  else some (done.map isBooleanText ++ List.replicate (n - done.length) true, parseBooleanError)

@[simp]
theorem parseErrors_nil (n : Nat) : parseErrors n [] = none := rfl

/-- Clearing the first of the bits not yet read. -/
theorem set_length_replicate_true (l : List Bool) {m : Nat} (hm : 0 < m) :
    (l ++ List.replicate m true).set l.length false = l ++ false :: List.replicate (m - 1) true := by
  obtain ⟨m, rfl⟩ : ∃ k, m = k + 1 := ⟨m - 1, by omega⟩
  rw [List.set_append_right _ _ (Nat.le_refl _), Nat.sub_self]
  rfl

/-- A row that parses changes no error. -/
theorem parseErrors_append_good {n : Nat} {done : List (List UInt8)} {s : List UInt8}
    (hs : isBooleanText s) (hlen : done.length < n) :
    parseErrors n (done ++ [s]) = parseErrors n done := by
  unfold parseErrors
  have hrep : List.replicate (n - done.length) true =
      true :: List.replicate (n - (done.length + 1)) true := by
    rw [← List.replicate_succ]; congr 1; omega
  simp only [List.all_append, List.all_cons, List.all_nil, hs, Bool.and_true, List.map_append,
    List.map_cons, List.map_nil, List.length_append, List.length_singleton, List.append_assoc,
    List.singleton_append, hrep]

/-- A row that does not parse is cleared, and the first message stays. -/
theorem parseErrors_append_bad {n : Nat} {done : List (List UInt8)} {s : List UInt8}
    (hs : isBooleanText s = false) :
    parseErrors n (done ++ [s]) =
      some (done.map isBooleanText ++ false :: List.replicate (n - (done.length + 1)) true,
        parseBooleanError) := by
  simp only [parseErrors, List.all_append, List.all_cons, List.all_nil, hs, Bool.and_false,
    Bool.false_and, Bool.false_eq_true, if_false, List.map_append, List.map_cons, List.map_nil,
    List.length_append, List.length_singleton, List.append_assoc, List.singleton_append]

/-- While every row read parses, the bitmap of the rows that parse is all set. -/
theorem map_isBooleanText_of_all {done : List (List UInt8)} (hall : done.all isBooleanText) :
    done.map isBooleanText = List.replicate done.length true :=
  List.map_eq_replicate_iff.2 (List.all_eq_true.1 hall)

/-- The error at the row `output.len()`: the bitmap, the first error's or the one it creates, is
the rows read and then set bits, and the row is cleared in it. -/
theorem setError_parseErrors {n : Nat} {done : List (List UInt8)} (hlen : done.length < n) :
    EvalContext.setError ⟨n, none, parseErrors n done⟩ done.length parseBooleanError =
      .ok ⟨n, none, some (done.map isBooleanText ++ false ::
        List.replicate (n - (done.length + 1)) true, parseBooleanError)⟩ := by
  have hset : bitmapSet (done.map isBooleanText ++ List.replicate (n - done.length) true)
      done.length false =
      .ok (done.map isBooleanText ++ false :: List.replicate (n - (done.length + 1)) true) := by
    have hclear := set_length_replicate_true (done.map isBooleanText) (m := n - done.length)
      (by omega)
    rw [List.length_map, show n - done.length - 1 = n - (done.length + 1) by omega] at hclear
    rw [bitmapSet, if_pos (by simp only [List.length_append, List.length_map,
      List.length_replicate]; omega), hclear]
  simp only [EvalContext.setError, EvalContext.isNullRow, Bool.false_eq_true, if_false]
  by_cases hall : done.all isBooleanText
  · have hbits : List.replicate (max n 1) true =
        done.map isBooleanText ++ List.replicate (n - done.length) true := by
      rw [map_isBooleanText_of_all hall, ← List.replicate_add]; congr 1; omega
    simp only [parseErrors, hall, if_true, hbits, hset]
    rfl
  · simp only [parseErrors, hall, Bool.false_eq_true, if_false, hset]
    rfl

/-! ## The run over a column -/

/-- **The step lemma**: on a block with no `NULL` rows, one row pushes its value at the index
`output.len()` and brings the errors from the rows read before to the rows read now. -/
theorem stringToBooleanRow_step (n : Nat) (done : List (List UInt8)) (s : List UInt8)
    (hlen : done.length < n) :
    stringToBooleanRow s (done.map isTrueText) ⟨n, none, parseErrors n done⟩ =
      .ok ((done ++ [s]).map isTrueText, ⟨n, none, parseErrors n (done ++ [s])⟩) := by
  rw [List.map_append, List.map_singleton]
  cases hs : isBooleanText s
  case true =>
    rw [stringToBooleanRow_of_isBooleanText hs, parseErrors_append_good hs hlen]
  case false =>
    rw [stringToBooleanRow_of_not_isBooleanText hs, List.length_map,
      setError_parseErrors hlen, parseErrors_append_bad hs, isTrueText_of_not_isBooleanText hs]
    rfl

/-- **The run lemma**: the rows `rest`, read after the rows `done`, push their values and end
with the errors of all the rows read. -/
theorem stringToBoolean_run (n : Nat) (done rest : List (List UInt8))
    (hlen : done.length + rest.length ≤ n) :
    rest.foldlM (rowStep stringToBooleanRow) (done.map isTrueText, ⟨n, none, parseErrors n done⟩) =
      .ok ((done ++ rest).map isTrueText, ⟨n, none, parseErrors n (done ++ rest)⟩) := by
  induction rest generalizing done with
  | nil => rw [List.append_nil]; rfl
  | cons s rest ih =>
    rw [List.foldlM_cons]
    simp only [List.length_cons] at hlen
    rw [rowStep, stringToBooleanRow_step n done s (by omega), ok_bind,
      ih (done ++ [s]) (by rw [List.length_append, List.length_singleton]; omega),
      List.append_assoc, List.singleton_append]

/-- A column whose strings all parse: its values, and the context as it was. -/
theorem stringToBoolean_run_of_all {rest : List (List UInt8)}
    (hall : ∀ s ∈ rest, isBooleanText s) (output : List Bool) (ctx : EvalContext) :
    rest.foldlM (rowStep stringToBooleanRow) (output, ctx) =
      .ok (output ++ rest.map isTrueText, ctx) := by
  induction rest generalizing output with
  | nil => rw [List.map_nil, List.append_nil]; rfl
  | cons s rest ih =>
    rw [List.foldlM_cons, rowStep,
      stringToBooleanRow_of_isBooleanText (hall s (List.mem_cons_self _ _)), ok_bind,
      ih (fun s' hs' => hall s' (List.mem_cons_of_mem _ hs')), List.map_cons, List.append_assoc,
      List.singleton_append]

/-- The run of `eval_boolean_to_string`: each bit is written as `true` or `false` and committed
as its own row; the context is untouched. -/
theorem booleanToString_run (rows : List (List UInt8)) (bits : List Bool) (ctx : EvalContext) :
    bits.foldlM (rowStep booleanToStringRow) (⟨rows, []⟩, ctx) =
      .ok (⟨rows ++ bits.map fun b => asciiBytes (if b then "true" else "false"), []⟩, ctx) := by
  induction bits generalizing rows with
  | nil => rw [List.map_nil, List.append_nil]; rfl
  | cons b bits ih =>
    rw [List.foldlM_cons, rowStep, booleanToStringRow, ok_bind]
    simp only [StringColumnBuilder.putStr, StringColumnBuilder.commitRow, List.nil_append]
    rw [ih, List.map_cons, List.append_assoc, List.singleton_append]

/-- A string that does not parse at a row the outer validity marks `NULL` records no error:
`set_error` skips the row. -/
theorem stringToBooleanRow_of_null {s : List UInt8} {output : List Bool} {ctx : EvalContext}
    (hnull : isBooleanText s = false → ctx.isNullRow output.length = true) :
    stringToBooleanRow s output ctx = .ok (output ++ [isTrueText s], ctx) := by
  cases hs : isBooleanText s
  case true => exact stringToBooleanRow_of_isBooleanText hs output ctx
  case false =>
    rw [stringToBooleanRow_of_not_isBooleanText hs, EvalContext.setError, if_pos (hnull hs),
      isTrueText_of_not_isBooleanText hs]
    rfl

/-- **The run over `NULL` rows**: when every string that does not parse sits at a row the outer
validity marks `NULL`, the rows push their values and the context is untouched. -/
theorem stringToBoolean_run_of_null {ctx : EvalContext} :
    ∀ done rest : List (List UInt8), (∀ i s, rest[i]? = some s → isBooleanText s = false →
      ctx.isNullRow (done.length + i) = true) →
    rest.foldlM (rowStep stringToBooleanRow) (done.map isTrueText, ctx) =
      .ok ((done ++ rest).map isTrueText, ctx)
  | done, [], _ => by rw [List.append_nil]; rfl
  | done, s :: rest, hnull => by
      have hstep : stringToBooleanRow s (done.map isTrueText) ctx =
          .ok ((done ++ [s]).map isTrueText, ctx) := by
        rw [stringToBooleanRow_of_null (by
            rw [List.length_map]; exact hnull 0 s List.getElem?_cons_zero),
          List.map_append, List.map_singleton]
      have hrest := stringToBoolean_run_of_null (done ++ [s]) rest fun i s' hi hs' => by
        rw [List.length_append, List.length_singleton, Nat.add_assoc, Nat.add_comm 1 i]
        exact hnull (i + 1) s' (by rwa [List.getElem?_cons_succ]) hs'
      rw [List.foldlM_cons, rowStep, hstep, ok_bind, hrest, List.append_assoc,
        List.singleton_append]

/-! ## The kernels on a column -/

/-- `eval_string_to_boolean` on a column of a block with no `NULL` rows and no error yet: row `i`
is `true` exactly when the string reads `true`, and the errors clear exactly the rows that do not
parse. -/
theorem evalStringToBoolean_column (col : List (List UInt8)) (ctx : EvalContext)
    (hn : ctx.numRows = col.length) (hv : ctx.validity = none) (he : ctx.errors = none) :
    evalStringToBoolean (.column col) ctx =
      .ok (.column (col.map isTrueText), { ctx with errors := parseErrors col.length col }) := by
  obtain ⟨n, validity, errors⟩ := ctx
  simp only at hn hv he
  subst hn hv he
  have hrun := stringToBoolean_run col.length [] col (by simp only [List.length_nil,
    Nat.zero_add, Nat.le_refl])
  rw [List.map_nil, parseErrors_nil, List.nil_append] at hrun
  rw [evalStringToBoolean, vectorizeWithBuilder1Arg_column]
  exact congrArg (Except.map _) hrun

example : evalStringToBoolean (.column [asciiBytes "TRUE", asciiBytes "no", asciiBytes "False"])
      ⟨3, none, none⟩ =
    .ok (.column [true, false, false], ⟨3, none, some ([true, false, true], parseBooleanError)⟩) :=
  rfl

/-- **Strings under `NULL` rows raise no error.** On a column of a nullable argument whose
strings that do not parse all sit at rows the outer validity marks `NULL`,
`eval_string_to_boolean` gives each row its parse and records nothing: `set_error` skips a
`NULL` row, whatever errors were recorded before. -/
theorem evalStringToBoolean_null_rows (col : List (List UInt8)) (ctx : EvalContext)
    (hnull : ∀ i s, col[i]? = some s → isBooleanText s = false → ctx.isNullRow i = true) :
    evalStringToBoolean (.column col) ctx = .ok (.column (col.map isTrueText), ctx) := by
  have hrun := @stringToBoolean_run_of_null ctx [] col fun i s hi hs => by
    rw [List.length_nil, Nat.zero_add]
    exact hnull i s hi hs
  rw [List.map_nil, List.nil_append] at hrun
  rw [evalStringToBoolean, vectorizeWithBuilder1Arg_column]
  exact congrArg (Except.map _) hrun

/-- A nullable column whose `NULL` row holds the empty string. -/
theorem evalStringToBoolean_null_rows_empty :
    (∀ i s, [asciiBytes "TRUE", asciiBytes "", asciiBytes "false"][i]? = some s →
      isBooleanText s = false → (⟨3, some [true, false, true], none⟩ : EvalContext).isNullRow i) ∧
    evalStringToBoolean (.column [asciiBytes "TRUE", asciiBytes "", asciiBytes "false"])
        ⟨3, some [true, false, true], none⟩ =
      .ok (.column ([asciiBytes "TRUE", asciiBytes "", asciiBytes "false"].map isTrueText),
        ⟨3, some [true, false, true], none⟩) :=
  have hnull : ∀ i s, [asciiBytes "TRUE", asciiBytes "", asciiBytes "false"][i]? = some s →
      isBooleanText s = false →
        (⟨3, some [true, false, true], none⟩ : EvalContext).isNullRow i := by
    intro i s hi hs
    rcases i with _ | _ | _ | i <;> simp only [List.getElem?_cons_zero, List.getElem?_cons_succ,
      List.getElem?_nil, Option.some.injEq, reduceCtorEq] at hi <;> subst hi
    · exact absurd hs (by decide)
    · rfl
    · exact absurd hs (by decide)
  ⟨hnull, evalStringToBoolean_null_rows _ _ hnull⟩

/-- On the whole column, the errors are the bitmap of the rows that parse. -/
theorem parseErrors_length_self (col : List (List UInt8)) :
    parseErrors col.length col =
      if col.all isBooleanText then none else some (col.map isBooleanText, parseBooleanError) := by
  rw [parseErrors, Nat.sub_self, List.replicate_zero, List.append_nil]

/-- `eval_boolean_to_string` on a column: each bit as the text `true` or `false`, and no error. -/
theorem evalBooleanToString_column (bits : List Bool) (ctx : EvalContext) :
    evalBooleanToString (.column bits) ctx =
      .ok (.column (bits.map fun b => asciiBytes (if b then "true" else "false")), ctx) := by
  rw [evalBooleanToString, vectorizeWithBuilder1Arg_column]
  exact congrArg (Except.map _) (booleanToString_run [] bits ctx)

/-- `try_to_string` on a column: no row is `NULL`. -/
theorem tryToString_column (bits : List Bool) (ctx : EvalContext) (he : ctx.errors = none) :
    tryToString (.column bits) ctx =
      .ok (.column (bits.map fun b => asciiBytes (if b then "true" else "false"))
        (List.replicate bits.length true), ctx) := by
  rw [tryToString, errorToNull, evalBooleanToString_column, ok_bind]
  simp only [he, List.length_map]
  rfl

theorem isBooleanText_booleanText (b : Bool) :
    isBooleanText (asciiBytes (if b then "true" else "false")) := by
  cases b <;> decide

theorem isTrueText_booleanText (b : Bool) :
    isTrueText (asciiBytes (if b then "true" else "false")) = b := by
  cases b <;> decide

/-- `try_to_boolean` on a column of a block with no `NULL` rows and no error yet: `NULL` at exactly
the rows that do not parse, and no error left. -/
theorem tryToBoolean_column (col : List (List UInt8)) (ctx : EvalContext)
    (hn : ctx.numRows = col.length) (hv : ctx.validity = none) (he : ctx.errors = none) :
    tryToBoolean (.column col) ctx =
      .ok (.column (col.map isTrueText) (col.map isBooleanText), ctx) := by
  rw [tryToBoolean, errorToNull, evalStringToBoolean_column col ctx hn hv he, ok_bind,
    parseErrors_length_self]
  by_cases hall : col.all isBooleanText
  · simp only [hall, if_true, List.length_map, map_isBooleanText_of_all hall]
    rw [← he]
    rfl
  · simp only [hall, Bool.false_eq_true, if_false]
    rw [← he]
    rfl

/-- Every Boolean column, written by `eval_boolean_to_string`, reads back as itself, and the
context is untouched. -/
theorem evalStringToBoolean_booleanToString (bits : List Bool) (ctx : EvalContext) :
    (evalBooleanToString (.column bits) ctx >>= fun r => evalStringToBoolean r.1 r.2) =
      .ok (.column bits, ctx) := by
  have hall : ∀ s ∈ bits.map fun b => asciiBytes (if b then "true" else "false"),
      isBooleanText s := by
    intro s hs
    obtain ⟨b, -, rfl⟩ := List.mem_map.1 hs
    exact isBooleanText_booleanText b
  rw [evalBooleanToString_column, ok_bind, evalStringToBoolean, vectorizeWithBuilder1Arg_column,
    stringToBoolean_run_of_all hall]
  simp only [booleanBuilder, List.nil_append, List.map_map, Function.comp_def,
    isTrueText_booleanText, List.map_id']
  rfl

/-- **String to Boolean on a column.** On a block of `n` rows with no `NULL` rows and no error
yet, `eval_string_to_boolean` gives the column whose row `i` reads `true` in some ASCII case, and
records errors at exactly the rows that read neither `true` nor `false`; `try_to_boolean` is
`NULL` at exactly those rows and leaves no error. Written by `eval_boolean_to_string`, every
Boolean column reads back as itself, with the context untouched. -/
theorem stringToBoolean_errors_exact (col : List (List UInt8)) (ctx : EvalContext)
    (hn : ctx.numRows = col.length) (hv : ctx.validity = none) (he : ctx.errors = none) :
    evalStringToBoolean (.column col) ctx =
        .ok (.column (col.map isTrueText), { ctx with errors :=
          (if col.all isBooleanText then none else some (col.map isBooleanText, parseBooleanError)) })
      ∧ tryToBoolean (.column col) ctx =
        .ok (.column (col.map isTrueText) (col.map isBooleanText), ctx)
      ∧ ∀ (bits : List Bool) (ctx' : EvalContext),
        (evalBooleanToString (.column bits) ctx' >>= fun r => evalStringToBoolean r.1 r.2) =
          .ok (.column bits, ctx') := by
  have hcol := evalStringToBoolean_column col ctx hn hv he
  rw [parseErrors_length_self] at hcol
  exact ⟨hcol, tryToBoolean_column col ctx hn hv he, evalStringToBoolean_booleanToString⟩

theorem stringToBoolean_errors_exact_mixed :
    let col := [asciiBytes "TRUE", asciiBytes "no", asciiBytes "false"]
    let ctx : EvalContext := ⟨3, none, none⟩
    (ctx.numRows = col.length ∧ ctx.validity = none ∧ ctx.errors = none) ∧
      (evalStringToBoolean (.column col) ctx =
        .ok (.column (col.map isTrueText), { ctx with errors :=
          (if col.all isBooleanText then none else some (col.map isBooleanText, parseBooleanError)) })
      ∧ tryToBoolean (.column col) ctx =
        .ok (.column (col.map isTrueText) (col.map isBooleanText), ctx)
      ∧ ∀ (bits : List Bool) (ctx' : EvalContext),
        (evalBooleanToString (.column bits) ctx' >>= fun r => evalStringToBoolean r.1 r.2) =
          .ok (.column bits, ctx')) :=
  ⟨⟨rfl, rfl, rfl⟩, stringToBoolean_errors_exact _ _ rfl rfl rfl⟩

/-! ## The kernels on a scalar -/

/-- `try_to_boolean` on a scalar: its value when the string parses, `NULL` otherwise, and no
error left. The first error's bitmap has `max(num_rows, 1)` bits, so the error at row `0` is
recorded even on a block of no rows. -/
theorem tryToBoolean_scalar (s : List UInt8) (ctx : EvalContext) (hv : ctx.validity = none)
    (he : ctx.errors = none) :
    tryToBoolean (.scalar s) ctx =
      .ok (.scalar (if isBooleanText s then some (isTrueText s) else none), ctx) := by
  obtain ⟨n, validity, errors⟩ := ctx
  simp only at hv he
  subst hv he
  rw [tryToBoolean, errorToNull, evalStringToBoolean, vectorizeWithBuilder1Arg]
  cases hs : isBooleanText s
  case true =>
    rw [stringToBooleanRow_of_isBooleanText hs]
    rfl
  case false =>
    have hrow : 0 < (List.replicate (max n 1) true).length := by
      rw [List.length_replicate]; omega
    rw [stringToBooleanRow_of_not_isBooleanText hs]
    simp only [EvalContext.setError, EvalContext.isNullRow, bitmapSet, booleanBuilder,
      List.length_nil, hrow, Bool.false_eq_true, if_false, if_true]
    rfl

theorem tryToBoolean_scalar_empty_block :
    (EvalContext.mk 0 none none).validity = none ∧ (EvalContext.mk 0 none none).errors = none ∧
      tryToBoolean (.scalar (asciiBytes "maybe")) ⟨0, none, none⟩ =
        .ok (.scalar (if isBooleanText (asciiBytes "maybe")
          then some (isTrueText (asciiBytes "maybe")) else none), ⟨0, none, none⟩) :=
  ⟨rfl, rfl, tryToBoolean_scalar _ _ rfl rfl⟩

end Datafuse.Boolean
