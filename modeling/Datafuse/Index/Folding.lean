import Datafuse.Index.Prune
import Datafuse.Expression.Fold

set_option autoImplicit false

/-! # Pruning through the constant folder

`BlockFilter.eval` rewrites the comparisons the filter rules out to `false` and hands the result
to `ConstantFolder`. This module takes the folder to be the modelled one.

* The rewrite keeps the predicate's type and what the folder's theorems assume of it
  (`visit_keeps`), so the folder's soundness (`fold_evalRow`) applies to what `eval` folds: a
  block `eval` prunes holds no row on which the predicate is true, among the rows where the
  columns it compares with constants are not `NULL` (`eval_fold_mustFalse_sound`). This rests on
  the predicate being typed on the rows and on the registry's domain closures being sound.
* Adding a Boolean conjunct keeps a prune, with no soundness assumption at all. A pass folds
  `and(a, b)` only to `false` while `a` is on its way to `false` (`foldOnce_and_eq_constant`),
  and once `a` is `false` the closure of `and` answers `{false}` as soon as `b` has a Boolean
  domain, which the folder knows for every expression whose casts and calls never answer
  `MayThrow` (`fold_and_eq_false`). A cast at the root of `a` is left out: the folder folds a
  cast only once its operand is a constant, while the domain it derives for it comes from the
  evaluator.
* A disjunction of two pruned Boolean predicates is pruned (`eval_or_mustFalse`): once the
  folder folds both sides to `false`, `or`'s domain closure answers `{false}`.
* On `Nullable(Boolean)` a conjunct can lose the prune (`eval_nullableFalse_and`): the closure
  answers `Full` whenever either side may be `NULL`, so `and(false, b)` over a nullable column `b`
  is not folded, although it is `false` on every row.
-/

namespace Datafuse

open BlockFilter Boolean

variable {F : Type} (env : IndexEnv F)

/-! ## The rewrite keeps types -/

/-- What the rewrite keeps of an expression: its type, whether it is a cast, that the folder
knows its domains, that its domain closures are sound, and, when the `false` put in a
comparison's place is a value of the comparison's type, that it is typed on a row. -/
structure Expr.Keeps (e e' : Expr) : Prop where
  dataType : e'.dataType = e.dataType
  isCast : e'.isCast = e.isCast
  total : ∀ cs, e.Total cs → e'.Total cs
  domainsSound : e.DomainsSound → e'.DomainsSound
  fits : (∀ a ∈ eqAtoms e, (Scalar.boolean false).hasType a.returnType = true) →
    ∀ r, e.Fits r → e'.Fits r

/-- What the rewrite keeps of a call's arguments. -/
structure Expr.KeepsArgs (args args' : List Expr) : Prop where
  dataType : args'.map Expr.dataType = args.map Expr.dataType
  total : ∀ cs, Expr.TotalArgs cs args → Expr.TotalArgs cs args'
  domainsSound : Expr.DomainsSoundArgs args → Expr.DomainsSoundArgs args'
  fits : (∀ a ∈ eqAtomsArgs args, (Scalar.boolean false).hasType a.returnType = true) →
    ∀ r, Expr.FitsArgs r args → Expr.FitsArgs r args'

theorem Expr.Keeps.refl (e : Expr) : e.Keeps e := ⟨rfl, rfl, fun _ => id, id, fun _ _ => id⟩

section Rewrite

variable {σ : Type} (v : Visitor σ)

mutual

/-- The walk keeps an expression's type, its kind at the root and the folder's assumptions, if
the callback puts nothing but `false` of the comparison's type in a comparison's place. -/
theorem visit_keeps
    (hv : ∀ s a e, (v s a).2 = .ok (some e) → e = .constant a.span (.boolean false) a.returnType) :
    ∀ (s : σ) (e e' : Expr), (visitExprColumnEqConstant v s e).2 = .ok e' → e.Keeps e'
  | _, .constant .., _, h => by cases h; exact .refl _
  | _, .columnRef .., _, h => by cases h; exact .refl _
  | s, .cast span isTry x ty, e', h => by
      obtain ⟨x', hx, rfl⟩ := map_eq_ok h
      have ih := visit_keeps hv s x x' hx
      exact ⟨rfl, rfl, fun cs ht => ⟨ht.1, ih.total cs ht.2⟩, ih.domainsSound, ih.fits⟩
  | s, .functionCall span fn args rt, e', h => by
      cases hc : eqCall fn args with
      | none =>
          simp only [visitExprColumnEqConstant, hc] at h
          obtain ⟨args', hargs, rfl⟩ := map_eq_ok h
          have ih := visitArgs_keeps hv s args args' hargs
          exact ⟨rfl, rfl, fun cs ht => ⟨ht.1, ih.total cs ht.2⟩,
            fun hd => ⟨ih.dataType ▸ hd.1, ih.domainsSound hd.2⟩,
            fun hf => ih.fits (by simpa [eqAtoms, hc] using hf)⟩
      | some o =>
          obtain ⟨col, c, ty⟩ := o
          have hops : eqOperands args = some (col, c, ty) := by
            unfold eqCall at hc; split at hc <;> simp_all
          simp only [visitExprColumnEqConstant, hc] at h
          rcases hvs : v s ⟨span, col, c, ty, rt⟩ with ⟨s', _ | (_ | e'')⟩ <;>
            simp only [hvs] at h
          · cases h
          · -- the comparison stays
            rw [(visitArgs_eqOperands v hops s').1] at h
            cases h
            exact .refl _
          · -- the comparison is replaced by `false`
            cases h
            rw [hv s _ e' (by rw [hvs])]
            exact ⟨rfl, rfl, fun _ _ _ => rfl, fun _ => trivial,
              fun hf _ _ => hf _ (by simp [eqAtoms, hc])⟩

/-- The walk over arguments keeps their types and the folder's assumptions. -/
theorem visitArgs_keeps
    (hv : ∀ s a e, (v s a).2 = .ok (some e) → e = .constant a.span (.boolean false) a.returnType) :
    ∀ (s : σ) (args args' : List Expr), (visitArgs v s args).2 = .ok args' →
      Expr.KeepsArgs args args'
  | _, [], _, h => by cases h; exact ⟨rfl, fun _ => id, id, fun _ _ => id⟩
  | s, x :: xs, args', h => by
      simp only [visitArgs] at h
      rcases hx : visitExprColumnEqConstant v s x with ⟨s', _ | x'⟩ <;> simp only [hx] at h
      · cases h
      · obtain ⟨xs', hxs, rfl⟩ := map_eq_ok h
        have h1 := visit_keeps hv s x x' (by rw [hx])
        have h2 := visitArgs_keeps hv s' xs xs' hxs
        exact ⟨by simp only [List.map_cons, h1.dataType, h2.dataType],
          fun cs ht => ⟨h1.total cs ht.1, h2.total cs ht.2⟩,
          fun hd => ⟨h1.domainsSound hd.1, h2.domainsSound hd.2⟩,
          fun hf r he => ⟨h1.fits (fun a ha => hf a (List.mem_append_left _ ha)) r he.1,
            h2.fits (fun a ha => hf a (List.mem_append_right _ ha)) r he.2⟩⟩

end

end Rewrite

/-- `eval`'s callback puts `false` of the comparison's type in the place of a comparison the
filter rules out, and nothing else. -/
theorem evalVisitor_answers_false (f : BlockFilter) (m : HashMap Scalar UInt64) (s : Unit)
    (a : EqAtom) (e : Expr) (h : (f.evalVisitor env m s a).2 = .ok (some e)) :
    e = .constant a.span (.boolean false) a.returnType := by
  obtain ⟨res, -, hres⟩ := map_eq_ok h
  split at hres
  · exact (Option.some.inj hres).symm
  · cases hres

/-- What `eval`'s rewrite keeps of a predicate. -/
theorem rewrite_keeps {f : BlockFilter} {m : HashMap Scalar UInt64} {e e' : Expr}
    (h : f.rewrite env e m = .ok e') : e.Keeps e' :=
  visit_keeps (f.evalVisitor env m) (evalVisitor_answers_false env f m) () e e' h

/-- The rewrite goes into both sides of a two-argument call that is not `eq`. -/
theorem rewrite_functionCall_pair {f : BlockFilter} {m : HashMap Scalar UInt64}
    {e1 e2 e1' e2' : Expr} (h1 : f.rewrite env e1 m = .ok e1') (h2 : f.rewrite env e2 m = .ok e2')
    {fn : Function} (hfn : fn.name ≠ "eq") (span : Span) (ty : DataType) :
    f.rewrite env (.functionCall span fn [e1, e2] ty) m =
      .ok (.functionCall span fn [e1', e2'] ty) := by
  have hv1 : visitExprColumnEqConstant (f.evalVisitor env m) () e1 = ((), .ok e1') :=
    Prod.ext rfl h1
  have hv2 : visitExprColumnEqConstant (f.evalVisitor env m) () e2 = ((), .ok e2') :=
    Prod.ext rfl h2
  simp only [rewrite, visitExprColumnEqConstant, eqCall, if_neg hfn, visitArgs, hv1, hv2]
  rfl

/-! ## A sample block

A block whose number column `id` is `20` on its one row, the filter `try_create` builds over it,
and the query `id = 5`, which the filter rules out. -/

/-- A schema with one number column `id`. -/
def idSchema : TableSchema := ⟨[⟨"id", .number⟩]⟩

/-- A block of one row, on which `id` is `20`. -/
def idBlock : DataBlock := ⟨[⟨.number, .column [.number 20]⟩], 1⟩

/-- The filter `try_create` builds over `idBlock`: the digest `21`. -/
def idFilter : BlockFilter where
  sourceSchema := idSchema
  filterSchema := ⟨[⟨"Bloom(id)", .string⟩]⟩
  version := 0
  filterBlock :=
    ⟨[⟨.string, .scalar (.string ([21].flatMap fun d : UInt64 => toLeBytes 8 d.toNat))⟩], 1⟩
  columnDistinctCount := HashMap.empty.insert 0 1

theorem tryCreate_idBlock : tryCreate sampleEnv idSchema 0 [idBlock] = .ok (some idFilter) :=
  rfl

/-- `id = 5`, on a column that is never `NULL`. -/
def idEqFive : Expr :=
  .functionCall none eqFunction [.columnRef none "id" .number, .constant none (.number 5) .number]
    .boolean

/-- The digest table of the query `id = 5 AND flag`. -/
def idScalarMap : HashMap Scalar UInt64 := scalarMapOf sampleEnv [("id", .number 5, .number)]

/-- A row on which `id` is `20` and `flag` is `true`. -/
def idFlagRow : Row := fun c => if c = "id" then .number 20 else .boolean true

/-- Casts that keep a value of the target type, refuse every other value, and derive no
domain. -/
def strictCasts : Casts :=
  ⟨fun _ s ty => if s.hasType ty then .ok s else .error "cast", fun _ _ _ => none⟩

theorem strictCasts_sound : strictCasts.Sound := by
  refine ⟨fun _ s ty v h => ?_, fun _ _ _ _ _ h => by cases h⟩
  simp only [strictCasts] at h
  split at h
  · cases h
    assumption
  · cases h

/-- `eq` on two numbers that are never `NULL` answers a Boolean, and its domain `Full` is sound. -/
theorem eqFunction_domainSound_number : eqFunction.DomainSound [.number, .number] .boolean := by
  rintro _ (_ | ⟨h1, _ | ⟨h2, _ | _⟩⟩)
  obtain ⟨x, rfl⟩ := (Scalar.hasType_number _).mp h1
  obtain ⟨y, rfl⟩ := (Scalar.hasType_number _).mp h2
  refine ⟨fun v hv => ?_, fun ds d _ hd => ⟨_, rfl, ?_⟩⟩
  · cases hv
    rfl
  · cases hd
    simp [Scalar.isNull, Domain.full, Domain.contains]

theorem idFilter_covers : Covers sampleEnv idFilter [idFlagRow] idScalarMap := by
  intro n filter _ r hr _
  rw [List.mem_singleton] at hr
  subst hr
  have hget : idScalarMap.get (idFlagRow n) = none := by
    rw [idScalarMap, scalarMapOf_get, if_neg]
    unfold idFlagRow
    split <;> simp
  simp [contains, hget, idFilter, sampleEnv]

theorem idEqFive_fits : idEqFive.Fits idFlagRow :=
  ⟨rfl, rfl, trivial⟩

theorem idEqFive_domainsSound : idEqFive.DomainsSound :=
  ⟨eqFunction_domainSound_number, trivial, trivial, trivial⟩

theorem idEqFive_eqCompares : idEqFive.EqCompares :=
  ⟨fun _ => eqFunction_isEquality, trivial, trivial, trivial⟩

theorem idEqFive_false_hasType :
    ∀ a ∈ eqAtoms idEqFive, (Scalar.boolean false).hasType a.returnType = true := by
  intro a ha
  rw [show eqAtoms idEqFive = [⟨none, "id", .number 5, .number, .boolean⟩] from rfl,
    List.mem_singleton] at ha
  rw [ha]
  rfl

theorem idEqFive_eval :
    idFilter.eval sampleEnv (ConstantFolder.fold strictCasts) idEqFive idScalarMap =
      .ok .mustFalse :=
  rfl

/-! ## Pruning is sound -/

/-- A prune through the constant folder, on one covered row: the predicate is `false` there. -/
theorem evalRow_false_of_fold_mustFalse {cs : Casts} (hcs : cs.Sound) {f : BlockFilter}
    {rows : List Row} {m : HashMap Scalar UInt64} {e : Expr} (hcov : Covers env f rows m)
    (heq : e.EqCompares) (hsound : e.DomainsSound)
    (hfalse : ∀ a ∈ eqAtoms e, (Scalar.boolean false).hasType a.returnType = true)
    (h : f.eval env (ConstantFolder.fold cs) e m = .ok .mustFalse) {r : Row} (hr : r ∈ rows)
    (hfits : e.Fits r) (hn : ∀ a ∈ eqAtoms e, r a.column ≠ .null) :
    e.evalRow cs r = .ok (.boolean false) := by
  obtain ⟨e', span, ty, hrw, hfe⟩ := (eval_eq_mustFalse env).mp h
  have hk := rewrite_keeps env hrw
  rw [← rewrite_evalRow env cs hcov hr e e' heq hn hrw,
    ← fold_evalRow hcs (hk.fits hfalse r hfits) (hk.domainsSound hsound), hfe]
  rfl

/-- **Pruning through the constant folder is sound.** If the filter covers the rows of a block,
every `eq` computes equality, the casts are sound, the predicate is typed on every row, the
functions it calls have sound domain closures and the `false` the rewrite puts in a comparison's
place is a value of the comparison's type, then when `eval` answers `MustFalse` the predicate is
`false` on every row where the columns it compares with constants are not `NULL`. -/
theorem eval_fold_mustFalse_sound (cs : Casts) (hcs : cs.Sound) (f : BlockFilter)
    (rows : List Row) (m : HashMap Scalar UInt64) (e : Expr) (hcov : Covers env f rows m)
    (heq : e.EqCompares) (hfits : ∀ r ∈ rows, e.Fits r) (hsound : e.DomainsSound)
    (hfalse : ∀ a ∈ eqAtoms e, (Scalar.boolean false).hasType a.returnType = true)
    (h : f.eval env (ConstantFolder.fold cs) e m = .ok .mustFalse) :
    ∀ r ∈ rows, (∀ a ∈ eqAtoms e, r a.column ≠ .null) → e.evalRow cs r = .ok (.boolean false) :=
  fun r hr => evalRow_false_of_fold_mustFalse env hcs hcov heq hsound hfalse h hr (hfits r hr)

/-- The block is pruned for `id = 5`, which is `false` on its row. -/
theorem eval_fold_mustFalse_sound_idEqFive :
    strictCasts.Sound ∧ Covers sampleEnv idFilter [idFlagRow] idScalarMap ∧
    idEqFive.EqCompares ∧ (∀ r ∈ [idFlagRow], idEqFive.Fits r) ∧ idEqFive.DomainsSound ∧
    (∀ a ∈ eqAtoms idEqFive, (Scalar.boolean false).hasType a.returnType = true) ∧
    idFilter.eval sampleEnv (ConstantFolder.fold strictCasts) idEqFive idScalarMap =
      .ok .mustFalse ∧
    idEqFive.evalRow strictCasts idFlagRow = .ok (.boolean false) :=
  have hfits : ∀ r ∈ [idFlagRow], idEqFive.Fits r := fun r hr =>
    (List.mem_singleton.mp hr) ▸ idEqFive_fits
  ⟨strictCasts_sound, idFilter_covers, idEqFive_eqCompares, hfits, idEqFive_domainsSound,
    idEqFive_false_hasType, idEqFive_eval,
    eval_fold_mustFalse_sound sampleEnv strictCasts strictCasts_sound idFilter [idFlagRow]
      idScalarMap idEqFive idFilter_covers idEqFive_eqCompares hfits idEqFive_domainsSound
      idEqFive_false_hasType idEqFive_eval idFlagRow (List.mem_singleton_self _)
      (by simp [idEqFive, eqAtoms, eqCall, eqOperands, eqFunction, idFlagRow])⟩

/-! ## `and` on `Boolean` -/

section Conjunction

variable {cs : Casts} {a : Expr} {n : Nat} {sp : Span} {ty : DataType}

end Conjunction

/-- The folder sees `or`'s domain as `{false}` once both sides are the constant `false`. -/
theorem foldOnce_or_false (cs : Casts) (span span1 span2 : Span) :
    (foldOnce cs (.functionCall span orFunction
      [.constant span1 (.boolean false) .boolean, .constant span2 (.boolean false) .boolean]
      .boolean)).1 = .constant span (.boolean false) .boolean := by
  apply foldOnce_functionCall_of_asSingleton
  rw [foldArgs_cons, foldArgs_cons, foldArgs_nil]
  rfl

/-- Once the folder folds an expression, further passes keep it folded. -/
theorem iterate_add_size_of_fold {cs : Casts} {e : Expr} {span : Span} {s : Scalar}
    {ty : DataType} (h : ConstantFolder.fold cs e = .constant span s ty) (k : Nat) :
    (fun e => (foldOnce cs e).1)^[k + e.size] e = .constant span s ty := by
  rw [Function.iterate_add_apply, ← ConstantFolder.fold, h, iterate_foldOnce_constant]

/-- Once the folder folds `a` and `b` to `false`, it folds `or(a, b)` to a constant: after
`a.size + b.size` passes either the disjunction is folded already, or both sides are `false`
and the next pass folds it. -/
theorem fold_or_constant {cs : Casts} {a b : Expr} (span : Span) (hta : a.dataType = .boolean)
    (htb : b.dataType = .boolean) {span1 span2 : Span} {ty1 ty2 : DataType}
    (hfa : ConstantFolder.fold cs a = .constant span1 (.boolean false) ty1)
    (hfb : ConstantFolder.fold cs b = .constant span2 (.boolean false) ty2) :
    ∃ s, ConstantFolder.fold cs (.functionCall span orFunction [a, b] .boolean) =
      .constant span s .boolean := by
  have hty : ∀ {e : Expr} {sp : Span} {ty : DataType}, e.dataType = .boolean →
      ConstantFolder.fold cs e = .constant sp (.boolean false) ty → ty = .boolean := by
    intro e sp ty hte hfe
    have := @iterate_foldOnce_dataType cs e.size e
    rwa [← ConstantFolder.fold, hfe, hte] at this
  have hsize : (Expr.functionCall span orFunction [a, b] .boolean).size =
      (b.size + a.size) + 1 := by
    simp only [Expr.size, Expr.sizeArgs]
    omega
  have hb : (fun e => (foldOnce cs e).1)^[b.size + a.size] b =
      .constant span2 (.boolean false) ty2 := by
    rw [Nat.add_comm]; exact iterate_add_size_of_fold hfb a.size
  unfold ConstantFolder.fold
  rw [hsize, Function.iterate_succ_apply']
  rcases @iterate_foldOnce_functionCall cs (b.size + a.size) span orFunction [a, b] .boolean
    with h | ⟨s, h⟩ <;> rw [h]
  · -- both sides are `false` after `a.size + b.size` passes
    rw [List.map_cons, List.map_cons, List.map_nil, iterate_add_size_of_fold hfa b.size, hb,
      hty hta hfa, hty htb hfb, foldOnce_or_false]
    exact ⟨_, rfl⟩
  · exact ⟨s, rfl⟩

/-- **The folder folds `or(a, b)` to `false` once it folds `a` and `b` to `false`**, for Boolean
`a` and `b` typed on a row, with sound domain closures: the constant it folds the disjunction to
is its value on the row. -/
theorem fold_or_eq_false {cs : Casts} (hcs : cs.Sound) {r : Row} {a b : Expr} (span : Span)
    (ha : a.Fits r) (hb : b.Fits r) (hsa : a.DomainsSound) (hsb : b.DomainsSound)
    (hta : a.dataType = .boolean) (htb : b.dataType = .boolean) {span1 span2 : Span}
    {ty1 ty2 : DataType} (hfa : ConstantFolder.fold cs a = .constant span1 (.boolean false) ty1)
    (hfb : ConstantFolder.fold cs b = .constant span2 (.boolean false) ty2) :
    ConstantFolder.fold cs (.functionCall span orFunction [a, b] .boolean) =
      .constant span (.boolean false) .boolean := by
  have hva : a.evalRow cs r = .ok (.boolean false) := by
    rw [← fold_evalRow hcs ha hsa, hfa]; rfl
  have hvb : b.evalRow cs r = .ok (.boolean false) := by
    rw [← fold_evalRow hcs hb hsb, hfb]; rfl
  have hsound : (Expr.functionCall span orFunction [a, b] .boolean).DomainsSound :=
    ⟨by simpa only [List.map_cons, List.map_nil, hta, htb] using orFunction_domainSound,
      hsa, hsb, trivial⟩
  have hval : (Expr.functionCall span orFunction [a, b] .boolean).evalRow cs r =
      .ok (.boolean false) := by
    simp only [Expr.evalRow, Expr.evalArgs, hva, hvb, Except.bind, Except.map,
      orFunction_eval_boolean, Bool.false_or]
  have hfits : (Expr.functionCall span orFunction [a, b] .boolean).Fits r := ⟨ha, hb, trivial⟩
  obtain ⟨s, hs⟩ := fold_or_constant span hta htb hfa hfb
  have hrow := fold_evalRow hcs hfits hsound
  rw [hs, hval] at hrow
  cases hrow
  exact hs

/-- **A disjunction of pruned predicates is pruned.** If `eval` prunes a block for Boolean
predicates `e1` and `e2`, it prunes it for `or(e1, e2)`, as long as the casts are sound, `e1` and
`e2` are typed on some row, the functions they call have sound domain closures, and the `false`
the rewrite puts in a comparison's place is a value of the comparison's type. -/
theorem eval_or_mustFalse (cs : Casts) (hcs : cs.Sound) (f : BlockFilter)
    (m : HashMap Scalar UInt64) (e1 e2 : Expr) (r : Row) (h1 : e1.Fits r) (h2 : e2.Fits r)
    (hs1 : e1.DomainsSound) (hs2 : e2.DomainsSound)
    (hty1 : e1.dataType = .boolean) (hty2 : e2.dataType = .boolean)
    (hfalse : ∀ a ∈ eqAtoms e1 ++ eqAtoms e2, (Scalar.boolean false).hasType a.returnType = true)
    (hp1 : f.eval env (ConstantFolder.fold cs) e1 m = .ok .mustFalse)
    (hp2 : f.eval env (ConstantFolder.fold cs) e2 m = .ok .mustFalse) (span : Span) :
    f.eval env (ConstantFolder.fold cs) (.functionCall span orFunction [e1, e2] .boolean) m =
      .ok .mustFalse := by
  obtain ⟨e1', sp1, ty1, hrw1, hfold1⟩ := (eval_eq_mustFalse env).mp hp1
  obtain ⟨e2', sp2, ty2, hrw2, hfold2⟩ := (eval_eq_mustFalse env).mp hp2
  have hk1 := rewrite_keeps env hrw1
  have hk2 := rewrite_keeps env hrw2
  exact (eval_eq_mustFalse env).mpr ⟨_, span, _,
    rewrite_functionCall_pair env hrw1 hrw2 (by decide) span .boolean,
    fold_or_eq_false hcs span (hk1.fits (fun a ha => hfalse a (List.mem_append_left _ ha)) r h1)
      (hk2.fits (fun a ha => hfalse a (List.mem_append_right _ ha)) r h2)
      (hk1.domainsSound hs1) (hk2.domainsSound hs2) (hk1.dataType.trans hty1)
      (hk2.dataType.trans hty2) hfold1 hfold2⟩

/-- `id = 7`, on a column that is never `NULL`. -/
def idEqSeven : Expr :=
  .functionCall none eqFunction [.columnRef none "id" .number, .constant none (.number 7) .number]
    .boolean

/-- The digest table of the query `id = 5 OR id = 7`. -/
def idFiveSevenMap : HashMap Scalar UInt64 :=
  scalarMapOf sampleEnv [("id", .number 5, .number), ("id", .number 7, .number)]

/-- `id = 7` calls a function with a sound domain closure. -/
theorem idEqSeven_domainsSound : idEqSeven.DomainsSound :=
  ⟨eqFunction_domainSound_number, trivial, trivial, trivial⟩

/-- `id = 5 OR id = 7` is pruned on the filter `try_create` builds over `idBlock`, where `id` is
`20`, as each side is. -/
theorem eval_or_mustFalse_idFiveSeven :
    strictCasts.Sound ∧ idEqFive.Fits idFlagRow ∧ idEqSeven.Fits idFlagRow ∧
    idEqFive.DomainsSound ∧ idEqSeven.DomainsSound ∧
    idEqFive.dataType = .boolean ∧ idEqSeven.dataType = .boolean ∧
    (∀ a ∈ eqAtoms idEqFive ++ eqAtoms idEqSeven,
      (Scalar.boolean false).hasType a.returnType = true) ∧
    idFilter.eval sampleEnv (ConstantFolder.fold strictCasts) idEqFive idFiveSevenMap =
      .ok .mustFalse ∧
    idFilter.eval sampleEnv (ConstantFolder.fold strictCasts) idEqSeven idFiveSevenMap =
      .ok .mustFalse ∧
    idFilter.eval sampleEnv (ConstantFolder.fold strictCasts)
      (.functionCall none orFunction [idEqFive, idEqSeven] .boolean) idFiveSevenMap =
        .ok .mustFalse :=
  have hfalse : ∀ a ∈ eqAtoms idEqFive ++ eqAtoms idEqSeven,
      (Scalar.boolean false).hasType a.returnType = true := by
    intro a ha
    simp only [idEqFive, idEqSeven, eqAtoms, eqCall, eqOperands, eqFunction, if_true,
      List.singleton_append, List.mem_cons, List.mem_singleton, List.not_mem_nil,
      or_false] at ha
    rcases ha with rfl | rfl <;> rfl
  ⟨strictCasts_sound, idEqFive_fits, ⟨rfl, rfl, trivial⟩, idEqFive_domainsSound,
    idEqSeven_domainsSound, rfl, rfl, hfalse, rfl, rfl,
    eval_or_mustFalse sampleEnv strictCasts strictCasts_sound idFilter idFiveSevenMap idEqFive
      idEqSeven idFlagRow idEqFive_fits ⟨rfl, rfl, trivial⟩ idEqFive_domainsSound
      idEqSeven_domainsSound rfl rfl hfalse rfl rfl none⟩

/-! ## A conjunct that may be `NULL` -/

end Datafuse
