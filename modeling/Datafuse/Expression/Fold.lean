import Datafuse.Expression.Eval
import Mathlib.Data.List.Forall2

set_option autoImplicit false

/-! # Soundness of the constant folder

`ConstantFolder` replaces a call by a constant when the call's domain holds one value, or when
its arguments are constants and evaluating it succeeds. It is sound as long as the domains it
computes with hold the values the expressions take: a domain closure that answers a domain
promises that the call evaluates without error to a value of that domain.

Two assumptions are kept apart. `Expr.Fits` says that an expression is typed on a row (its
constants and the row's values of its columns have their types); `Expr.DomainsSound` is what the
folder assumes of the function registry (every function the expression calls has a sound domain
closure at the call's types). `foldOnce_evalRow` says that one pass keeps the value of an
expression on every row where it is typed, for expressions with sound domain closures;
`fold_evalRow` extends it to the repeated pass.

`foldOnce_domain_isBoolean` says when the folder knows a domain for every node, a Boolean one for
the nodes of type `Boolean` (`Expr.Total`), with no soundness assumption, and
`iterate_foldOnce_functionCall` how a call looks after any number of passes: those two are what a
conjunction's fold rests on.
-/

namespace Datafuse

/-! ## Types and domains of values -/

/-- Whether a value is one of a type's: `NULL` is a value of `Null` and of the nullable types. -/
def Scalar.hasType : Scalar → DataType → Bool
  | .null, .null | .null, .nullable _ => true
  | .null, _ => false
  | s, .nullable ty => s.hasType ty
  | .emptyArray, .emptyArray | .emptyArray, .array _ => true
  | .number _, .number | .timestamp _, .timestamp | .date _, .date => true
  | .boolean _, .boolean | .string _, .string => true
  | _, _ => false

/-- Whether a domain holds a value: a Boolean domain the Booleans it flags, a nullable domain
`NULL` when it may be `NULL` and otherwise what its inner domain holds, an untracked domain
every value. -/
def Domain.contains : Domain → Scalar → Bool
  | .boolean hasFalse hasTrue, .boolean b => if b then hasTrue else hasFalse
  | .nullable hasNull _, .null => hasNull
  | .nullable _ (some d), s => d.contains s
  | .undefined, _ => true
  | _, _ => false

/-- A Boolean domain. -/
def Domain.isBoolean : Domain → Bool
  | .boolean .. => true
  | _ => false

/-- The domain the folder gives a constant holds it. -/
theorem Scalar.domain_contains (s : Scalar) : ∀ ty : DataType, (s.domain ty).contains s = true
  | .nullable ty => by cases s <;> first | rfl | exact Scalar.domain_contains _ ty
  | .null | .emptyArray | .boolean | .string | .number | .timestamp | .date | .array _
  | .variant => by cases s <;> first | rfl | (rename_i b; cases b <;> rfl)

/-- The full domain of a type holds its values. -/
theorem Domain.full_contains {s : Scalar} : ∀ {ty : DataType}, s.hasType ty = true →
    (Domain.full ty).contains s = true
  | .nullable ty, h => by cases s <;> first | rfl | exact @Domain.full_contains _ ty h
  | .null, h | .boolean, h => by cases s <;> first | rfl | (rename_i b; cases b <;> rfl) | cases h
  | .emptyArray, _ | .string, _ | .number, _ | .timestamp, _ | .date, _ | .array _, _
  | .variant, _ => rfl

/-- A domain that holds one value holds nothing else. -/
theorem Domain.eq_of_asSingleton {s v : Scalar} : ∀ {d : Domain}, d.asSingleton = some s →
    d.contains v = true → v = s
  | .boolean hf ht, h, hv => by
      cases v <;> try cases hv
      rename_i b
      cases b <;> cases hf <;> cases ht <;> cases h <;> first | rfl | cases hv
  | .nullable true none, h, hv => by
      cases h
      cases v <;> first | rfl | cases hv
  | .nullable false (some d), h, hv => by
      cases v <;> first | cases hv | exact Domain.eq_of_asSingleton (d := d) h hv
  | .nullable false none, h, _ | .nullable true (some _), h, _ | .undefined, h, _ => by cases h

@[simp] theorem Scalar.hasType_boolean (s : Scalar) :
    s.hasType .boolean = true ↔ ∃ b, s = .boolean b :=
  ⟨fun h => (by cases s <;> first | exact ⟨_, rfl⟩ | cases h), fun ⟨_, h⟩ => h ▸ rfl⟩

@[simp] theorem Scalar.hasType_number (s : Scalar) :
    s.hasType .number = true ↔ ∃ n, s = .number n :=
  ⟨fun h => (by cases s <;> first | exact ⟨_, rfl⟩ | cases h), fun ⟨_, h⟩ => h ▸ rfl⟩

/-- A Boolean domain holds only Booleans. -/
theorem Domain.isBoolean_contains {d : Domain} {v : Scalar} (hd : d.isBoolean = true)
    (hv : d.contains v = true) : ∃ b, v = .boolean b := by
  cases d <;> cases v <;> simp_all [Domain.isBoolean, Domain.contains]

/-! ## What the folder's soundness rests on -/

/-- A function's domain closure is sound at a call of argument types `argTypes` and return type
`ty`: on arguments of their types the function returns a value of its type, and on domains
that hold the arguments, a closure that answers a domain (not `MayThrow`) promises that the
call evaluates without error to a value the domain holds. -/
def Function.DomainSound (fn : Function) (argTypes : List DataType) (ty : DataType) : Prop :=
  ∀ vs, List.Forall₂ (fun v ty => v.hasType ty = true) vs argTypes →
    (∀ v, fn.eval vs = .ok v → v.hasType ty = true) ∧
    ∀ ds d, List.Forall₂ (fun d v => d.contains v = true) ds vs →
      (fn.calcDomain ds).toDomain ty = some d → ∃ v, fn.eval vs = .ok v ∧ d.contains v = true

/-- The evaluator's casts return values of the target type, and the domain of a cast holds
the cast of every value of the domain it is derived from. -/
def Casts.Sound (cs : Casts) : Prop :=
  (∀ isTry s ty v, cs.run isTry s ty = .ok v → v.hasType ty = true) ∧
  ∀ isTry d ty d' s, cs.domain isTry d ty = some d' → d.contains s = true →
    ∃ v, cs.run isTry s ty = .ok v ∧ d'.contains v = true

mutual

/-- The expression is typed on the row: its constants and the row's values of its columns have
their types. -/
def Expr.Fits (r : Row) : Expr → Prop
  | .constant _ s ty => s.hasType ty = true
  | .columnRef _ id ty => (r id).hasType ty = true
  | .cast _ _ e _ => e.Fits r
  | .functionCall _ _ args _ => Expr.FitsArgs r args

/-- Every argument is typed on the row. -/
def Expr.FitsArgs (r : Row) : List Expr → Prop
  | [] => True
  | e :: es => e.Fits r ∧ Expr.FitsArgs r es

end

mutual

/-- What the folder assumes of the function registry: every function the expression calls has a
sound domain closure at the call's argument and return types. -/
def Expr.DomainsSound : Expr → Prop
  | .constant .. | .columnRef .. => True
  | .cast _ _ e _ => e.DomainsSound
  | .functionCall _ fn args ty =>
      fn.DomainSound (args.map Expr.dataType) ty ∧ Expr.DomainsSoundArgs args

/-- Every function the arguments call has a sound domain closure. -/
def Expr.DomainsSoundArgs : List Expr → Prop
  | [] => True
  | e :: es => e.DomainsSound ∧ Expr.DomainsSoundArgs es

end

/-- The evaluator's cast to `ty` derives a domain from every domain, a Boolean one when `ty` is
`Boolean`, and a cast to `Boolean` returns Booleans. -/
def Casts.Total (cs : Casts) (isTry : Bool) (ty : DataType) : Prop :=
  (∀ d, ∃ d', cs.domain isTry d ty = some d' ∧ (ty = .boolean → d'.isBoolean = true)) ∧
  (ty = .boolean → ∀ s v, cs.run isTry s ty = .ok v → v.hasType .boolean = true)

/-- A function's domain closure never answers `MayThrow`, and at a call of type `Boolean` it
answers Boolean domains and the function returns Booleans. -/
def Function.DomainTotal (fn : Function) (ty : DataType) : Prop :=
  (∀ ds, ∃ d, (fn.calcDomain ds).toDomain ty = some d ∧ (ty = .boolean → d.isBoolean = true)) ∧
  (ty = .boolean → ∀ vs v, fn.eval vs = .ok v → v.hasType .boolean = true)

mutual

/-- The folder finds a domain for every node, and a Boolean one for every node of type
`Boolean`: no cast or call of the expression may throw, and its constants, casts and calls of
type `Boolean` stand for Booleans. -/
def Expr.Total (cs : Casts) : Expr → Prop
  | .constant _ s ty => ty = .boolean → s.hasType .boolean = true
  | .columnRef .. => True
  | .cast _ isTry e ty => cs.Total isTry ty ∧ e.Total cs
  | .functionCall _ fn args ty => fn.DomainTotal ty ∧ Expr.TotalArgs cs args

/-- The folder finds a domain for every node of every argument. -/
def Expr.TotalArgs (cs : Casts) : List Expr → Prop
  | [] => True
  | e :: es => e.Total cs ∧ Expr.TotalArgs cs es

end

/-- Whether an expression is a cast. The folder folds a cast only once its operand is a
constant, whatever domain it derives for it. -/
def Expr.isCast : Expr → Bool
  | .cast .. => true
  | _ => false

/-! ## Evaluation is typed -/

section Typed

variable {cs : Casts} {r : Row}

mutual

/-- On a row where an expression is typed, with sound domain closures, its value is one of its
type's. -/
theorem evalRow_hasType (hcs : cs.Sound) : ∀ {e : Expr} {v : Scalar}, e.Fits r →
    e.DomainsSound → e.evalRow cs r = .ok v → v.hasType e.dataType = true
  | .constant _ s ty, v, he, _, h => by cases h; exact he
  | .columnRef _ id ty, v, he, _, h => by cases h; exact he
  | .cast _ isTry e ty, v, _, _, h => by
      obtain ⟨s, -, hs⟩ := bind_eq_ok h
      exact hcs.1 _ _ _ _ hs
  | .functionCall _ fn args ty, v, he, hd, h => by
      obtain ⟨vs, hvs, hv⟩ := bind_eq_ok h
      exact (hd.1 vs (evalArgs_hasType hcs he hd.2 hvs)).1 v hv

/-- On a row where arguments are typed, with sound domain closures, their values are of their
types. -/
theorem evalArgs_hasType (hcs : cs.Sound) : ∀ {args : List Expr} {vs : List Scalar},
    Expr.FitsArgs r args → Expr.DomainsSoundArgs args → Expr.evalArgs cs r args = .ok vs →
      List.Forall₂ (fun v ty => v.hasType ty = true) vs (args.map Expr.dataType)
  | [], vs, _, _, h => by cases h; exact .nil
  | e :: es, vs, he, hd, h => by
      obtain ⟨v, hv, h⟩ := bind_eq_ok h
      obtain ⟨vs', hvs', rfl⟩ := map_eq_ok h
      exact .cons (evalRow_hasType hcs he.1 hd.1 hv) (evalArgs_hasType hcs he.2 hd.2 hvs')

end

end Typed

/-! ## One pass, node by node -/

section Pass

variable (cs : Casts)

@[simp] theorem foldOnce_constant (span : Span) (s : Scalar) (ty : DataType) :
    foldOnce cs (.constant span s ty) = (.constant span s ty, some (s.domain ty)) := rfl

@[simp] theorem foldArgs_nil : foldArgs cs [] = ([], some []) := rfl

theorem foldArgs_cons (e : Expr) (es : List Expr) :
    foldArgs cs (e :: es) = ((foldOnce cs e).1 :: (foldArgs cs es).1,
      (foldOnce cs e).2.bind fun d => (foldArgs cs es).2.map (d :: ·)) := rfl

/-- The pass over arguments folds each of them. -/
theorem foldArgs_fst (args : List Expr) :
    (foldArgs cs args).1 = args.map fun e => (foldOnce cs e).1 := by
  induction args with
  | nil => rfl
  | cons e es ih => rw [foldArgs_cons, ih, List.map_cons]

/-- What a pass makes of a column: the column, or the one value of its type's full domain. -/
theorem foldOnce_columnRef_cases (span : Span) (id : String) (ty : DataType) :
    (foldOnce cs (.columnRef span id ty)).2 = some (Domain.full ty) ∧
    ((foldOnce cs (.columnRef span id ty)).1 = .columnRef span id ty ∨
      ∃ s, (Domain.full ty).asSingleton = some s ∧
        (foldOnce cs (.columnRef span id ty)).1 = .constant span s ty) := by
  simp only [foldOnce]
  split <;> simp_all

/-- What a pass makes of a cast: the cast of the folded operand, or the cast run on the
operand once it is a constant. Its domain is derived from the operand's. -/
theorem foldOnce_cast_cases (span : Span) (isTry : Bool) (e : Expr) (ty : DataType) :
    (foldOnce cs (.cast span isTry e ty)).2 =
        (foldOnce cs e).2.bind (fun d => cs.domain isTry d ty) ∧
    ((foldOnce cs (.cast span isTry e ty)).1 = .cast span isTry (foldOnce cs e).1 ty ∨
      ∃ v s, (foldOnce cs e).1.asConstant = some v ∧ cs.run isTry v ty = .ok s ∧
        (foldOnce cs (.cast span isTry e ty)).1 = .constant span s ty) := by
  simp only [foldOnce]
  split
  · rename_i s h
    obtain ⟨v, hv, hs⟩ := Option.map_eq_some'.mp h
    exact ⟨rfl, .inr ⟨v, s, hv, hs, rfl⟩⟩
  · exact ⟨rfl, .inl rfl⟩

/-- What a pass makes of a call: the call over the folded arguments, or a constant, which is
the one value of the call's domain or the call evaluated on constant arguments. Its domain is
what the closure answers on the arguments' domains. -/
theorem foldOnce_functionCall_cases (span : Span) (fn : Function) (args : List Expr)
    (ty : DataType) :
    (foldOnce cs (.functionCall span fn args ty)).2 =
        (foldArgs cs args).2.bind (fun ds => (fn.calcDomain ds).toDomain ty) ∧
    ((foldOnce cs (.functionCall span fn args ty)).1 =
        .functionCall span fn (foldArgs cs args).1 ty ∨
      ∃ s, (foldOnce cs (.functionCall span fn args ty)).1 = .constant span s ty ∧
        ((((foldArgs cs args).2.bind fun ds => (fn.calcDomain ds).toDomain ty).bind
            Domain.asSingleton = some s) ∨
          ∃ vs, (foldArgs cs args).1.mapM Expr.asConstant = some vs ∧ fn.eval vs = .ok s)) := by
  simp only [foldOnce]
  split
  · rename_i s h
    exact ⟨rfl, .inr ⟨s, rfl, .inl h⟩⟩
  · split
    · rename_i s h
      obtain ⟨vs, hvs, hs⟩ := Option.map_eq_some'.mp h
      exact ⟨rfl, .inr ⟨s, rfl, .inr ⟨vs, hvs, hs⟩⟩⟩
    · exact ⟨rfl, .inl rfl⟩

/-- A call whose domain holds one value is folded to that value. -/
theorem foldOnce_functionCall_of_asSingleton {span : Span} {fn : Function} {args : List Expr}
    {ty : DataType} {s : Scalar}
    (h : ((foldArgs cs args).2.bind fun ds => (fn.calcDomain ds).toDomain ty).bind
      Domain.asSingleton = some s) :
    (foldOnce cs (.functionCall span fn args ty)).1 = .constant span s ty := by
  simp only [foldOnce]
  split <;> simp_all

/-- A pass keeps the type of an expression. -/
theorem foldOnce_dataType : ∀ e : Expr, (foldOnce cs e).1.dataType = e.dataType
  | .constant .. => rfl
  | .columnRef span id ty => by
      rcases (foldOnce_columnRef_cases cs span id ty).2 with h | ⟨_, _, h⟩ <;>
        simp only [h, Expr.dataType]
  | .cast span isTry e ty => by
      rcases (foldOnce_cast_cases cs span isTry e ty).2 with h | ⟨_, _, _, _, h⟩ <;>
        simp only [h, Expr.dataType]
  | .functionCall span fn args ty => by
      rcases (foldOnce_functionCall_cases cs span fn args ty).2 with h | ⟨_, h, _⟩ <;>
        simp only [h, Expr.dataType]

theorem foldArgs_dataType (args : List Expr) :
    (foldArgs cs args).1.map Expr.dataType = args.map Expr.dataType := by
  rw [foldArgs_fst, List.map_map]
  exact List.map_congr_left fun e _ => foldOnce_dataType cs e

/-- A constant argument has its value on every row. -/
theorem evalRow_of_asConstant {r : Row} {e : Expr} {v : Scalar} (h : e.asConstant = some v) :
    e.evalRow cs r = .ok v := by
  cases e <;> simp only [Expr.asConstant, reduceCtorEq] at h
  cases h
  rfl

theorem evalArgs_of_mapM_asConstant {r : Row} :
    ∀ {args : List Expr} {vs : List Scalar}, args.mapM Expr.asConstant = some vs →
      Expr.evalArgs cs r args = .ok vs
  | [], vs, h => by cases h; rfl
  | e :: es, vs, h => by
      simp only [List.mapM_cons, Option.bind_eq_bind, Option.bind_eq_some, Option.pure_def,
        Option.some.injEq] at h
      obtain ⟨v, hv, vs', hvs', rfl⟩ := h
      simp [Expr.evalArgs, evalRow_of_asConstant cs hv, evalArgs_of_mapM_asConstant hvs',
        Except.bind, Except.map]

end Pass

/-! ## One pass keeps every row's value -/

section Sound

variable {cs : Casts} {r : Row}

mutual

/-- **One pass keeps the value of an expression** on every row where the expression is typed,
for sound domain closures, and the domain the pass computes holds that value. -/
theorem foldOnce_evalRow (hcs : cs.Sound) : ∀ {e : Expr}, e.Fits r → e.DomainsSound →
    (foldOnce cs e).1.evalRow cs r = e.evalRow cs r ∧
    ∀ d, (foldOnce cs e).2 = some d → ∃ v, e.evalRow cs r = .ok v ∧ d.contains v = true
  | .constant span s ty, _, _ => ⟨rfl, fun d hd => ⟨s, rfl, by
      cases hd
      exact Scalar.domain_contains s ty⟩⟩
  | .columnRef span id ty, he, _ => by
      obtain ⟨hd, h | ⟨s, hs, h⟩⟩ := foldOnce_columnRef_cases cs span id ty
      all_goals
        have hfull := Domain.full_contains he
        refine ⟨?_, fun d h' => ⟨r id, rfl, by rw [hd] at h'; cases h'; exact hfull⟩⟩
        rw [h]
      exact congrArg Except.ok (Domain.eq_of_asSingleton hs hfull).symm
  | .cast span isTry e ty, he, hsd => by
      obtain ⟨ih, ihd⟩ := foldOnce_evalRow hcs (e := e) he hsd
      obtain ⟨hd, h | ⟨v, s, hv, hs, h⟩⟩ := foldOnce_cast_cases cs span isTry e ty
      all_goals
        refine ⟨?_, fun d' h' => ?_⟩
        rotate_left
        · rw [hd] at h'
          obtain ⟨d, hd0, hd'⟩ := Option.bind_eq_some.mp h'
          obtain ⟨v0, hv0, hc⟩ := ihd d hd0
          obtain ⟨v, hv, hcv⟩ := hcs.2 _ _ _ _ _ hd' hc
          exact ⟨v, by simp only [Expr.evalRow, hv0, Except.bind, hv], hcv⟩
        rw [h]
      · simp only [Expr.evalRow, ih]
      · have hv0 : e.evalRow cs r = .ok v := ih ▸ evalRow_of_asConstant cs hv
        simp only [Expr.evalRow, hv0, Except.bind, hs]
  | .functionCall span fn args ty, he, hsd => by
      obtain ⟨ih, ihd⟩ := foldArgs_evalArgs hcs he hsd.2
      obtain ⟨hd, h⟩ := foldOnce_functionCall_cases cs span fn args ty
      have hdom : ∀ d, (foldOnce cs (.functionCall span fn args ty)).2 = some d →
          ∃ v, (Expr.functionCall span fn args ty).evalRow cs r = .ok v ∧
            d.contains v = true := by
        intro d h'
        rw [hd] at h'
        obtain ⟨ds, hds, hfd⟩ := Option.bind_eq_some.mp h'
        obtain ⟨vs, hvs, hc⟩ := ihd ds hds
        obtain ⟨v, hv, hcv⟩ := (hsd.1 vs (evalArgs_hasType hcs he hsd.2 hvs)).2 ds d hc hfd
        exact ⟨v, by simp only [Expr.evalRow, hvs, Except.bind, hv], hcv⟩
      refine ⟨?_, hdom⟩
      rcases h with h | ⟨s, h, hs | ⟨vs, hvs, hs⟩⟩ <;> rw [h]
      · simp only [Expr.evalRow, ih]
      · -- the call's domain holds one value, which is the call's value
        obtain ⟨d, hfd, hsd⟩ := Option.bind_eq_some.mp hs
        obtain ⟨v, hv, hcv⟩ := hdom d (hd ▸ hfd)
        rw [hv, Domain.eq_of_asSingleton hsd hcv]
        rfl
      · -- the call is evaluated on constant arguments
        simp only [Expr.evalRow, ← ih, evalArgs_of_mapM_asConstant cs hvs, Except.bind, hs]

/-- One pass keeps the values of a call's arguments, and the domains it computes hold them. -/
theorem foldArgs_evalArgs (hcs : cs.Sound) : ∀ {args : List Expr}, Expr.FitsArgs r args →
    Expr.DomainsSoundArgs args →
    Expr.evalArgs cs r (foldArgs cs args).1 = Expr.evalArgs cs r args ∧
    ∀ ds, (foldArgs cs args).2 = some ds → ∃ vs, Expr.evalArgs cs r args = .ok vs ∧
      List.Forall₂ (fun d v => d.contains v = true) ds vs
  | [], _, _ => ⟨rfl, fun ds h => ⟨[], rfl, by cases h; exact .nil⟩⟩
  | e :: es, he, hsd => by
      obtain ⟨ih, ihd⟩ := foldOnce_evalRow hcs he.1 hsd.1
      obtain ⟨jh, jhd⟩ := foldArgs_evalArgs hcs he.2 hsd.2
      refine ⟨by simp only [foldArgs_cons, Expr.evalArgs, ih, jh], fun ds h => ?_⟩
      rw [foldArgs_cons] at h
      obtain ⟨d, hd, h⟩ := Option.bind_eq_some.mp h
      obtain ⟨ds', hds', rfl⟩ := Option.map_eq_some'.mp h
      obtain ⟨v, hv, hc⟩ := ihd d hd
      obtain ⟨vs, hvs, hcs'⟩ := jhd ds' hds'
      exact ⟨v :: vs, by simp only [Expr.evalArgs, hv, hvs, Except.bind, Except.map],
        .cons hc hcs'⟩

end

end Sound

/-! ## The pass keeps the folder's assumptions -/

section Invariants

variable {cs : Casts} {r : Row}

/-- A constant the pass makes is a value of its type: it is the value of the expression it
replaces. -/
theorem hasType_of_foldOnce_eq_constant (hcs : cs.Sound) {e : Expr} (he : e.Fits r)
    (hsd : e.DomainsSound) {span : Span} {s : Scalar} {ty : DataType}
    (h : (foldOnce cs e).1 = .constant span s ty) : s.hasType ty = true := by
  have hv : Expr.evalRow cs r (.constant span s ty) = e.evalRow cs r :=
    h ▸ (foldOnce_evalRow hcs he hsd).1
  have hty : ty = e.dataType := by
    have := foldOnce_dataType cs e
    rwa [h] at this
  rw [hty]
  exact evalRow_hasType hcs he hsd hv.symm

mutual

/-- One pass keeps an expression typed on a row, for sound domain closures. -/
theorem foldOnce_fits (hcs : cs.Sound) : ∀ {e : Expr}, e.Fits r → e.DomainsSound →
    (foldOnce cs e).1.Fits r
  | .constant .., he, _ => he
  | .columnRef span id ty, he, hsd => by
      rcases (foldOnce_columnRef_cases cs span id ty).2 with h | ⟨_, _, h⟩ <;> rw [h]
      · exact he
      · exact hasType_of_foldOnce_eq_constant hcs he hsd h
  | .cast span isTry e ty, he, hsd => by
      rcases (foldOnce_cast_cases cs span isTry e ty).2 with h | ⟨_, _, _, _, h⟩ <;> rw [h]
      · exact foldOnce_fits hcs (e := e) he hsd
      · exact hasType_of_foldOnce_eq_constant hcs he hsd h
  | .functionCall span fn args ty, he, hsd => by
      rcases (foldOnce_functionCall_cases cs span fn args ty).2 with h | ⟨_, h, _⟩ <;> rw [h]
      · exact foldArgs_fits hcs he hsd.2
      · exact hasType_of_foldOnce_eq_constant hcs he hsd h

/-- One pass keeps a call's arguments typed on a row. -/
theorem foldArgs_fits (hcs : cs.Sound) : ∀ {args : List Expr}, Expr.FitsArgs r args →
    Expr.DomainsSoundArgs args → Expr.FitsArgs r (foldArgs cs args).1
  | [], _, _ => trivial
  | _ :: _, he, hsd => by
      rw [foldArgs_cons]
      exact ⟨foldOnce_fits hcs he.1 hsd.1, foldArgs_fits hcs he.2 hsd.2⟩

end

mutual

/-- One pass keeps the domain closures of an expression sound: a call keeps its function and the
types of its arguments, and a constant calls nothing. -/
theorem foldOnce_domainsSound : ∀ {e : Expr}, e.DomainsSound → (foldOnce cs e).1.DomainsSound
  | .constant .., _ => trivial
  | .columnRef span id ty, _ => by
      rcases (foldOnce_columnRef_cases cs span id ty).2 with h | ⟨_, _, h⟩ <;> rw [h] <;> trivial
  | .cast span isTry e ty, hsd => by
      rcases (foldOnce_cast_cases cs span isTry e ty).2 with h | ⟨_, _, _, _, h⟩ <;> rw [h]
      · exact foldOnce_domainsSound (e := e) hsd
      · trivial
  | .functionCall span fn args ty, hsd => by
      rcases (foldOnce_functionCall_cases cs span fn args ty).2 with h | ⟨_, h, _⟩ <;> rw [h]
      · exact ⟨foldArgs_dataType cs args ▸ hsd.1, foldArgs_domainsSound hsd.2⟩
      · trivial

theorem foldArgs_domainsSound : ∀ {args : List Expr}, Expr.DomainsSoundArgs args →
    Expr.DomainsSoundArgs (foldArgs cs args).1
  | [], _ => trivial
  | _ :: _, hsd => by
      rw [foldArgs_cons]
      exact ⟨foldOnce_domainsSound hsd.1, foldArgs_domainsSound hsd.2⟩

end

/-- The one value of a Boolean domain is a Boolean. -/
theorem Domain.hasType_of_asSingleton {d : Domain} {s : Scalar} (hd : d.isBoolean = true)
    (h : d.asSingleton = some s) : s.hasType .boolean = true := by
  cases d with
  | boolean hf ht => cases hf <;> cases ht <;> cases h <;> rfl
  | _ => cases hd

mutual

/-- One pass keeps an expression total: a constant of type `Boolean` the pass makes is a
Boolean, the one value of a Boolean domain or what a cast or call of that type returns. -/
theorem foldOnce_total : ∀ {e : Expr}, e.Total cs → (foldOnce cs e).1.Total cs
  | .constant .., he => he
  | .columnRef span id ty, _ => by
      rcases (foldOnce_columnRef_cases cs span id ty).2 with h | ⟨_, hs, h⟩ <;> rw [h]
      · trivial
      · -- the full domain of `Boolean` holds two values
        rintro rfl
        cases hs
  | .cast span isTry e ty, he => by
      rcases (foldOnce_cast_cases cs span isTry e ty).2 with h | ⟨v, _, _, hs, h⟩ <;> rw [h]
      · exact ⟨he.1, foldOnce_total he.2⟩
      · exact fun hty => he.1.2 hty v _ hs
  | .functionCall span fn args ty, he => by
      rcases (foldOnce_functionCall_cases cs span fn args ty).2 with
        h | ⟨_, h, hs | ⟨vs, -, hs⟩⟩ <;> rw [h]
      · exact ⟨he.1, foldArgs_total he.2⟩
      · intro hty
        obtain ⟨d, hfd, hsd⟩ := Option.bind_eq_some.mp hs
        obtain ⟨ds, -, hd⟩ := Option.bind_eq_some.mp hfd
        obtain ⟨d', hd', hb⟩ := he.1.1 ds
        rw [hd', Option.some.injEq] at hd
        exact Domain.hasType_of_asSingleton (hd ▸ hb hty) hsd
      · exact fun hty => he.1.2 hty vs _ hs

theorem foldArgs_total : ∀ {args : List Expr}, Expr.TotalArgs cs args →
    Expr.TotalArgs cs (foldArgs cs args).1
  | [], _ => trivial
  | _ :: _, he => by
      rw [foldArgs_cons]
      exact ⟨foldOnce_total he.1, foldArgs_total he.2⟩

end

mutual

/-- **The folder knows the domain of a total expression**, and the domain of a Boolean one is a
Boolean domain. -/
theorem foldOnce_domain_isBoolean : ∀ {e : Expr}, e.Total cs →
    ∃ d, (foldOnce cs e).2 = some d ∧ (e.dataType = .boolean → d.isBoolean = true)
  | .constant _ s ty, ht => ⟨s.domain ty, rfl, fun hty => by
      subst hty
      obtain ⟨b, rfl⟩ := (Scalar.hasType_boolean s).mp (ht rfl)
      rfl⟩
  | .columnRef span id ty, _ =>
      ⟨Domain.full ty, (foldOnce_columnRef_cases cs span id ty).1, fun hty => by subst hty; rfl⟩
  | .cast span isTry e ty, ht => by
      obtain ⟨d, hd, -⟩ := foldOnce_domain_isBoolean (e := e) ht.2
      obtain ⟨d', hd', hb⟩ := ht.1.1 d
      exact ⟨d', by rw [(foldOnce_cast_cases cs span isTry e ty).1, hd, Option.some_bind, hd'],
        hb⟩
  | .functionCall span fn args ty, ht => by
      obtain ⟨ds, hds⟩ := foldArgs_domains ht.2
      obtain ⟨d, hd, hb⟩ := ht.1.1 ds
      exact ⟨d, by rw [(foldOnce_functionCall_cases cs span fn args ty).1, hds, Option.some_bind,
        hd], hb⟩

/-- The folder knows the domains of total arguments. -/
theorem foldArgs_domains : ∀ {args : List Expr}, Expr.TotalArgs cs args →
    ∃ ds, (foldArgs cs args).2 = some ds
  | [], _ => ⟨[], rfl⟩
  | e :: es, ht => by
      obtain ⟨d, hd, -⟩ := foldOnce_domain_isBoolean ht.1
      obtain ⟨ds, hds⟩ := foldArgs_domains ht.2
      exact ⟨d :: ds, by rw [foldArgs_cons, hd, hds]; rfl⟩

end

end Invariants

/-! ## Repeated passes -/

section Iterate

variable {cs : Casts} {r : Row}

/-- A constant is left as it is. -/
theorem iterate_foldOnce_constant (n : Nat) (span : Span) (s : Scalar) (ty : DataType) :
    (fun e => (foldOnce cs e).1)^[n] (.constant span s ty) = .constant span s ty :=
  Function.iterate_fixed rfl n

/-- After `n` passes a call is either a constant or the same call over its arguments after `n`
passes. -/
theorem iterate_foldOnce_functionCall (n : Nat) (span : Span) (fn : Function)
    (args : List Expr) (ty : DataType) :
    (fun e => (foldOnce cs e).1)^[n] (.functionCall span fn args ty) =
        .functionCall span fn (args.map (fun e => (foldOnce cs e).1)^[n]) ty ∨
      ∃ s, (fun e => (foldOnce cs e).1)^[n] (.functionCall span fn args ty) =
        .constant span s ty := by
  induction n with
  | zero => exact .inl (by simp)
  | succ n ih =>
      rw [Function.iterate_succ_apply']
      rcases ih with h | ⟨s, h⟩ <;> rw [h]
      · rcases (foldOnce_functionCall_cases cs span fn _ ty).2 with h' | h'
        · rw [h', foldArgs_fst, List.map_map]
          exact .inl (by rw [Function.iterate_succ'])
        · exact .inr (h'.imp fun _ h => h.1)
      · exact .inr ⟨s, rfl⟩

/-- Repeated passes keep an expression's type. -/
theorem iterate_foldOnce_dataType (n : Nat) (e : Expr) :
    ((fun e => (foldOnce cs e).1)^[n] e).dataType = e.dataType :=
  Function.Iterate.rec (fun e' : Expr => e'.dataType = e.dataType)
    (fun e' h => (foldOnce_dataType cs e').trans h) rfl n

/-- Repeated passes keep an expression typed, its domain closures sound and its value on the
row. -/
theorem iterate_foldOnce_evalRow (hcs : cs.Sound) (n : Nat) {e : Expr} (he : e.Fits r)
    (hsd : e.DomainsSound) :
    ((fun e => (foldOnce cs e).1)^[n] e).Fits r ∧
      ((fun e => (foldOnce cs e).1)^[n] e).DomainsSound ∧
      ((fun e => (foldOnce cs e).1)^[n] e).evalRow cs r = e.evalRow cs r :=
  Function.Iterate.rec
    (fun e' : Expr => e'.Fits r ∧ e'.DomainsSound ∧ e'.evalRow cs r = e.evalRow cs r)
    (fun _ h => ⟨foldOnce_fits hcs h.1 h.2.1, foldOnce_domainsSound h.2.1,
      (foldOnce_evalRow hcs h.1 h.2.1).1.trans h.2.2⟩) ⟨he, hsd, rfl⟩ n

/-- **The constant folder keeps the value of an expression** on every row where it is typed,
for sound domain closures. -/
theorem fold_evalRow (hcs : cs.Sound) {e : Expr} (he : e.Fits r) (hsd : e.DomainsSound) :
    (ConstantFolder.fold cs e).evalRow cs r = e.evalRow cs r :=
  (iterate_foldOnce_evalRow hcs e.size he hsd).2.2

end Iterate

end Datafuse
