import Datafuse.Expression.Types

set_option autoImplicit false

/-! # The walk over `column = constant` comparisons

`visit_expr_column_eq_constant` walks a predicate through casts and function calls, hands every
`eq` call whose arguments are a column reference and a constant (in either order) to a
callback, and puts the callback's answer in the place of the call when it gives one. The
callback is an `FnMut`: it keeps state between calls (`find_eq_columns` collects into a vector),
and that state outlives an error. The model passes the state explicitly (`Visitor`).

`eqAtoms e` lists the comparisons of `e` in the order of the walk. `visit_eq_visitAll` is the
walk's simulation lemma: whatever the callback answers, its state and the walk's outcome are
those of handing it `eqAtoms e` one after the other, stopping at the first error. A rewrite
never changes which comparisons are reached, because a comparison has no comparison below it.
-/

namespace Datafuse

/-- A comparison as the walk hands it over: the span of the `eq` call, the column, the
constant, the column's type and the return type of the `eq` call. -/
structure EqAtom where
  span : Span
  column : String
  scalar : Scalar
  dataType : DataType
  returnType : DataType

/-- The callback with the state it keeps, `&mut impl FnMut(Span, &str, &Scalar, &DataType,
&DataType) -> Result<Option<Expr>>`. -/
abbrev Visitor (σ : Type) := σ → EqAtom → σ × Result (Option Expr)

/-- The arguments of an `eq` call that the walk matches: a column reference and a constant,
in either order. It returns the column, the constant and the column's type. -/
def eqOperands : List Expr → Option (String × Scalar × DataType)
  | [.columnRef _ id ty, .constant _ s _] => some (id, s, ty)
  | [.constant _ s _, .columnRef _ id ty] => some (id, s, ty)
  | _ => none

/-- The comparison a call is, if it is one: an `eq` call on a column and a constant. -/
def eqCall (fn : Function) (args : List Expr) : Option (String × Scalar × DataType) :=
  if fn.name = "eq" then eqOperands args else none

mutual

/-- `visit_expr_column_eq_constant`: the callback's final state and the rewritten expression,
or the first error. -/
def visitExprColumnEqConstant {σ : Type} (visitor : Visitor σ) :
    σ → Expr → σ × Result Expr
  | s, .functionCall span fn args rt =>
      match eqCall fn args with
      | some (id, scalar, ty) =>
          match visitor s ⟨span, id, scalar, ty, rt⟩ with
          | (s', .error err) => (s', .error err)
          | (s', .ok (some e')) => (s', .ok e')
          | (s', .ok none) =>
              let (s'', r) := visitArgs visitor s' args
              (s'', r.map (.functionCall span fn · rt))
      | none =>
          let (s', r) := visitArgs visitor s args
          (s', r.map (.functionCall span fn · rt))
  | s, .cast span isTry e ty =>
      let (s', r) := visitExprColumnEqConstant visitor s e
      (s', r.map (.cast span isTry · ty))
  | s, e => (s, .ok e)

/-- The walk over a call's arguments, left to right, stopping at the first error. -/
def visitArgs {σ : Type} (visitor : Visitor σ) : σ → List Expr → σ × Result (List Expr)
  | s, [] => (s, .ok [])
  | s, e :: es =>
      match visitExprColumnEqConstant visitor s e with
      | (s', .error err) => (s', .error err)
      | (s', .ok e') =>
          let (s'', r) := visitArgs visitor s' es
          (s'', r.map (e' :: ·))

end

mutual

/-- The comparisons of an expression, in the order the walk reaches them. -/
def eqAtoms : Expr → List EqAtom
  | .functionCall span fn args rt =>
      match eqCall fn args with
      | some (id, scalar, ty) => [⟨span, id, scalar, ty, rt⟩]
      | none => eqAtomsArgs args
  | .cast _ _ e _ => eqAtoms e
  | _ => []

/-- The comparisons of a list of arguments. -/
def eqAtomsArgs : List Expr → List EqAtom
  | [] => []
  | e :: es => eqAtoms e ++ eqAtomsArgs es

end

/-- Handing a list of comparisons to the callback one after the other, stopping at the
first error. -/
def visitAll {σ : Type} (visitor : Visitor σ) : σ → List EqAtom → σ × Result Unit
  | s, [] => (s, .ok ())
  | s, a :: as =>
      match visitor s a with
      | (s', .error err) => (s', .error err)
      | (s', .ok _) => visitAll visitor s' as

/-- What a walk's outcome says once the rewritten expression is forgotten. -/
def forget {σ α : Type} (p : σ × Result α) : σ × Result Unit :=
  (p.1, p.2.map fun _ => ())

@[simp] theorem map_map_unit {α β : Type} (r : Result α) (f : α → β) :
    (r.map f).map (fun _ => ()) = r.map (fun _ => ()) := by
  cases r <;> rfl

/-- A stateless callback handed a list of comparisons fails exactly at the first comparison it
fails on, with that comparison's error. -/
theorem visitAll_eq_error_iff {w : Visitor Unit} {err : ErrorCode} :
    ∀ as : List EqAtom, (visitAll w () as).2 = .error err ↔
      ∃ pre a post, as = pre ++ a :: post ∧ (∀ a' ∈ pre, ∃ r, (w () a').2 = .ok r) ∧
        (w () a).2 = .error err
  | [] => by simp [visitAll]
  | a :: as => by
      simp only [visitAll]
      rcases ha : w () a with ⟨⟨⟩, e | r⟩ <;> dsimp only
      · -- the first comparison fails
        constructor
        · rintro ⟨⟩
          exact ⟨[], a, as, rfl, by simp, by rw [ha]⟩
        · rintro ⟨_ | ⟨p, pre⟩, a', post, heq, hpre, ha'⟩
          · obtain ⟨rfl, rfl⟩ := List.cons.inj heq
            rw [ha] at ha'
            cases ha'
            rfl
          · obtain ⟨rfl, -⟩ := List.cons.inj heq
            obtain ⟨r, hr⟩ := hpre _ (List.mem_cons_self _ _)
            rw [ha] at hr
            cases hr
      · -- the first comparison passes, and the run goes on
        rw [visitAll_eq_error_iff as]
        constructor
        · rintro ⟨pre, a', post, rfl, hpre, ha'⟩
          refine ⟨a :: pre, a', post, rfl, fun x hx => ?_, ha'⟩
          rcases List.mem_cons.mp hx with rfl | hx
          · exact ⟨r, by rw [ha]⟩
          · exact hpre x hx
        · rintro ⟨_ | ⟨p, pre⟩, a', post, heq, hpre, ha'⟩
          · obtain ⟨rfl, -⟩ := List.cons.inj heq
            rw [ha] at ha'
            cases ha'
          · obtain ⟨rfl, rfl⟩ := List.cons.inj heq
            exact ⟨pre, a', post, rfl, fun x hx => hpre x (List.mem_cons_of_mem _ hx), ha'⟩

variable {σ : Type} (v : Visitor σ)

theorem visitAll_append (s : σ) (as bs : List EqAtom) :
    visitAll v s (as ++ bs) =
      match visitAll v s as with
      | (s', .error err) => (s', .error err)
      | (s', .ok _) => visitAll v s' bs := by
  induction as generalizing s with
  | nil => rfl
  | cons a as ih =>
      simp only [List.cons_append, visitAll]
      rcases v s a with ⟨s', _ | _⟩ <;> simp [ih]

/-- The arguments of a matched comparison hold no comparison, and the walk leaves them as
they are. -/
theorem visitArgs_eqOperands {args : List Expr} {o : String × Scalar × DataType}
    (h : eqOperands args = some o) (s : σ) :
    visitArgs v s args = (s, .ok args) ∧ eqAtomsArgs args = [] := by
  match args, h with
  | [.columnRef .., .constant ..], _ => exact ⟨rfl, rfl⟩
  | [.constant .., .columnRef ..], _ => exact ⟨rfl, rfl⟩

/-- A matched call's operands. -/
theorem eqOperands_of_eqCall {fn : Function} {args : List Expr} {o : String × Scalar × DataType}
    (h : eqCall fn args = some o) : eqOperands args = some o := by
  unfold eqCall at h
  split at h
  · exact h
  · cases h

mutual

/-- **The walk simulates the list of its comparisons.** Whatever the callback answers, the
walk leaves it in the state, and ends with the error or success, of handing it `eqAtoms e`
in order. -/
theorem visit_eq_visitAll (s : σ) : ∀ e : Expr,
    forget (visitExprColumnEqConstant v s e) = visitAll v s (eqAtoms e)
  | .constant .. => rfl
  | .columnRef .. => rfl
  | .cast _ _ e _ => by
      have ih := visit_eq_visitAll s e
      simp only [forget] at ih ⊢
      simp only [visitExprColumnEqConstant, eqAtoms, map_map_unit]
      exact ih
  | .functionCall span fn args rt => by
      cases hc : eqCall fn args with
      | none =>
          have ih := visitArgs_eq_visitAll s args
          simp only [forget] at ih ⊢
          simp only [visitExprColumnEqConstant, eqAtoms, hc, map_map_unit]
          exact ih
      | some o =>
          obtain ⟨id, scalar, ty⟩ := o
          have hops := eqOperands_of_eqCall hc
          simp only [visitExprColumnEqConstant, eqAtoms, hc, visitAll, forget]
          rcases v s ⟨span, id, scalar, ty, rt⟩ with ⟨s', _ | _ | _⟩
          · rfl
          · simp [(visitArgs_eqOperands v hops s').1, Except.map]
          · rfl

/-- The walk over arguments simulates the list of their comparisons. -/
theorem visitArgs_eq_visitAll (s : σ) : ∀ args : List Expr,
    forget (visitArgs v s args) = visitAll v s (eqAtomsArgs args)
  | [] => rfl
  | e :: es => by
      have ih := visit_eq_visitAll s e
      simp only [visitArgs, eqAtomsArgs, visitAll_append]
      simp only [forget] at ih
      rcases hv : visitExprColumnEqConstant v s e with ⟨s', _ | e'⟩ <;>
        rw [hv] at ih <;> simp only [Except.map] at ih <;> rw [← ih]
      · rfl
      · have ih' := visitArgs_eq_visitAll s' es
        simp only [forget] at ih' ⊢
        rw [← ih', map_map_unit]

end

/-! ## Recording the calls -/

/-- The callback that records every comparison it is handed, then answers as `v` does. -/
def Visitor.logged : Visitor (List EqAtom × σ) :=
  fun p a => (((p.1 ++ [a]), (v p.2 a).1), (v p.2 a).2)

/-- Recording changes nothing else, and the record is the comparisons handed over so far: a
prefix of the list, all of it when no call failed. -/
theorem visitAll_logged (log : List EqAtom) (s : σ) (as : List EqAtom) :
    ((visitAll v.logged (log, s) as).1.2, (visitAll v.logged (log, s) as).2) = visitAll v s as ∧
    ∃ pre, (visitAll v.logged (log, s) as).1.1 = log ++ pre ∧ pre <+: as ∧
      ((visitAll v.logged (log, s) as).2 = .ok () → pre = as) := by
  induction as generalizing log s with
  | nil => exact ⟨rfl, [], by simp [visitAll]⟩
  | cons a as ih =>
      simp only [visitAll, Visitor.logged]
      rcases hv : v s a with ⟨s', _ | _⟩
      · exact ⟨rfl, [a], by simp⟩
      · obtain ⟨h1, pre, h2, h3, h4⟩ := ih (log ++ [a]) s'
        exact ⟨h1, a :: pre, by simp [h2], List.prefix_cons_inj a |>.mpr h3,
          fun h => by rw [h4 h]⟩

/-- The comparisons the walk over `e` hands to the callback `v`, in order. -/
def callsOf (s : σ) (e : Expr) : List EqAtom :=
  (visitExprColumnEqConstant v.logged ([], s) e).1.1

/-- **The calls of a walk.** Whatever the callback answers, it is handed a prefix of
`eqAtoms e`, and all of it when the walk succeeds. -/
theorem callsOf_spec (s : σ) (e : Expr) :
    callsOf v s e <+: eqAtoms e ∧
      ∀ e', (visitExprColumnEqConstant v s e).2 = .ok e' → callsOf v s e = eqAtoms e := by
  have hl := visit_eq_visitAll v.logged ([], s) e
  have hv := visit_eq_visitAll v s e
  obtain ⟨hsnd, pre, hlog, hpre, hall⟩ := visitAll_logged v [] s (eqAtoms e)
  simp only [forget, Prod.ext_iff] at hl hv hsnd
  have hcalls : callsOf v s e = pre := by rw [callsOf, hl.1.1, hlog, List.nil_append]
  refine ⟨hcalls ▸ hpre, fun e' he' => hcalls.trans (hall ?_)⟩
  rw [hsnd.2, ← hv.2, he']
  rfl

/-! ## Callbacks that agree, callbacks that rewrite nothing -/

mutual

/-- **Only the comparisons matter.** Two callbacks that answer alike on the comparisons of `e`,
in every state, make the same walk over `e`: the same final state, and the same rewritten
expression or error. -/
theorem visit_congr (w : Visitor σ) (s : σ) : ∀ e : Expr,
    (∀ s' a, a ∈ eqAtoms e → v s' a = w s' a) →
    visitExprColumnEqConstant v s e = visitExprColumnEqConstant w s e
  | .constant .., _ => rfl
  | .columnRef .., _ => rfl
  | .cast _ _ e _, h => by
      simp only [visitExprColumnEqConstant, visit_congr w s e h]
  | .functionCall span fn args rt, h => by
      cases hc : eqCall fn args with
      | none =>
          have hargs := visitArgs_congr w s args fun s' a ha => h s' a (by
            simp only [eqAtoms, hc]; exact ha)
          simp only [visitExprColumnEqConstant, hc, hargs]
      | some o =>
          obtain ⟨id, scalar, ty⟩ := o
          have hnone := (visitArgs_eqOperands v (eqOperands_of_eqCall hc) s).2
          have hatom := h s ⟨span, id, scalar, ty, rt⟩ (by
            simp only [eqAtoms, hc, List.mem_singleton])
          have hargs : ∀ s', visitArgs v s' args = visitArgs w s' args := fun s' =>
            visitArgs_congr w s' args fun _ a ha => by simp only [hnone, List.not_mem_nil] at ha
          simp only [visitExprColumnEqConstant, hc, hatom, hargs]

/-- Two callbacks that answer alike on the comparisons of a list of arguments make the same
walk over it. -/
theorem visitArgs_congr (w : Visitor σ) (s : σ) : ∀ args : List Expr,
    (∀ s' a, a ∈ eqAtomsArgs args → v s' a = w s' a) → visitArgs v s args = visitArgs w s args
  | [], _ => rfl
  | e :: es, h => by
      have he := visit_congr w s e fun s' a ha => h s' a (by
        simp only [eqAtomsArgs, List.mem_append]; exact .inl ha)
      have hes : ∀ s', visitArgs v s' es = visitArgs w s' es := fun s' =>
        visitArgs_congr w s' es fun s'' a ha => h s'' a (by
          simp only [eqAtomsArgs, List.mem_append]; exact .inr ha)
      simp only [visitArgs, he, hes]

end

mutual

/-- **A callback that rewrites nothing leaves the predicate as it is.** If the callback never
answers an expression, a walk that succeeds returns `e` itself. -/
theorem visit_eq_self {v : Visitor σ} (hv : ∀ s a e, (v s a).2 ≠ .ok (some e)) (s : σ) :
    ∀ e e' : Expr,
    (visitExprColumnEqConstant v s e).2 = .ok e' → e' = e
  | .constant .., _, h => by cases h; rfl
  | .columnRef .., _, h => by cases h; rfl
  | .cast span isTry e ty, e', h => by
      simp only [visitExprColumnEqConstant] at h
      rcases hr : visitExprColumnEqConstant v s e with ⟨s', _ | e''⟩ <;>
        rw [hr] at h <;> cases h
      rw [visit_eq_self hv s e e'' (by rw [hr])]
  | .functionCall span fn args rt, e', h => by
      cases hc : eqCall fn args with
      | none =>
          simp only [visitExprColumnEqConstant, hc] at h
          rcases hr : visitArgs v s args with ⟨s', _ | args'⟩ <;> rw [hr] at h <;> cases h
          rw [visitArgs_eq_self hv s args args' (by rw [hr])]
      | some o =>
          obtain ⟨id, scalar, ty⟩ := o
          simp only [visitExprColumnEqConstant, hc] at h
          rcases ha : v s ⟨span, id, scalar, ty, rt⟩ with ⟨s', _ | _ | e''⟩ <;>
            rw [ha] at h <;> dsimp only at h
          · cases h
          · rw [(visitArgs_eqOperands v (eqOperands_of_eqCall hc) s').1] at h
            cases h
            rfl
          · exact absurd (congrArg Prod.snd ha) (hv s _ e'')

/-- A callback that rewrites nothing leaves a list of arguments as it is. -/
theorem visitArgs_eq_self {v : Visitor σ} (hv : ∀ s a e, (v s a).2 ≠ .ok (some e)) (s : σ) :
    ∀ args args' : List Expr,
    (visitArgs v s args).2 = .ok args' → args' = args
  | [], _, h => by cases h; rfl
  | e :: es, args', h => by
      simp only [visitArgs] at h
      rcases he : visitExprColumnEqConstant v s e with ⟨s', _ | e'⟩ <;>
        rw [he] at h <;> dsimp only at h
      · cases h
      · rcases hes : visitArgs v s' es with ⟨s'', _ | es'⟩ <;> rw [hes] at h <;> cases h
        rw [visit_eq_self hv s e e' (by rw [he]), visitArgs_eq_self hv s' es es' (by rw [hes])]

end

/-- A callback that never fails, handed a list of comparisons, never fails. -/
theorem visitAll_ok {v : Visitor σ} (hv : ∀ s a, ∃ r, (v s a).2 = .ok r) :
    ∀ (s : σ) (as : List EqAtom), (visitAll v s as).2 = .ok ()
  | _, [] => rfl
  | s, a :: as => by
      obtain ⟨r, hr⟩ := hv s a
      simp only [visitAll]
      rcases ha : v s a with ⟨s', _ | _⟩ <;> rw [ha] at hr <;> cases hr
      exact visitAll_ok hv s' as

/-- **A callback that never fails makes a walk that never fails**, by the simulation lemma. -/
theorem visit_ok {v : Visitor σ} (hv : ∀ s a, ∃ r, (v s a).2 = .ok r) (s : σ) (e : Expr) :
    ∃ e', (visitExprColumnEqConstant v s e).2 = .ok e' := by
  have hsim := congrArg Prod.snd (visit_eq_visitAll v s e)
  rw [visitAll_ok hv] at hsim
  obtain ⟨e', he', -⟩ := map_eq_ok hsim
  exact ⟨e', he'⟩

end Datafuse
