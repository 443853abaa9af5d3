import ExactCalc.Proofs.ParseTree
import ExactCalc.Proofs.PostfixOrder
import Mathlib.Data.List.Infix

/-!
# Reducing an infix list evaluates its tree

On a list in which literals and operators alternate, the reduction carries out the inner
nodes of the parse tree in post-order and ends with the tree's value. The only failure is
a `/` whose next token is a literal zero: in a term a divisor is always a single literal,
so the tokens alone decide it.
-/

set_option autoImplicit false

namespace ExactCalc

/-- Some `/` is followed at once by a literal equal to zero. -/
def Token.DividesByZero (ts : List Token) : Prop := [.op .div, .num 0] <:+: ts

instance (ts : List Token) : Decidable (Token.DividesByZero ts) :=
  inferInstanceAs (Decidable (_ <:+: _))

theorem Token.dividesByZero_append (ts us : List Token) (o : Op) :
    DividesByZero (ts ++ .op o :: us) ↔
      DividesByZero ts ∨ (o = .div ∧ us.head? = some (.num 0)) ∨ DividesByZero us := by
  induction ts with
  | nil =>
    have hhead : [Token.num 0] <+: us ↔ us.head? = some (.num 0) := by
      cases us <;> simp [List.cons_prefix_cons, eq_comm]
    simp [DividesByZero, List.infix_cons_iff, List.cons_prefix_cons, hhead, @eq_comm _ Op.div o]
  | cons t ts ih =>
    -- a match that starts at `t` cannot end on the operator
    have hfirst : [Token.op .div, .num 0] <+: t :: (ts ++ .op o :: us) ↔
        [Token.op .div, .num 0] <+: t :: ts := by
      cases ts <;> simp [List.cons_prefix_cons]
    unfold DividesByZero at ih ⊢
    rw [List.cons_append, List.infix_cons_iff, List.infix_cons_iff, hfirst, ih, or_assoc]

namespace Expr

theorem value?_node_eq_some (o : Op) (l r : Expr) (v : Rat) :
    (node o l r).value? = some v ↔
      ∃ a b, l.value? = some a ∧ r.value? = some b ∧ o.value? a b = some v := by
  simp only [value?, Option.bind_eq_some_iff]
  constructor
  · rintro ⟨a, ha, b, hb, h⟩
    exact ⟨a, b, ha, hb, h⟩
  · rintro ⟨a, b, ha, hb, h⟩
    exact ⟨a, ha, b, hb, h⟩

theorem value?_node_eq_none (o : Op) (l r : Expr) :
    (node o l r).value? = none ↔
      l.value? = none ∨ r.value? = none ∨ (o = .div ∧ r.value? = some 0) := by
  cases hl : l.value? with
  | none => simp [value?, hl]
  | some a =>
    cases hr : r.value? with
    | none => simp [value?, hl, hr]
    | some b => simp [value?, hl, hr, Op.value?_eq_none_iff]

theorem steps_node {o : Op} {l r : Expr} {a b v : Rat} (hl : l.value? = some a)
    (hr : r.value? = some b) (hv : o.value? a b = some v) :
    (node o l r).steps = l.steps ++ r.steps ++ [⟨o, a, b, v⟩] := by
  have hv := (value?_node_eq_some o l r v).2 ⟨a, b, hl, hr, hv⟩
  simp only [steps, hl, hr, hv]

/-- Every inner node of a tree that has a value is one step. -/
theorem length_steps {e : Expr} {v : Rat} (h : e.value? = some v) :
    e.steps.length = e.operators := by
  induction e generalizing v with
  | lit w => rfl
  | node o l r ihl ihr =>
    obtain ⟨a, b, hl, hr, hv⟩ := (value?_node_eq_some o l r v).1 h
    simp [steps_node hl hr hv, operators, ihl hl, ihr hr, Nat.add_assoc]

theorem run_postorder {e : Expr} {v : Rat} (h : e.value? = some v) (m : Machine) :
    m.run e.postorder = .ok ⟨v :: m.operands, e.steps.reverse ++ m.steps⟩ := by
  induction e generalizing v m with
  | lit w =>
    obtain rfl := Option.some.inj h
    rfl
  | node o l r ihl ihr =>
    obtain ⟨a, b, hl, hr, hv⟩ := (value?_node_eq_some o l r v).1 h
    have he : o.eval a b = .ok v := (o.eval_eq_ok_iff a b v).2 hv
    rw [postorder, Machine.run_append, Machine.run_append, ihl hl]
    simp only [Except.bind]
    rw [ihr hr]
    simp only [Machine.run_cons, Machine.feed, Machine.apply, he, steps_node hl hr hv,
      List.reverse_append, List.append_assoc]
    rfl

/-- A tree without a value stops the machine, and only a zero divisor does that. -/
theorem run_postorder_halts {e : Expr} (h : e.value? = none) (m : Machine) :
    ∃ ss, m.run e.postorder = .error ⟨.divisionByZero, ss⟩ := by
  induction e generalizing m with
  | lit w => simp [value?] at h
  | node o l r ihl ihr =>
    rw [postorder, List.append_assoc, Machine.run_append]
    cases hl : l.value? with
    | none =>
      obtain ⟨ss, hs⟩ := ihl hl m
      exact ⟨ss, by rw [hs]; rfl⟩
    | some a =>
      rw [run_postorder hl]
      simp only [Except.bind]
      rw [Machine.run_append]
      cases hr : r.value? with
      | none =>
        obtain ⟨ss, hs⟩ := ihr hr ⟨a :: m.operands, l.steps.reverse ++ m.steps⟩
        exact ⟨ss, by rw [hs]; rfl⟩
      | some b =>
        rw [run_postorder hr]
        simp only [Except.bind]
        rw [Machine.run_cons]
        have hz := (value?_node_eq_none o l r).1 h
        simp only [hl, hr, reduceCtorEq, Option.some.injEq, false_or] at hz
        obtain ⟨rfl, rfl⟩ := hz
        exact ⟨_, rfl⟩

end Expr

theorem IsTerm.value?_eq_none {ts : List Token} {e : Expr} (h : IsTerm ts e) :
    e.value? = none ↔ Token.DividesByZero ts := by
  induction h with
  | lit v => simp [Expr.value?, Token.DividesByZero, List.infix_cons_iff, List.cons_prefix_cons]
  | @node ts l o v _ _ ih =>
    rw [Expr.value?_node_eq_none, Token.dividesByZero_append, ih]
    simp [Expr.value?, Token.DividesByZero, List.infix_cons_iff, List.cons_prefix_cons]

theorem IsSum.value?_eq_none {ts : List Token} {e : Expr} (h : IsSum ts e) :
    e.value? = none ↔ Token.DividesByZero ts := by
  induction h with
  | term ht => exact ht.value?_eq_none
  | @node ts us l r o _ ho hr ih =>
    have hd : o ≠ .div := by
      rintro rfl
      simp at ho
    rw [Expr.value?_node_eq_none, Token.dividesByZero_append, ih, hr.value?_eq_none]
    simp [hd]

theorem IsInfix.ne_nil {ts : List Token} (h : IsInfix ts) : ts ≠ [] := by
  cases h <;> simp

theorem IsSum.reduce_eq {ts : List Token} {e : Expr} (h : IsSum ts e) (hts : ts ≠ []) :
    reduce ts = .ofRun (Machine.run {} e.postorder) := by
  rw [reduce_eq_run ts hts, h.postfixOrder]

/-- An infix list has exactly one tree. Its reduction is refused, as a division by zero,
exactly if some `/` has a literal zero right after it; otherwise it ends with the exact
value of the tree and its steps are the inner nodes in post-order. -/
theorem reduce_infix (ts : List Token) (hts : IsInfix ts) :
    ∃ e, IsSum ts e ∧ (∀ e', IsSum ts e' → e' = e) ∧
      ((reduce ts).outcome = .error .divisionByZero ↔ Token.DividesByZero ts) ∧
      (¬ Token.DividesByZero ts → ∃ v, e.value? = some v ∧
        reduce ts = ⟨e.steps, .ok v⟩ ∧ e.steps.length = e.operators) := by
  obtain ⟨e, he⟩ := hts.exists_tree
  have hr := he.reduce_eq hts.ne_nil
  refine ⟨e, he, fun e' he' => he'.unique he, ?_⟩
  rw [← he.value?_eq_none]
  cases hv : e.value? with
  | none =>
    obtain ⟨ss, hs⟩ := e.run_postorder_halts hv {}
    rw [hr, hs]
    simp [Reduction.ofRun]
  | some v =>
    rw [hr, e.run_postorder hv]
    simp [Reduction.ofRun, Machine.value, e.length_steps hv]

/-- Both precedences, a fraction and a negative literal in one list, `7/2 - 1 / -2 * 3 - 2`:
the tree is `(7/2 - ((1 / -2) * 3)) - 2`. -/
theorem reduce_infix_mixed :
    ∃ ts e, ts = [.num (7/2), .op .sub, .num 1, .op .div, .num (-2), .op .mul, .num 3,
        .op .sub, .num 2] ∧
      IsInfix ts ∧ ¬ Token.DividesByZero ts ∧ IsSum ts e ∧ e.value? = some 3 ∧
      reduce ts = ⟨e.steps, .ok 3⟩ ∧ e.steps.length = 4 := by
  have hts : IsInfix [.num (7/2), .op .sub, .num 1, .op .div, .num (-2), .op .mul, .num 3,
      .op .sub, .num 2] :=
    .join _ _ (.join _ _ (.join _ _ (.join _ _ (.lit 2))))
  have hz : ¬ Token.DividesByZero [.num (7/2), .op .sub, .num 1, .op .div, .num (-2), .op .mul,
      .num 3, .op .sub, .num 2] := by decide +kernel
  obtain ⟨e, he, -, -, hv⟩ := reduce_infix _ hts
  obtain ⟨v, hv, hr, -⟩ := hv hz
  have hout : (reduce [.num (7/2), .op .sub, .num 1, .op .div, .num (-2), .op .mul, .num 3,
      .op .sub, .num 2]).outcome = .ok 3 := by decide +kernel
  have hlen : (reduce [.num (7/2), .op .sub, .num 1, .op .div, .num (-2), .op .mul, .num 3,
      .op .sub, .num 2]).steps.length = 4 := by decide +kernel
  rw [hr] at hout hlen
  obtain rfl := Except.ok.inj hout
  exact ⟨_, e, rfl, hts, hz, he, hv, hr, hlen⟩

end ExactCalc
