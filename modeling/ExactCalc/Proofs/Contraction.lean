import ExactCalc.Proofs.OperandSupply
import ExactCalc.Proofs.TreeReduction

/-!
# The steps rewrite the expression

The first step of a reduction takes two literals and the operator between them, and an
expression with the result in their place is reduced by the remaining steps. Step after step,
an infix list is so contracted to its value. In the parse tree the contracted node is the
first one in post-order; both its operands are literals, so its tokens are neighbours.
-/

set_option autoImplicit false

namespace ExactCalc

namespace Token

/-- The result of a step takes the place of its operands and the operator between them. -/
inductive Contracts : List Token → Step → List Token → Prop where
  | here (s : Step) (before behind : List Token) : s.op.value? s.left s.right = some s.result →
      Contracts (before ++ [.num s.left, .op s.op, .num s.right] ++ behind) s
        (before ++ [.num s.result] ++ behind)

namespace Contracts

variable {ts us : List Token} {s : Step}

theorem append_right (h : Contracts ts s us) (rest : List Token) :
    Contracts (ts ++ rest) s (us ++ rest) := by
  cases h with
  | here s before behind hs => simpa using here s before (behind ++ rest) hs

theorem append_left (h : Contracts ts s us) (front : List Token) :
    Contracts (front ++ ts) s (front ++ us) := by
  cases h with
  | here s before behind hs => simpa using here s (front ++ before) behind hs

theorem operators_eq (h : Contracts ts s us) : operators ts = operators us + 1 := by
  cases h with
  | here s before behind hs =>
    simp only [operators_append, operators]
    omega

theorem result_eq {v : Rat} (h : Contracts ts s [.num v]) : s.result = v := by
  generalize hv : [Token.num v] = us at h
  cases h with
  | here s before behind hs =>
    have hlen := congrArg List.length hv
    simp only [List.length_append, List.length_singleton] at hlen
    obtain rfl := List.length_eq_zero_iff.1 (show before.length = 0 by omega)
    simpa using congrArg List.head? hv.symm

end Contracts

/-- Contractions by one step after the other. -/
inductive ContractsBy : List Token → List Step → List Token → Prop where
  | nil (ts : List Token) : ContractsBy ts [] ts
  | cons {ts us vs : List Token} {s : Step} {ss : List Step} :
      Contracts ts s us → ContractsBy us ss vs → ContractsBy ts (s :: ss) vs

namespace ContractsBy

variable {ts us : List Token} {ss : List Step}

theorem operators_eq (h : ContractsBy ts ss us) : operators ts = operators us + ss.length := by
  induction h with
  | nil ts => rfl
  | cons hc _ ih =>
    rw [hc.operators_eq, ih, List.length_cons]
    omega

/-- Where the chain ends with one literal, this is the result of the last step. -/
theorem result_last {v : Rat} (h : ContractsBy ts ss [.num v]) :
    ∀ s ∈ ss.getLast?, s.result = v := by
  generalize hv : [Token.num v] = us at h
  induction h with
  | nil ts => simp
  | @cons ts us vs s ss hc hrest ih =>
    subst hv
    cases hrest with
    | nil us => simpa using hc.result_eq
    | cons hc' hrest' => simpa [List.getLast?_cons_cons] using ih rfl

end ContractsBy

end Token

open Token

/-- A literal, or a term with a first step, by which it is contracted to another one. -/
theorem IsTerm.contracts {ts : List Token} {e : Expr} {v : Rat} (h : IsTerm ts e)
    (hv : e.value? = some v) :
    (e = .lit v ∧ ts = [.num v]) ∨
      ∃ s us e', Contracts ts s us ∧ IsTerm us e' ∧ e'.value? = some v ∧ e.steps = s :: e'.steps := by
  induction h generalizing v with
  | lit w =>
    cases hv
    exact .inl ⟨rfl, rfl⟩
  | @node ts l o w hl ho ih =>
    obtain ⟨a, b, ha, hb, he⟩ := (Expr.value?_node_eq_some o l (.lit w) v).1 hv
    cases hb
    right
    rcases ih ha with ⟨rfl, rfl⟩ | ⟨s, us, l', hc, hl', ha', hs⟩
    · refine ⟨⟨o, a, w, v⟩, [.num v], .lit v, .here ⟨o, a, w, v⟩ [] [] he, .lit v, rfl, ?_⟩
      rw [Expr.steps_node ha rfl he]
      rfl
    · refine ⟨s, us ++ [.op o, .num w], .node o l' (.lit w), hc.append_right _, .node o w hl' ho,
        (Expr.value?_node_eq_some o l' (.lit w) v).2 ⟨a, w, ha', rfl, he⟩, ?_⟩
      rw [Expr.steps_node ha rfl he, Expr.steps_node ha' rfl he, hs]
      rfl

theorem IsSum.contracts {ts : List Token} {e : Expr} {v : Rat} (h : IsSum ts e)
    (hv : e.value? = some v) :
    (e = .lit v ∧ ts = [.num v]) ∨
      ∃ s us e', Contracts ts s us ∧ IsSum us e' ∧ e'.value? = some v ∧ e.steps = s :: e'.steps := by
  induction h generalizing v with
  | term ht =>
    rcases ht.contracts hv with hlit | ⟨s, us, e', hc, ht', hv', hs⟩
    · exact .inl hlit
    · exact .inr ⟨s, us, e', hc, .term ht', hv', hs⟩
  | @node ts us l r o hl ho hr ih =>
    obtain ⟨a, b, ha, hb, he⟩ := (Expr.value?_node_eq_some o l r v).1 hv
    right
    rcases ih ha with ⟨rfl, rfl⟩ | ⟨s, ts', l', hc, hl', ha', hs⟩
    · rcases hr.contracts hb with ⟨rfl, rfl⟩ | ⟨s, us', r', hc, hr', hb', hs⟩
      · refine ⟨⟨o, a, b, v⟩, [.num v], .lit v, .here ⟨o, a, b, v⟩ [] [] he, .term (.lit v), rfl, ?_⟩
        rw [Expr.steps_node ha hb he]
        rfl
      · refine ⟨s, [.num a] ++ .op o :: us', .node o (.lit a) r', ?_, .node o hl ho hr',
          (Expr.value?_node_eq_some o (.lit a) r' v).2 ⟨a, b, ha, hb', he⟩, ?_⟩
        · exact hc.append_left [.num a, .op o]
        · rw [Expr.steps_node ha hb he, Expr.steps_node ha hb' he, hs]
          rfl
    · refine ⟨s, ts' ++ .op o :: us, .node o l' r, hc.append_right _, .node o hl' ho hr,
        (Expr.value?_node_eq_some o l' r v).2 ⟨a, b, ha', hb, he⟩, ?_⟩
      rw [Expr.steps_node ha hb he, Expr.steps_node ha' hb he, hs]
      rfl

/-- All steps of a sum that has a value lead to that value. -/
theorem IsSum.contractsBy {ts : List Token} {e : Expr} {v : Rat} (h : IsSum ts e)
    (hv : e.value? = some v) : ContractsBy ts e.steps [.num v] := by
  generalize hss : e.steps = ss
  induction ss generalizing ts e with
  | nil =>
    rcases h.contracts hv with ⟨-, rfl⟩ | ⟨s, us, e', -, -, -, hs⟩
    · exact .nil _
    · rw [hss] at hs
      cases hs
  | cons t ss ih =>
    rcases h.contracts hv with ⟨rfl, -⟩ | ⟨s, us, e', hc, he', hv', hs⟩
    · cases hss
    · rw [hss] at hs
      obtain ⟨rfl, hrest⟩ := List.cons.inj hs
      exact .cons hc (ih he' hv' hrest.symm)

theorem IsSum.ne_nil {ts : List Token} {e : Expr} (h : IsSum ts e) : ts ≠ [] := by
  cases h with
  | term ht => cases ht <;> simp
  | node o _ _ _ => simp

theorem IsSum.reduce_of_value {ts : List Token} {e : Expr} {v : Rat} (h : IsSum ts e)
    (hv : e.value? = some v) : reduce ts = ⟨e.steps, .ok v⟩ := by
  rw [h.reduce_eq h.ne_nil, e.run_postorder hv]
  simp [Reduction.ofRun, Machine.value]

theorem IsSum.value?_of_outcome {ts : List Token} {e : Expr} {v : Rat} (h : IsSum ts e)
    (hv : (reduce ts).outcome = .ok v) : e.value? = some v := by
  cases hw : e.value? with
  | none =>
    obtain ⟨ss, hs⟩ := e.run_postorder_halts hw {}
    rw [h.reduce_eq h.ne_nil, hs] at hv
    cases hv
  | some w =>
    rw [h.reduce_of_value hw] at hv
    cases hv
    rfl

/-- An infix list with an operator that has a value holds three neighbouring tokens, two
literals around an operator, with which its reduction begins. With their result in their
place the list is reduced to the same value by the remaining steps. All steps together, as
many as there are operators, contract the list to its value, which is the result of the last
of them. -/
theorem reduce_contracts (ts : List Token) (v : Rat) (hts : IsInfix ts) (hop : 0 < operators ts)
    (hv : (reduce ts).outcome = .ok v) :
    (∃ (before behind : List Token) (a b r : Rat) (o : Op) (rest : List Step),
      ts = before ++ [.num a, .op o, .num b] ++ behind ∧ o.eval a b = .ok r ∧
        o.value? a b = some r ∧
        (reduce ts).steps = ⟨o, a, b, r⟩ :: rest ∧
        (reduce ts).steps.map Step.text =
          (Numeral.ofRat a ++ " " ++ o.text ++ " " ++ Numeral.ofRat b ++ " = " ++
            Numeral.ofRat r) :: rest.map Step.text ∧
        reduce (before ++ [.num r] ++ behind) = ⟨rest, .ok v⟩) ∧
      (reduce ts).steps.length = operators ts ∧
      (∃ o a b, (reduce ts).steps.getLast? = some ⟨o, a, b, v⟩ ∧
        ((reduce ts).steps.map Step.text).getLast? =
          some (Numeral.ofRat a ++ " " ++ o.text ++ " " ++ Numeral.ofRat b ++ " = " ++
            Numeral.ofRat v)) ∧
      ContractsBy ts (reduce ts).steps [.num v] := by
  obtain ⟨e, he⟩ := hts.exists_tree
  have hvalue := he.value?_of_outcome hv
  have hchain := he.contractsBy hvalue
  have hlength : e.steps.length = operators ts := by
    rw [hchain.operators_eq]
    exact (Nat.zero_add _).symm
  rw [he.reduce_of_value hvalue]
  refine ⟨?_, hlength, ?_, hchain⟩
  · rcases he.contracts hvalue with ⟨rfl, rfl⟩ | ⟨s, us, e', hc, he', hvalue', hsteps⟩
    · exact absurd hop (Nat.lt_irrefl 0)
    · cases hc with
      | here s before behind hs =>
        refine ⟨before, behind, s.left, s.right, s.result, s.op, e'.steps, rfl,
          (s.op.eval_eq_ok_iff _ _ _).2 hs, hs, hsteps, ?_, he'.reduce_of_value hvalue'⟩
        rw [hsteps, List.map_cons, s.text_eq]
  · cases hlast : e.steps.getLast? with
    | none =>
      rw [List.getLast?_eq_none_iff.1 hlast] at hlength
      rw [← hlength] at hop
      exact absurd hop (Nat.lt_irrefl 0)
    | some s =>
      obtain rfl := hchain.result_last s hlast
      refine ⟨s.op, s.left, s.right, rfl, ?_⟩
      rw [List.getLast?_map, hlast, Option.map_some, s.text_eq]

/-- The product comes first, although it stands behind the sum: `1 + 2 * 3 - 4` goes over
`1 + 6 - 4` and `7 - 4` to `3`. -/
theorem reduce_contracts_product_first :
    IsInfix [.num 1, .op .add, .num 2, .op .mul, .num 3, .op .sub, .num 4] ∧
      0 < operators [.num 1, .op .add, .num 2, .op .mul, .num 3, .op .sub, .num 4] ∧
      (reduce [.num 1, .op .add, .num 2, .op .mul, .num 3, .op .sub, .num 4]).outcome = .ok 3 ∧
      (∃ before behind, [.num 1, .op .add, .num 2, .op .mul, .num 3, .op .sub, .num 4] =
          before ++ [.num 2, .op .mul, .num 3] ++ behind ∧
        reduce (before ++ [.num 6] ++ behind) = ⟨[⟨.add, 1, 6, 7⟩, ⟨.sub, 7, 4, 3⟩], .ok 3⟩) ∧
      (∃ line, ([⟨.mul, 2, 3, 6⟩, ⟨.add, 1, 6, 7⟩, ⟨.sub, 7, 4, 3⟩].map Step.text).getLast? =
        some (line ++ " = " ++ Numeral.ofRat 3)) ∧
      ContractsBy [.num 1, .op .add, .num 2, .op .mul, .num 3, .op .sub, .num 4]
        [⟨.mul, 2, 3, 6⟩, ⟨.add, 1, 6, 7⟩, ⟨.sub, 7, 4, 3⟩] [.num 3] := by
  have hts : IsInfix [.num 1, .op .add, .num 2, .op .mul, .num 3, .op .sub, .num 4] :=
    .join _ _ (.join _ _ (.join _ _ (.lit 4)))
  have hout : (reduce [.num 1, .op .add, .num 2, .op .mul, .num 3, .op .sub, .num 4]).outcome =
      .ok 3 := by decide +kernel
  have hsteps : (reduce [.num 1, .op .add, .num 2, .op .mul, .num 3, .op .sub, .num 4]).steps =
      [⟨.mul, 2, 3, 6⟩, ⟨.add, 1, 6, 7⟩, ⟨.sub, 7, 4, 3⟩] := by decide +kernel
  obtain ⟨⟨before, behind, a, b, r, o, rest, hsplit, -, -, hfirst, -, hrest⟩, -,
    ⟨_, _, _, -, hline⟩, hchain⟩ := reduce_contracts _ 3 hts (by decide) hout
  rw [hsteps] at hfirst hline hchain
  cases hfirst
  exact ⟨hts, by decide, hout, ⟨before, behind, hsplit, hrest⟩, ⟨_, hline⟩, hchain⟩

end ExactCalc
