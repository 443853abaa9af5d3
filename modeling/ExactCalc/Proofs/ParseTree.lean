import ExactCalc.Expression
import ExactCalc.Postfix

/-!
# One tree for every infix list

A list in which literals and operators alternate has exactly one tree under the grammar,
and the postfix order of the list is the post-order of that tree. Both rest on the right
spine of a tree: the operators on it are the ones held back when its last literal has
been read.
-/

set_option autoImplicit false

namespace ExactCalc

namespace Expr

/-- The tokens of a tree, every operator after its operands. -/
def postorder : Expr → List Token
  | lit v => [.num v]
  | node o l r => l.postorder ++ r.postorder ++ [.op o]

/-- Reads a tree back from its post-order: an operator joins the two latest trees. -/
def regrow (es : List Expr) : Token → List Expr
  | .num v => lit v :: es
  | .op o =>
    match es with
    | r :: l :: rest => node o l r :: rest
    | _ => es

theorem foldl_regrow (e : Expr) (es : List Expr) : e.postorder.foldl regrow es = e :: es := by
  induction e generalizing es with
  | lit v => rfl
  | node o l r ihl ihr =>
    rw [postorder, List.foldl_append, List.foldl_append, ihl, ihr]
    rfl

theorem postorder_injective {e e' : Expr} (h : e.postorder = e'.postorder) : e = e' := by
  have hr := congrArg (List.foldl regrow []) h
  rw [foldl_regrow, foldl_regrow] at hr
  exact (List.cons.inj hr).1

/-- The operators on the right spine, the lowest first. -/
def spine : Expr → List Op
  | lit _ => []
  | node o _ r => r.spine ++ [o]

/-- The post-order up to the last literal. -/
def settled : Expr → List Token
  | lit v => [.num v]
  | node _ l r => l.postorder ++ r.settled

theorem settled_spine (e : Expr) : e.settled ++ e.spine.map .op = e.postorder := by
  induction e with
  | lit v => rfl
  | node o l r _ ihr => simp [settled, spine, postorder, ← ihr]

end Expr

theorem Token.postfixFrom_op (o : Op) (as held : List Op) (ts : List Token)
    (ha : ∀ a ∈ as, o.precedence ≤ a.precedence)
    (hh : ∀ h ∈ held, h.precedence < o.precedence) :
    postfixFrom (as ++ held) (.op o :: ts) = as.map .op ++ postfixFrom (o :: held) ts := by
  have hstop : held.takeWhile (o.precedence ≤ ·.precedence) = [] ∧
      held.dropWhile (o.precedence ≤ ·.precedence) = held := by
    cases held with
    | nil => simp
    | cons h held =>
      have := hh h (by simp)
      simp [show ¬ o.precedence ≤ h.precedence by omega]
  rw [postfixFrom_cons_op, List.takeWhile_append_of_pos (by simpa using ha),
    List.dropWhile_append_of_pos (by simpa using ha), hstop.1, hstop.2, List.append_nil]

namespace IsTerm

theorem spine_tight {ts : List Token} {e : Expr} (h : IsTerm ts e) :
    ∀ o ∈ e.spine, o.precedence = 2 := by
  cases h with
  | lit v => simp [Expr.spine]
  | node o v _ ho => simpa [Expr.spine] using o.precedence_eq_two_iff.2 ho

/-- A term is read above looser operators without touching them. -/
theorem postfixFrom {ts : List Token} {e : Expr} (h : IsTerm ts e) (held : List Op)
    (hh : ∀ o ∈ held, o.precedence = 1) (rest : List Token) :
    Token.postfixFrom held (ts ++ rest) = e.settled ++ Token.postfixFrom (e.spine ++ held) rest := by
  induction h generalizing rest with
  | lit v => rfl
  | @node ts l o v hl ho ih =>
    rw [← o.precedence_eq_two_iff] at ho
    have ha : ∀ a ∈ l.spine, o.precedence ≤ a.precedence := by
      intro a hm
      have := hl.spine_tight a hm
      omega
    have hb : ∀ b ∈ held, b.precedence < o.precedence := by
      intro b hm
      have := hh b hm
      omega
    rw [List.append_assoc, ih, List.cons_append, Token.postfixFrom_op o l.spine held _ ha hb,
      ← List.append_assoc, l.settled_spine]
    simp [Expr.settled, Expr.spine, Token.postfixFrom]

end IsTerm

namespace IsSum

theorem postfixFrom {ts : List Token} {e : Expr} (h : IsSum ts e) (rest : List Token) :
    Token.postfixFrom [] (ts ++ rest) = e.settled ++ Token.postfixFrom e.spine rest := by
  induction h generalizing rest with
  | term ht => simpa using ht.postfixFrom [] (by simp) rest
  | @node ts us l r o _ ho hr ih =>
    rw [← o.precedence_eq_one_iff] at ho
    have ha : ∀ a ∈ l.spine, o.precedence ≤ a.precedence := by
      intro a _
      rcases a.precedence_eq with hp | hp <;> omega
    have hflush := Token.postfixFrom_op o l.spine [] (us ++ rest) ha (by simp)
    rw [List.append_nil] at hflush
    rw [List.append_assoc, ih, List.cons_append, hflush, ← List.append_assoc, l.settled_spine,
      hr.postfixFrom [o] (by simpa using ho)]
    simp [Expr.settled, Expr.spine]

theorem postfixOrder {ts : List Token} {e : Expr} (h : IsSum ts e) :
    Token.postfixOrder ts = e.postorder := by
  have hp := h.postfixFrom []
  rwa [List.append_nil, Token.postfixFrom, e.settled_spine] at hp

theorem unique {ts : List Token} {e e' : Expr} (h : IsSum ts e) (h' : IsSum ts e') : e = e' :=
  Expr.postorder_injective (h.postfixOrder.symm.trans h'.postfixOrder)

/-- One more operator and literal: a looser operator takes the whole sum as its left
operand, a tighter one only the last term. -/
theorem snoc {ts : List Token} {e : Expr} (h : IsSum ts e) (o : Op) (v : Rat) :
    ∃ e', IsSum (ts ++ [.op o, .num v]) e' := by
  rcases o.precedence_eq with ho | ho
  · exact ⟨_, node o h (o.precedence_eq_one_iff.1 ho) (.lit v)⟩
  · rw [o.precedence_eq_two_iff] at ho
    cases h with
    | term ht => exact ⟨_, term (.node o v ht ho)⟩
    | @node ts us l r p hl hp hr =>
      refine ⟨.node p l (.node o r (.lit v)), ?_⟩
      rw [List.append_assoc, List.cons_append]
      exact node p hl hp (.node o v hr ho)

theorem extend {ts us : List Token} {e : Expr} (h : IsSum ts e) (o : Op) (hus : IsInfix us) :
    ∃ e', IsSum (ts ++ .op o :: us) e' := by
  induction hus generalizing ts e o with
  | lit v => exact h.snoc o v
  | join v p _ ih =>
    obtain ⟨e', he'⟩ := h.snoc o v
    simpa using ih he' p

end IsSum

theorem IsInfix.exists_tree {ts : List Token} (h : IsInfix ts) : ∃ e, IsSum ts e := by
  cases h with
  | lit v => exact ⟨.lit v, .term (.lit v)⟩
  | join v o hus => exact (IsSum.term (.lit v)).extend o hus

end ExactCalc
