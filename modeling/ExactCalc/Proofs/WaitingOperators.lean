import ExactCalc.Proofs.OperandSupply

/-!
# The operators that wait

An operator that is read lets those go that bind at least as tightly, so it waits only above
operators that bind less tightly. There are two precedences: below at most one tight operator
at most one loose operator waits, and that is the latest loose one of the list. The stack is
made for operators alone. One with room for any token, which refuses a literal when it comes
off, goes through the same states and never meets a literal.
-/

set_option autoImplicit false

namespace ExactCalc

namespace Token

theorem lastLoose_precedence {ts : List Token} {o : Op} (h : lastLoose ts = some o) :
    o.precedence = 1 := by
  induction ts using List.reverseRecOn with
  | nil => cases h
  | append_singleton ts t ih =>
    cases t with
    | num v => exact ih (by rwa [lastLoose_snoc_num] at h)
    | op p =>
      rw [lastLoose_snoc_op] at h
      split at h
      · cases h
        assumption
      · exact ih h

theorem lastLoose_append {us vs : List Token} {o : Op} (ho : o.precedence = 1)
    (hvs : ∀ p, .op p ∈ vs → p.precedence ≠ 1) : lastLoose (us ++ .op o :: vs) = some o := by
  induction vs using List.reverseRecOn with
  | nil => rw [lastLoose_snoc_op, if_pos ho]
  | append_singleton vs t ih =>
    have hrest := ih fun p hp => hvs p (List.mem_append_left _ hp)
    rw [← List.cons_append, ← List.append_assoc]
    cases t with
    | num v => rw [lastLoose_snoc_num, hrest]
    | op p => rw [lastLoose_snoc_op, if_neg (hvs p (by simp)), hrest]

/-- At most one tight operator waits, above the latest loose one. -/
theorem exists_held_eq (ts : List Token) :
    ∃ tight : Option Op, (∀ o ∈ tight, o.precedence = 2) ∧
      held ts = tight.toList ++ (lastLoose ts).toList := by
  induction ts using List.reverseRecOn with
  | nil => exact ⟨none, by simp, rfl⟩
  | append_singleton ts t ih =>
    rw [held_snoc]
    cases t with
    | num v => rwa [hold, lastLoose_snoc_num]
    | op o =>
      rw [hold, lastLoose_snoc_op]
      rcases o.precedence_eq with ho | ho
      · exact ⟨none, by simp, by rw [dropWhile_loose ho, if_pos ho]; rfl⟩
      · exact ⟨some o, by simp [ho], by rw [ho, dropWhile_held, if_neg (by decide)]; rfl⟩

theorem pairwise_held (ts : List Token) :
    (held ts).Pairwise fun upper lower => lower.precedence < upper.precedence := by
  obtain ⟨tight, htight, hheld⟩ := exists_held_eq ts
  rw [hheld]
  cases tight with
  | none => cases lastLoose ts <;> simp
  | some o =>
    cases hl : lastLoose ts with
    | none => simp
    | some p => simp [htight o rfl, lastLoose_precedence hl]

theorem length_held_le (ts : List Token) : (held ts).length ≤ 2 := by
  obtain ⟨tight, -, hheld⟩ := exists_held_eq ts
  rw [hheld]
  cases tight <;> cases lastLoose ts <;> simp

end Token

open Token

/-- Applies what comes off a stack of tokens. A literal is refused in the place of an
operator, once it has been given its operands. -/
def Machine.applyToken (m : Machine) : Token → Except Halt Machine
  | .op o => m.apply o
  | .num v =>
    match m.operands with
    | _ :: _ :: _ => .error ⟨.invalidOperator (Token.num v).text, m.steps⟩
    | _ => .error ⟨.invalidExpression .missingOperand, m.steps⟩

/-- A reducer whose stack has room for any token, latest first. -/
structure TokenReducer where
  machine : Machine := {}
  stack : List Token := []
  deriving DecidableEq, Repr

namespace TokenReducer

/-- Applies tokens as long as none comes that binds less tightly than `p`; a literal, which
has no precedence, does not wait either. -/
def unwind (p : Nat) : List Token → Machine → Except Halt TokenReducer
  | [], m => .ok ⟨m, []⟩
  | t :: ts, m =>
    if t.precedence?.any (· < p) then .ok ⟨m, t :: ts⟩
    else (m.applyToken t).bind (unwind p ts)

def push (r : TokenReducer) : Token → Except Halt TokenReducer
  | .num v => .ok { r with machine := r.machine.put v }
  | .op o =>
    (unwind o.precedence r.stack r.machine).map fun s => { s with stack := .op o :: s.stack }

def pushAll (r : TokenReducer) (ts : List Token) : Except Halt TokenReducer := ts.foldlM push r

end TokenReducer

namespace Reducer

/-- The same state with its operators on a stack of tokens. -/
def onTokens (r : Reducer) : TokenReducer := ⟨r.machine, r.pending.map .op⟩

theorem unwind_onTokens (p : Nat) (os : List Op) (m : Machine) :
    TokenReducer.unwind p (os.map .op) m = (unwind p os m).map onTokens := by
  induction os generalizing m with
  | nil => rfl
  | cons o os ih =>
    rw [List.map_cons, TokenReducer.unwind, unwind_cons]
    by_cases hp : p ≤ o.precedence
    · rw [if_neg (by simpa [precedence?] using hp), if_pos hp, Machine.applyToken]
      cases m.apply o with
      | error e => rfl
      | ok n => exact ih n
    · rw [if_pos (by simpa [precedence?] using hp), if_neg hp]
      rfl

theorem push_onTokens (r : Reducer) (t : Token) :
    r.onTokens.push t = (r.push t).map onTokens := by
  cases t with
  | num v => rfl
  | op o =>
    rw [TokenReducer.push, push_op_eq]
    change (TokenReducer.unwind _ (r.pending.map .op) r.machine).map _ = _
    rw [unwind_onTokens]
    cases unwind o.precedence r.pending r.machine <;> rfl

theorem pushAll_onTokens (r : Reducer) (ts : List Token) :
    r.onTokens.pushAll ts = (r.pushAll ts).map onTokens := by
  induction ts generalizing r with
  | nil => rfl
  | cons t ts ih =>
    simp only [TokenReducer.pushAll, pushAll_eq, List.foldlM_cons, push_onTokens]
    cases r.push t with
    | error e => rfl
    | ok s => exact ih s

theorem push_op_split (r : Reducer) (o : Op) :
    ∃ gone kept, r.pending = gone ++ kept ∧
      r.push (.op o) = (r.machine.run (gone.map .op)).map fun n => ⟨n, o :: kept⟩ :=
  ⟨_, _, (List.takeWhile_append_dropWhile ..).symm, push_op r o⟩

/-- What every list of tokens leaves behind, if nothing halts it. On a stack for any token there
would be operators only, and the same halts. Their precedences increase strictly toward
the top: there are two at most, a `+` or `-` at the bottom, which is the latest of these in
the list, and a `*` or `/` above it. So the next operator makes at most two of them go. Every
literal is an operand or used up by a step, every operator waits or is a step, and once there
is a step there is an operand. -/
theorem pushAll_stack (ts : List Token) :
    TokenReducer.pushAll {} ts = (pushAll {} ts).map onTokens ∧
      ∀ r, pushAll {} ts = .ok r →
        (r.pending.Pairwise fun upper lower => lower.precedence < upper.precedence) ∧
        r.pending.length ≤ 2 ∧
        (∃ tight loose : Option Op, r.pending = tight.toList ++ loose.toList ∧
          (∀ o ∈ tight, o = .mul ∨ o = .div) ∧ ∀ o ∈ loose, o = .add ∨ o = .sub) ∧
        (∀ us o vs, ts = us ++ .op o :: vs → o = .add ∨ o = .sub →
          (∀ p, .op p ∈ vs → p = .mul ∨ p = .div) → r.pending.getLast? = some o) ∧
        (∀ o, ∃ gone kept, r.pending = gone ++ kept ∧ gone.length ≤ 2 ∧
          r.push (.op o) = (r.machine.run (gone.map .op)).map fun n => ⟨n, o :: kept⟩) ∧
        r.machine.operands.length + r.machine.steps.length = literals ts ∧
        r.pending.length + r.machine.steps.length = operators ts ∧
        (1 ≤ r.machine.steps.length → 1 ≤ r.machine.operands.length) := by
  refine ⟨pushAll_onTokens {} ts, fun r hr => ?_⟩
  have h := tracks_of_pushAll hr
  obtain ⟨tight, htight, hheld⟩ := exists_held_eq ts
  have hlength : r.pending.length ≤ 2 := h.pending_eq ▸ length_held_le ts
  refine ⟨h.pending_eq ▸ pairwise_held ts, hlength,
    ⟨tight, lastLoose ts, h.pending_eq.trans hheld,
      fun o ho => o.precedence_eq_two_iff.1 (htight o ho),
      fun o ho => o.precedence_eq_one_iff.1 (lastLoose_precedence ho)⟩,
    ?_, ?_, h.literals_eq, h.operators_eq, ?_⟩
  · rintro us o vs rfl ho hvs
    have htail : ∀ p, .op p ∈ vs → p.precedence ≠ 1 := by
      intro p hp
      rw [p.precedence_eq_two_iff.2 (hvs p hp)]
      decide
    rw [h.pending_eq, hheld, lastLoose_append (o.precedence_eq_one_iff.2 ho) htail]
    simp
  · intro o
    obtain ⟨gone, kept, hsplit, hpush⟩ := r.push_op_split o
    have hgone : gone.length ≤ r.pending.length := by simp [hsplit]
    exact ⟨gone, kept, hsplit, hgone.trans hlength, hpush⟩
  · simpa only [Nat.one_le_iff_ne_zero, ne_eq, List.length_eq_zero_iff] using h.nonempty

/-- The `+` has made the `-` go and waits below the `*`; a further `-` would make both go. -/
theorem pushAll_stack_two :
    pushAll {} [.num 4, .op .sub, .num 1, .op .add, .num 2, .op .mul, .num 3] =
        .ok ⟨⟨[3, 2, 3], [⟨.sub, 4, 1, 3⟩]⟩, [.mul, .add]⟩ ∧
      TokenReducer.pushAll {} [.num 4, .op .sub, .num 1, .op .add, .num 2, .op .mul, .num 3] =
        .ok ⟨⟨[3, 2, 3], [⟨.sub, 4, 1, 3⟩]⟩, [.op .mul, .op .add]⟩ ∧
      [Op.mul, .add].getLast? = some .add ∧
      ∃ gone kept, [Op.mul, .add] = gone ++ kept ∧ gone.length ≤ 2 ∧
        push ⟨⟨[3, 2, 3], [⟨.sub, 4, 1, 3⟩]⟩, [.mul, .add]⟩ (.op .sub) =
          (Machine.run ⟨[3, 2, 3], [⟨.sub, 4, 1, 3⟩]⟩ (gone.map .op)).map
            fun n => ⟨n, .sub :: kept⟩ := by
  have hr : pushAll {} [.num 4, .op .sub, .num 1, .op .add, .num 2, .op .mul, .num 3] =
      .ok ⟨⟨[3, 2, 3], [⟨.sub, 4, 1, 3⟩]⟩, [.mul, .add]⟩ := by decide +kernel
  obtain ⟨htokens, h⟩ :=
    pushAll_stack [.num 4, .op .sub, .num 1, .op .add, .num 2, .op .mul, .num 3]
  obtain ⟨-, -, -, hloose, hgone, -⟩ := h _ hr
  rw [hr] at htokens
  exact ⟨hr, htokens, hloose [.num 4, .op .sub, .num 1] .add [.num 2, .op .mul, .num 3] rfl
    (.inl rfl) (by simp), hgone .sub⟩

end Reducer

end ExactCalc
