import ExactCalc.Proofs.Halting
import ExactCalc.Scan

/-!
# Which lines are scanned

A policy refuses a line because of one character and accepts it because of all: a line has
tokens exactly if every character is a digit, an operator or one the policy admits. What
an accepted line is read as does not depend on the policy, so reading is stated apart, as
a total function that every accepting run agrees with.
-/

set_option autoImplicit false

namespace ExactCalc

namespace Policy

/-- Whether a character may stand in a line at all. -/
def accepts (p : Policy) (c : Char) : Bool :=
  c.isDigit || (Op.ofChar? c).isSome || p.admits c

theorem accepts_digit (p : Policy) {c : Char} (h : c.isDigit = true) : p.accepts c = true := by
  simp [accepts, h]

theorem accepts_symbol (p : Policy) (o : Op) : p.accepts o.symbol = true := by
  simp [accepts, Op.ofChar?_symbol]

theorem accepts_space (p : Policy) : p.accepts ' ' = true := by
  cases p <;> decide

end Policy

namespace Scan

/-- The state after a character that is let in. One that is neither a digit nor an operator
only ends the run. -/
def read (s : Scan) (c : Char) : Scan :=
  if c.isDigit then ⟨s.position + 1, s.tokens, some (Numeral.extend (s.run.getD 0) c)⟩
  else match Op.ofChar? c with
    | some o => ⟨s.position + 1, .op o :: s.closed, none⟩
    | none => ⟨s.position + 1, s.closed, none⟩

def readAll (s : Scan) (cs : List Char) : Scan := cs.foldl read s

theorem readAll_cons (s : Scan) (c : Char) (cs : List Char) :
    s.readAll (c :: cs) = (s.read c).readAll cs := rfl

theorem readAll_append (s : Scan) (as bs : List Char) :
    s.readAll (as ++ bs) = (s.readAll as).readAll bs :=
  List.foldl_append

theorem read_digit (s : Scan) {c : Char} (h : c.isDigit = true) :
    s.read c = ⟨s.position + 1, s.tokens, some (Numeral.extend (s.run.getD 0) c)⟩ := by
  rw [read, if_pos h]

theorem read_symbol (s : Scan) (o : Op) :
    s.read o.symbol = ⟨s.position + 1, .op o :: s.closed, none⟩ := by
  simp [read, o.symbol_not_digit, Op.ofChar?_symbol]

theorem read_space (s : Scan) : s.read ' ' = ⟨s.position + 1, s.closed, none⟩ := rfl

theorem read_position (s : Scan) (c : Char) : (s.read c).position = s.position + 1 := by
  unfold read
  by_cases hd : c.isDigit
  · simp [hd]
  · cases Op.ofChar? c <;> simp [hd]

/-- Positions count characters. -/
theorem readAll_position (s : Scan) (cs : List Char) :
    (s.readAll cs).position = s.position + cs.length := by
  induction cs generalizing s with
  | nil => rfl
  | cons c cs ih =>
    rw [readAll_cons, ih, read_position, List.length_cons]
    omega

theorem step_eq_read (p : Policy) (s : Scan) (c : Char) :
    s.step p c =
      if p.accepts c then .ok (s.read c) else .error (.invalidToken c s.position) := by
  unfold step read Policy.accepts
  by_cases hd : c.isDigit
  · simp [hd]
  · cases ho : Op.ofChar? c with
    | some o => simp [hd]
    | none => cases p.admits c <;> simp [hd]

theorem step_eq_error_iff (p : Policy) (s : Scan) (c : Char) (e : EvalError) :
    s.step p c = .error e ↔ p.accepts c = false ∧ e = .invalidToken c s.position := by
  rw [step_eq_read]
  cases p.accepts c <;> simp [eq_comm]

/-- The scanner stops at the first character that is not accepted. -/
theorem advance_eq_error_iff (p : Policy) (s : Scan) (cs : List Char) (e : EvalError) :
    s.advance p cs = .error e ↔
      ∃ as c bs t, cs = as ++ c :: bs ∧ s.advance p as = .ok t ∧ p.accepts c = false ∧
        e = .invalidToken c t.position := by
  unfold advance
  rw [foldlM_eq_error_iff]
  simp only [step_eq_error_iff]

theorem advance_isOk_iff (p : Policy) (s : Scan) (cs : List Char) :
    (∃ t, s.advance p cs = .ok t) ↔ ∀ c ∈ cs, p.accepts c = true := by
  induction cs generalizing s with
  | nil => simp [advance, pure, Except.pure]
  | cons c cs ih =>
    rw [List.forall_mem_cons, advance, List.foldlM_cons, step_eq_read]
    cases hc : p.accepts c with
    | false => simp [bind, Except.bind]
    | true =>
      rw [and_iff_right rfl]
      exact ih (s.read c)

theorem advance_of_accepts {p : Policy} {cs : List Char} (h : ∀ c ∈ cs, p.accepts c = true)
    (s : Scan) : s.advance p cs = .ok (s.readAll cs) := by
  induction cs generalizing s with
  | nil => rfl
  | cons c cs ih =>
    obtain ⟨hc, hcs⟩ := List.forall_mem_cons.1 h
    rw [advance, List.foldlM_cons, step_eq_read, if_pos hc]
    exact ih hcs (s.read c)

theorem advance_eq_ok_iff (p : Policy) (s t : Scan) (cs : List Char) :
    s.advance p cs = .ok t ↔ (∀ c ∈ cs, p.accepts c = true) ∧ t = s.readAll cs := by
  constructor
  · intro h
    have hcs := (advance_isOk_iff p s cs).1 ⟨t, h⟩
    rw [advance_of_accepts hcs] at h
    exact ⟨hcs, (Except.ok.inj h).symm⟩
  · rintro ⟨hcs, rfl⟩
    exact advance_of_accepts hcs s

end Scan

theorem scan_of_accepts {p : Policy} {line : String}
    (h : ∀ c ∈ line.toList, p.accepts c = true) :
    scan p line = .ok (Scan.readAll {} line.toList).result := by
  rw [scan, Scan.advance_of_accepts h]
  rfl

/-- A refusal names the first character that is not accepted, and where it stands. -/
theorem scan_eq_error_iff (p : Policy) (line : String) (e : EvalError) :
    scan p line = .error e ↔
      ∃ as c bs, line.toList = as ++ c :: bs ∧ (∀ d ∈ as, p.accepts d = true) ∧
        p.accepts c = false ∧ e = .invalidToken c as.length := by
  have hmap : scan p line = .error e ↔ Scan.advance p {} line.toList = .error e := by
    unfold scan
    cases Scan.advance p {} line.toList <;> simp [Except.map]
  rw [hmap, Scan.advance_eq_error_iff]
  constructor
  · rintro ⟨as, c, bs, t, hline, ht, hc, rfl⟩
    obtain ⟨has, rfl⟩ := (Scan.advance_eq_ok_iff p {} t as).1 ht
    refine ⟨as, c, bs, hline, has, hc, ?_⟩
    rw [Scan.readAll_position, Nat.zero_add]
  · rintro ⟨as, c, bs, hline, has, hc, rfl⟩
    refine ⟨as, c, bs, _, hline, Scan.advance_of_accepts has {}, hc, ?_⟩
    rw [Scan.readAll_position, Nat.zero_add]

/-- The same by index: the character stands there, and none before it is refused. -/
theorem scan_eq_invalidToken_iff (p : Policy) (line : String) (c : Char) (k : Nat) :
    scan p line = .error (.invalidToken c k) ↔
      line.toList[k]? = some c ∧ p.accepts c = false ∧
        ∀ d ∈ line.toList.take k, p.accepts d = true := by
  rw [scan_eq_error_iff]
  constructor
  · rintro ⟨as, c', bs, hline, has, hc, he⟩
    cases he
    rw [hline, List.take_left]
    exact ⟨by simp, hc, has⟩
  · rintro ⟨hk, hc, has⟩
    obtain ⟨hlt, hget⟩ := List.getElem?_eq_some_iff.1 hk
    refine ⟨line.toList.take k, c, line.toList.drop (k + 1), ?_, has, hc, ?_⟩
    · rw [← hget, ← List.drop_eq_getElem_cons, List.take_append_drop]
    · rw [List.length_take, Nat.min_eq_left (Nat.le_of_lt hlt)]

theorem scan_isOk_iff (p : Policy) (line : String) :
    (∃ ts, scan p line = .ok ts) ↔ ∀ c ∈ line.toList, p.accepts c = true := by
  rw [← Scan.advance_isOk_iff p {}]
  unfold scan
  cases Scan.advance p {} line.toList <;> simp [Except.map]

theorem scan_eq_ok_iff (p : Policy) (line : String) (ts : List Token) :
    scan p line = .ok ts ↔
      (∀ c ∈ line.toList, p.accepts c = true) ∧ ts = (Scan.readAll {} line.toList).result := by
  constructor
  · intro h
    have hline := (scan_isOk_iff p line).1 ⟨ts, h⟩
    rw [scan_of_accepts hline] at h
    exact ⟨hline, (Except.ok.inj h).symm⟩
  · rintro ⟨hline, rfl⟩
    exact scan_of_accepts hline

end ExactCalc
