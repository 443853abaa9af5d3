import ExactCalc.Proofs.TokenText
import Mathlib.Algebra.Ring.Nat
import Mathlib.Data.List.Induction

/-!
# Scanning a line in two pieces

Wherever a line is cut, the scan of the whole follows from those of the pieces. A refusal in
the first piece stays, one in the second moves by the length of the first. The tokens are put
one after the other, unless digits meet at the cut: they are one run, and the two literals
become one.
-/

set_option autoImplicit false

namespace ExactCalc

/-- Digits that are added move the number up by as many places. -/
theorem Numeral.foldl_extend_eq_add (m : Nat) (ds : List Char) :
    ds.foldl extend m = m * 10 ^ ds.length + ds.foldl extend 0 := by
  rw [foldl_extend, foldl_extend, Nat.ofDigitChars_eq_ofDigitChars_zero, Nat.mul_comm]

namespace Scan

/-- A scan that is made behind another one, whose run has ended. -/
def after (s t : Scan) : Scan := ⟨s.position + t.position, s.tokens ++ t.closed, s.run⟩

theorem closed_after (s t : Scan) : (s.after t).closed = s.closed ++ t.closed := by
  unfold closed after
  cases s.run <;> rfl

theorem read_after (s t : Scan) (c : Char) : (s.after t).read c = (s.read c).after t := by
  have hpos : s.position + t.position + 1 = s.position + 1 + t.position := by omega
  by_cases hd : c.isDigit
  · rw [read_digit _ hd, read_digit _ hd]
    simp only [after, hpos]
  · unfold read
    rw [if_neg hd, if_neg hd, closed_after]
    cases Op.ofChar? c <;> simp [after, hpos, closed]

theorem readAll_after (s t : Scan) (cs : List Char) :
    (s.after t).readAll cs = (s.readAll cs).after t := by
  induction cs generalizing s with
  | nil => rfl
  | cons c cs ih => rw [readAll_cons, read_after, ih, readAll_cons]

theorem read_of_not_digit (t : Scan) {c : Char} (h : c.isDigit = false) :
    t.read c = (({} : Scan).after t).read c := by
  have hclosed : (({} : Scan).after t).closed = t.closed := closed_after {} t
  have hpos : (({} : Scan).after t).position = t.position := Nat.zero_add t.position
  unfold read
  rw [h, hclosed, hpos]
  rfl

/-- What follows is scanned as if it stood alone, unless it lengthens a run. -/
theorem closed_readAll (t : Scan) {cs : List Char}
    (h : t.run = none ∨ ∀ c ∈ cs.head?, c.isDigit = false) :
    (t.readAll cs).closed = (readAll {} cs).closed ++ t.closed := by
  cases cs with
  | nil => rfl
  | cons c cs =>
    have hstart : t.read c = (({} : Scan).after t).read c := by
      rcases h with hrun | hc
      · have hself : ({} : Scan).after t = t := by
          rw [after, closed_of_run_none hrun]
          simp [← hrun]
        rw [hself]
      · exact t.read_of_not_digit (hc c rfl)
    rw [readAll_cons, hstart, ← readAll_cons, readAll_after, closed_after]

theorem isSome_run_readAll (s : Scan) (cs : List Char) (c : Char) :
    (s.readAll (cs ++ [c])).run.isSome = c.isDigit := by
  rw [readAll_append, readAll_cons]
  show (read _ c).run.isSome = c.isDigit
  by_cases hd : c.isDigit
  · rw [read_digit _ hd, hd]
    rfl
  · unfold read
    rw [if_neg hd, eq_false_of_ne_true hd]
    cases Op.ofChar? c <;> rfl

theorem isSome_run_iff (cs : List Char) :
    (readAll {} cs).run.isSome = true ↔ ∃ c ∈ cs.getLast?, c.isDigit = true := by
  induction cs using List.reverseRecOn with
  | nil => simp [readAll]
  | append_singleton cs c _ =>
    rw [isSome_run_readAll]
    simp

/-- Digits that come first lengthen an open run or start one. Behind them the scan is that of
the rest alone. -/
theorem closed_readAll_digits (s : Scan) {cs : List Char} (h : ∃ c ∈ cs.head?, c.isDigit = true) :
    (s.readAll cs).closed =
      (readAll {} (cs.dropWhile Char.isDigit)).closed ++
        .num ((cs.takeWhile Char.isDigit).foldl Numeral.extend (s.run.getD 0) : Nat) ::
          s.tokens := by
  have hdigits : ∀ c ∈ cs.takeWhile Char.isDigit, c.isDigit = true :=
    List.all_eq_true.1 List.all_takeWhile
  have hne : cs.takeWhile Char.isDigit ≠ [] := by
    obtain ⟨c, hc, hdigit⟩ := h
    obtain ⟨ds, rfl⟩ := List.head?_eq_some_iff.1 hc
    rw [List.takeWhile_cons_of_pos hdigit]
    exact List.cons_ne_nil _ _
  have hrest : ∀ c ∈ (cs.dropWhile Char.isDigit).head?, c.isDigit = false := by
    intro c hc
    have hnot := List.head?_dropWhile_not Char.isDigit cs
    rw [Option.mem_def.1 hc] at hnot
    exact hnot
  have hsplit : s.readAll cs =
      (s.readAll (cs.takeWhile Char.isDigit)).readAll (cs.dropWhile Char.isDigit) := by
    rw [← readAll_append, List.takeWhile_append_dropWhile]
  rw [hsplit, closed_readAll _ (.inr hrest), readAll_run s hne hdigits]
  rfl

end Scan

/-- The first line ends with a digit and the second one begins with one. -/
def DigitsMeet (s t : String) : Prop :=
  (∃ c ∈ s.toList.getLast?, c.isDigit = true) ∧ ∃ c ∈ t.toList.head?, c.isDigit = true

theorem scan_append_error {p : Policy} {s : String} {e : EvalError} (h : scan p s = .error e)
    (t : String) : scan p (s ++ t) = .error e := by
  obtain ⟨as, c, bs, hs, has, hc, rfl⟩ := (scan_eq_error_iff p s e).1 h
  refine (scan_eq_error_iff p (s ++ t) _).2 ⟨as, c, bs ++ t.toList, ?_, has, hc, rfl⟩
  rw [String.toList_append, hs, List.append_assoc, List.cons_append]

theorem scan_append_moved {p : Policy} {s t : String} {ts : List Token} {c : Char} {k : Nat}
    (hs : scan p s = .ok ts) (ht : scan p t = .error (.invalidToken c k)) :
    scan p (s ++ t) = .error (.invalidToken c (s.length + k)) := by
  have hall := ((scan_eq_ok_iff p s ts).1 hs).1
  obtain ⟨as, d, bs, hline, has, hd, he⟩ := (scan_eq_error_iff p t _).1 ht
  cases he
  refine (scan_eq_error_iff p (s ++ t) _).2 ⟨s.toList ++ as, c, bs, ?_, ?_, hd, ?_⟩
  · rw [String.toList_append, hline, List.append_assoc]
  · exact List.forall_mem_append.2 ⟨hall, has⟩
  · rw [List.length_append, String.length_toList]

/-- What two accepted lines hold together. -/
theorem scan_append_ok {p : Policy} {s t : String} {ts us : List Token}
    (hs : scan p s = .ok ts) (ht : scan p t = .ok us) :
    scan p (s ++ t) = .ok ((Scan.readAll {} s.toList).readAll t.toList).result := by
  have hall := ((scan_eq_ok_iff p s ts).1 hs).1
  have hrest := ((scan_eq_ok_iff p t us).1 ht).1
  have haccepts : ∀ c ∈ (s ++ t).toList, p.accepts c = true := by
    rw [String.toList_append]
    exact List.forall_mem_append.2 ⟨hall, hrest⟩
  rw [scan_of_accepts haccepts, String.toList_append, Scan.readAll_append]

theorem scan_append_apart {p : Policy} {s t : String} {ts us : List Token}
    (hs : scan p s = .ok ts) (ht : scan p t = .ok us) (h : ¬ DigitsMeet s t) :
    scan p (s ++ t) = .ok (ts ++ us) := by
  obtain ⟨-, rfl⟩ := (scan_eq_ok_iff p s ts).1 hs
  obtain ⟨-, rfl⟩ := (scan_eq_ok_iff p t us).1 ht
  have hcut : (Scan.readAll {} s.toList).run = none ∨ ∀ c ∈ t.toList.head?, c.isDigit = false := by
    by_cases hhead : ∃ c ∈ t.toList.head?, c.isDigit = true
    · have hlast : ¬ (Scan.readAll {} s.toList).run.isSome = true :=
        fun hrun => h ⟨(Scan.isSome_run_iff _).1 hrun, hhead⟩
      exact .inl (Option.not_isSome_iff_eq_none.1 hlast)
    · exact .inr fun c hc => eq_false_of_ne_true fun hd => hhead ⟨c, hc, hd⟩
  rw [scan_append_ok hs ht, Scan.result, Scan.closed_readAll _ hcut, List.reverse_append]
  rfl

theorem scan_append_meet {p : Policy} {s t : String} {ts us : List Token}
    (hs : scan p s = .ok ts) (ht : scan p t = .ok us) (h : DigitsMeet s t) :
    ∃ (ts' us' : List Token) (m n : Nat), ts = ts' ++ [.num m] ∧ us = .num n :: us' ∧
      scan p (s ++ t) = .ok
        (ts' ++ .num (m * 10 ^ (t.toList.takeWhile Char.isDigit).length + n : Nat) :: us') := by
  obtain ⟨-, rfl⟩ := (scan_eq_ok_iff p s ts).1 hs
  obtain ⟨-, rfl⟩ := (scan_eq_ok_iff p t us).1 ht
  obtain ⟨m, hm⟩ := Option.isSome_iff_exists.1 ((Scan.isSome_run_iff s.toList).2 h.1)
  refine ⟨(Scan.readAll {} s.toList).tokens.reverse,
    (Scan.readAll {} (t.toList.dropWhile Char.isDigit)).closed.reverse, m,
    (t.toList.takeWhile Char.isDigit).foldl Numeral.extend 0, ?_, ?_, ?_⟩
  · rw [Scan.result, Scan.closed, hm, List.reverse_cons]
  · rw [Scan.result, Scan.closed_readAll_digits {} h.2, List.reverse_append]
    rfl
  · rw [scan_append_ok hs ht, Scan.result, Scan.closed_readAll_digits _ h.2, hm,
      Option.getD_some, Numeral.foldl_extend_eq_add, List.reverse_append, List.reverse_cons,
      List.append_assoc, List.singleton_append]

/-- The scan of two lines joined. If the first is refused, so is the whole, for the same
character. If only the second is, the position of its character moves by the length of the
first. If neither is, the tokens are those of the first and then those of the second; where
digits meet, the last literal of the first and the first literal of the second are one, with
as many places added as the second line has digits in front, zeros included. -/
theorem scan_append (p : Policy) (s t : String) :
    (∀ e, scan p s = .error e →
      (∃ c k, e = .invalidToken c k) ∧ scan p (s ++ t) = .error e) ∧
    (∀ ts c k, scan p s = .ok ts → scan p t = .error (.invalidToken c k) →
      scan p (s ++ t) = .error (.invalidToken c (s.length + k))) ∧
    ∀ ts us, scan p s = .ok ts → scan p t = .ok us →
      (¬ DigitsMeet s t → scan p (s ++ t) = .ok (ts ++ us)) ∧
      (DigitsMeet s t → ∃ (ts' us' : List Token) (m n : Nat),
        ts = ts' ++ [.num m] ∧ us = .num n :: us' ∧
          scan p (s ++ t) = .ok
            (ts' ++ .num (m * 10 ^ (t.toList.takeWhile Char.isDigit).length + n : Nat) :: us')) := by
  refine ⟨fun e h => ⟨?_, scan_append_error h t⟩, fun ts c k hs ht => scan_append_moved hs ht,
    fun ts us hs ht => ⟨scan_append_apart hs ht, scan_append_meet hs ht⟩⟩
  obtain ⟨as, c, bs, -, -, -, he⟩ := (scan_eq_error_iff p s e).1 h
  exact ⟨c, as.length, he⟩

/-- Zeros behind the cut are places of the joined literal. Under the strict policy a character
that is refused behind four others stands at the fifth place. -/
theorem scan_append_zeros :
    scan .lenient "2*1" = .ok [.num 2, .op .mul, .num 1] ∧
      scan .lenient "005-3" = .ok [.num 5, .op .sub, .num 3] ∧ DigitsMeet "2*1" "005-3" ∧
      scan .lenient ("2*1" ++ "005-3") =
        .ok [.num 2, .op .mul, .num 1005, .op .sub, .num 3] ∧
      scan .strict "12 +" = .ok [.num 12, .op .add] ∧
      scan .strict "x7" = .error (.invalidToken 'x' 0) ∧
      scan .strict ("12 +" ++ "x7") = .error (.invalidToken 'x' 4) := by
  have hmeet : DigitsMeet "2*1" "005-3" := ⟨⟨'1', by decide, by decide⟩, ⟨'0', by decide, by decide⟩⟩
  have hs : scan .lenient "2*1" = .ok [.num 2, .op .mul, .num 1] := by decide +kernel
  have ht : scan .lenient "005-3" = .ok [.num 5, .op .sub, .num 3] := by decide +kernel
  have hu : scan .strict "12 +" = .ok [.num 12, .op .add] := by decide +kernel
  have hx : scan .strict "x7" = .error (.invalidToken 'x' 0) := by decide +kernel
  obtain ⟨-, -, hjoin⟩ := scan_append .lenient "2*1" "005-3"
  obtain ⟨ts', us', m, n, hlast, hfirst, hscan⟩ := (hjoin _ _ hs ht).2 hmeet
  obtain ⟨-, hmoved, -⟩ := scan_append .strict "12 +" "x7"
  refine ⟨hs, ht, hmeet, ?_, hu, hx, hmoved _ _ _ hu hx⟩
  obtain ⟨rfl, hm⟩ : [.num 2, .op .mul] = ts' ∧ [.num 1] = [Token.num m] :=
    List.append_inj' hlast rfl
  obtain ⟨hn, rfl⟩ := List.cons.inj hfirst
  have hm1 : m = 1 := by exact_mod_cast (Token.num.inj (List.cons.inj hm).1).symm
  have hn5 : n = 5 := by exact_mod_cast (Token.num.inj hn).symm
  have hrun : ("005-3".toList.takeWhile Char.isDigit).length = 3 := by decide
  rw [hscan, hm1, hn5, hrun]
  rfl

end ExactCalc
