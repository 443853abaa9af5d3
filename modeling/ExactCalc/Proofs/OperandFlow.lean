import ExactCalc.Proofs.StepOrder
import Mathlib.Data.List.Flatten
import Mathlib.Data.List.Forall2
import Mathlib.Data.List.Nodup
import Mathlib.Data.List.Perm.Basic

/-!
# No operand is lost or made up

Where a number goes does not depend on numbers, so the postfix order is also run on the
origins of the operands: the literals and the results of the steps, each by its index. Of
these every one is handed on once. It is an operand of one step, for a result a step later
than its own, or what is left at the end. What is read and made is therefore what is taken
and left, each number as often, for infix lists and for all others that have a value.
-/

set_option autoImplicit false

namespace ExactCalc

open scoped List

namespace Token

/-- The literals of a list, in order. -/
def nums : List Token → List Rat
  | [] => []
  | .num r :: ts => r :: nums ts
  | .op _ :: ts => nums ts

theorem nums_append (ts us : List Token) : nums (ts ++ us) = nums ts ++ nums us := by
  induction ts with
  | nil => rfl
  | cons t ts ih => cases t <;> simp [nums, ih]

theorem nums_map_op (os : List Op) : nums (os.map .op) = [] := by
  induction os with
  | nil => rfl
  | cons o os ih => exact ih

/-- Literals keep their order in postfix. -/
theorem nums_postfixFrom (held : List Op) (ts : List Token) :
    nums (postfixFrom held ts) = nums ts := by
  induction ts generalizing held with
  | nil => exact nums_map_op held
  | cons t ts ih =>
    cases t with
    | num v => exact congrArg (v :: ·) (ih held)
    | op o =>
      rw [postfixFrom_cons_op, nums_append, nums_map_op, ih]
      rfl

end Token

/-- Where an operand comes from: a literal of the list, or the result of a step. -/
inductive Origin where
  | literal (i : Nat)
  | result (i : Nat)
  deriving DecidableEq, Repr

namespace Origin

def all (literals results : Nat) : List Origin :=
  (List.range literals).map literal ++ (List.range results).map result

def value? (nums : List Rat) (steps : List Step) : Origin → Option Rat
  | literal i => nums[i]?
  | result i => (steps.map Step.result)[i]?

theorem all_succ_left (l r : Nat) : all (l + 1) r ~ literal l :: all l r := by
  rw [all, List.range_succ, List.map_append, List.append_assoc]
  exact List.perm_middle

theorem all_succ_right (l r : Nat) : all l (r + 1) = all l r ++ [result r] := by
  rw [all, List.range_succ, List.map_append, ← List.append_assoc]
  rfl

theorem result_mem_all {l r k : Nat} : result k ∈ all l r ↔ k < r := by
  simp [all]

theorem nodup_all (l r : Nat) : (all l r).Nodup := by
  have hl : ((List.range l).map literal).Nodup := List.nodup_range.map fun _ _ => literal.inj
  have hr : ((List.range r).map result).Nodup := List.nodup_range.map fun _ _ => result.inj
  apply hl.append hr
  intro o hol hor
  obtain ⟨i, -, rfl⟩ := List.mem_map.1 hol
  obtain ⟨j, -, hj⟩ := List.mem_map.1 hor
  cases hj

/-- All origins stand for all literals and all results. -/
theorem map_value?_all (nums : List Rat) (steps : List Step) :
    (all nums.length steps.length).map (value? nums steps) =
      (nums ++ steps.map Step.result).map some := by
  have hn : (List.range nums.length).map (value? nums steps ∘ literal) = nums.map some := by
    apply List.ext_getElem <;> simp [value?]
  have hs : (List.range steps.length).map (value? nums steps ∘ result) =
      (steps.map Step.result).map some := by
    apply List.ext_getElem <;> simp +contextual [value?]
  rw [all, List.map_append, List.map_map, List.map_map, hn, hs, List.map_append]

variable {nums : List Rat} {steps : List Step} {o : Origin} {r : Rat}

/-- Literals that are read later do not alter what an origin stands for. -/
theorem value?_read (h : o.value? nums steps = some r) (v : Rat) :
    o.value? (nums ++ [v]) steps = some r := by
  cases o with
  | literal i => exact (List.getElem?_append_left (List.getElem?_eq_some_iff.1 h).1).trans h
  | result i => exact h

/-- Nor do results that are made later. -/
theorem value?_made (h : o.value? nums steps = some r) (s : Step) :
    o.value? nums (steps ++ [s]) = some r := by
  cases o with
  | literal i => exact h
  | result i =>
    rw [value?, List.map_append]
    exact (List.getElem?_append_left (List.getElem?_eq_some_iff.1 h).1).trans h

end Origin

/-- The machine on origins: the number of literals read, the operands, top first, and those
that the steps have taken, in order. -/
structure Flow where
  read : Nat := 0
  operands : List Origin := []
  taken : List (Origin × Origin) := []
  deriving DecidableEq, Repr

namespace Flow

def feed (f : Flow) : Token → Option Flow
  | .num _ => some { f with read := f.read + 1, operands := .literal f.read :: f.operands }
  | .op _ =>
    match f.operands with
    | b :: a :: rest =>
      some { f with operands := .result f.taken.length :: rest, taken := f.taken ++ [(a, b)] }
    | _ => none

def run (f : Flow) (ts : List Token) : Option Flow := ts.foldlM feed f

def used (f : Flow) : List Origin := f.taken.flatMap fun u => [u.1, u.2]

theorem feed_op_eq_some {f g : Flow} {o : Op} (h : f.feed (.op o) = some g) :
    ∃ a b rest, f.operands = b :: a :: rest ∧
      g = ⟨f.read, .result f.taken.length :: rest, f.taken ++ [(a, b)]⟩ := by
  obtain ⟨l, os, ps⟩ := f
  rcases os with _ | ⟨b, _ | ⟨a, rest⟩⟩
  · cases h
  · cases h
  · cases h
    exact ⟨a, b, rest, rfl, rfl⟩

/-- Step `i` takes the result of step `k`. -/
def Takes (f : Flow) (i k : Nat) : Prop :=
  ∃ u, f.taken[i]? = some u ∧ (.result k = u.1 ∨ .result k = u.2)

/-- Every origin is at one place, and a result is taken by a step later than its own. -/
structure Conserved (f : Flow) : Prop where
  once : f.operands ++ f.used ~ Origin.all f.read f.taken.length
  later : ∀ i k, f.Takes i k → k < i

theorem Conserved.feed {f g : Flow} (h : f.Conserved) {t : Token} (ht : f.feed t = some g) :
    g.Conserved := by
  cases t with
  | num v =>
    cases ht
    exact ⟨(h.once.cons _).trans (Origin.all_succ_left _ _).symm, h.later⟩
  | op o =>
    obtain ⟨a, b, rest, hops, rfl⟩ := feed_op_eq_some ht
    have honce := h.once
    rw [hops] at honce
    constructor
    · have hused : used ⟨f.read, .result f.taken.length :: rest, f.taken ++ [(a, b)]⟩ =
          f.used ++ [a, b] := by
        simp [used]
      have hperm : rest ++ (f.used ++ [a, b]) ~ b :: a :: rest ++ f.used := by
        rw [← List.append_assoc]
        exact List.perm_append_comm.trans (.swap b a _)
      rw [hused, List.length_append, List.length_singleton, Origin.all_succ_right]
      exact ((hperm.trans honce).cons _).trans (List.perm_append_singleton _ _).symm
    · rintro i k ⟨u, hu, hk⟩
      by_cases hi : i < f.taken.length
      · rw [List.getElem?_append_left hi] at hu
        exact h.later i k ⟨u, hu, hk⟩
      · -- the new step takes what was made before it
        have hi' : i = f.taken.length := by
          have := (List.getElem?_eq_some_iff.1 hu).1
          simp only [List.length_append, List.length_singleton] at this
          omega
        subst hi'
        rw [List.getElem?_concat_length] at hu
        cases hu
        rw [← Origin.result_mem_all (l := f.read), ← honce.mem_iff]
        rcases hk with rfl | rfl <;> simp

theorem Conserved.run {f g : Flow} (h : f.Conserved) {ts : List Token} (ht : f.run ts = some g) :
    g.Conserved := by
  induction ts generalizing f with
  | nil =>
    cases ht
    exact h
  | cons t ts ih =>
    obtain ⟨f', hf', hrest⟩ := Option.bind_eq_some_iff.1 ht
    exact ih (h.feed hf') hrest

theorem conserved_empty : Conserved {} := by
  refine ⟨.refl _, ?_⟩
  rintro i k ⟨u, hu, -⟩
  cases hu

theorem result_mem_used {f : Flow} {k : Nat} : .result k ∈ f.used ↔ ∃ i, f.Takes i k := by
  rw [used, List.mem_flatMap]
  constructor
  · rintro ⟨u, hu, hk⟩
    obtain ⟨i, hi⟩ := List.mem_iff_getElem?.1 hu
    exact ⟨i, u, hi, by simpa using hk⟩
  · rintro ⟨i, u, hi, hk⟩
    exact ⟨u, List.mem_of_getElem? hi, by simpa using hk⟩

/-- No two steps take the same result. -/
theorem Conserved.takes_unique {f : Flow} (h : f.Conserved) {i j k : Nat} (hi : f.Takes i k)
    (hj : f.Takes j k) : i = j := by
  have hnodup : f.used.Nodup :=
    (h.once.nodup_iff.2 (Origin.nodup_all _ _)).sublist (List.sublist_append_right _ _)
  have hdisjoint := List.pairwise_iff_getElem.1 (List.nodup_flatMap.1 hnodup).2
  obtain ⟨u, hu, hku⟩ := hi
  obtain ⟨w, hw, hkw⟩ := hj
  obtain ⟨hi, rfl⟩ := List.getElem?_eq_some_iff.1 hu
  obtain ⟨hj, rfl⟩ := List.getElem?_eq_some_iff.1 hw
  rcases lt_trichotomy i j with hlt | heq | hgt
  · exact absurd (by simpa using hkw) (hdisjoint i j hi hj hlt (by simpa using hku))
  · exact heq
  · exact absurd (by simpa using hku) (hdisjoint j i hj hi hgt (by simpa using hkw))

/-- Every result is taken by just one step, except for one that is left at the end. -/
theorem Conserved.existsUnique_takes {f : Flow} (h : f.Conserved) {last : Origin}
    (hl : f.operands = [last]) {k : Nat} (hk : k < f.taken.length) (hne : .result k ≠ last) :
    ∃! i, f.Takes i k := by
  have hmem : .result k ∈ f.operands ++ f.used := by
    rw [h.once.mem_iff, Origin.result_mem_all]
    exact hk
  rw [hl, List.mem_append, List.mem_singleton, or_iff_right hne, result_mem_used] at hmem
  obtain ⟨i, hi⟩ := hmem
  exact ⟨i, hi, fun j hj => h.takes_unique hj hi⟩

/-- What is left alone at the end is the result of the last step, if there was one. -/
theorem Conserved.last_eq {f : Flow} (h : f.Conserved) {last : Origin} (hl : f.operands = [last])
    (hpos : 0 < f.taken.length) : last = .result (f.taken.length - 1) := by
  by_contra hne
  -- no step is later than the last one
  obtain ⟨i, hi, -⟩ := h.existsUnique_takes hl (by omega) (Ne.symm hne)
  have hlater := h.later i _ hi
  obtain ⟨u, hu, -⟩ := hi
  have := (List.getElem?_eq_some_iff.1 hu).1
  omega

/-- The origins that a step has taken stand for its operands. -/
def Feeds (nums : List Rat) (steps : List Step) (u : Origin × Origin) (s : Step) : Prop :=
  u.1.value? nums steps = some s.left ∧ u.2.value? nums steps = some s.right

/-- Behind the origins stand the numbers that a machine has there. -/
structure Follows (f : Flow) (nums : List Rat) (m : Machine) : Prop where
  read_eq : f.read = nums.length
  operands : List.Forall₂ (fun o r => o.value? nums m.steps.reverse = some r) f.operands m.operands
  taken : List.Forall₂ (Feeds nums m.steps.reverse) f.taken m.steps.reverse

section Following

variable {f : Flow} {nums : List Rat} {m n : Machine}

theorem Follows.length_taken (h : f.Follows nums m) :
    f.taken.length = m.steps.reverse.length :=
  h.taken.length_eq

theorem Follows.put (h : f.Follows nums m) (v : Rat) :
    Follows ⟨f.read + 1, .literal f.read :: f.operands, f.taken⟩ (nums ++ [v]) (m.put v) := by
  have hnew : (Origin.literal f.read).value? (nums ++ [v]) m.steps.reverse = some v := by
    rw [h.read_eq]
    exact List.getElem?_concat_length
  refine ⟨?_, .cons hnew (h.operands.imp fun _ _ ho => Origin.value?_read ho v), ?_⟩
  · rw [h.read_eq, List.length_append, List.length_singleton]
  · exact h.taken.imp fun _ _ hu => ⟨Origin.value?_read hu.1 v, Origin.value?_read hu.2 v⟩

theorem Follows.apply (h : f.Follows nums m) {o : Op} (ho : m.apply o = .ok n) :
    ∃ g, f.feed (.op o) = some g ∧ g.Follows nums n := by
  obtain ⟨a, b, rest, r, hops, -, rfl⟩ := (Machine.apply_eq_ok_iff m n o).1 ho
  have hoperands := h.operands
  rw [hops] at hoperands
  obtain ⟨fb, fs, hb, hfs, hf⟩ := List.forall₂_cons_right_iff.1 hoperands
  obtain ⟨fa, frest, ha, hrest, rfl⟩ := List.forall₂_cons_right_iff.1 hfs
  refine ⟨⟨f.read, .result f.taken.length :: frest, f.taken ++ [(fa, fb)]⟩, ?_, ?_⟩
  · rw [feed, hf]
  · have hnew : (Origin.result f.taken.length).value? nums (m.steps.reverse ++ [⟨o, a, b, r⟩]) =
        some r := by
      rw [h.length_taken]
      simp [Origin.value?]
    refine ⟨h.read_eq, .cons ?_ ?_, ?_⟩
    · rwa [List.reverse_cons]
    · rw [List.reverse_cons]
      exact hrest.imp fun _ _ ho => Origin.value?_made ho _
    · rw [List.reverse_cons]
      refine List.rel_append (h.taken.imp ?_) (.cons ⟨?_, ?_⟩ .nil)
      · exact fun _ _ hu => ⟨Origin.value?_made hu.1 _, Origin.value?_made hu.2 _⟩
      · exact Origin.value?_made ha _
      · exact Origin.value?_made hb _

theorem Follows.feed (h : f.Follows nums m) {t : Token} (ht : m.feed t = .ok n) :
    ∃ g, f.feed t = some g ∧ g.Follows (nums ++ Token.nums [t]) n := by
  cases t with
  | num v =>
    cases ht
    exact ⟨_, rfl, h.put v⟩
  | op o =>
    rw [Token.nums, Token.nums, List.append_nil]
    exact h.apply ht

theorem Follows.run (h : f.Follows nums m) {ts : List Token} (hr : m.run ts = .ok n) :
    ∃ g, f.run ts = some g ∧ g.Follows (nums ++ Token.nums ts) n := by
  induction ts generalizing f nums m with
  | nil =>
    cases hr
    exact ⟨f, rfl, by rwa [Token.nums, List.append_nil]⟩
  | cons t ts ih =>
    obtain ⟨m', hm, hrest⟩ := Machine.exists_of_run_cons hr
    obtain ⟨f', hf, hfollows⟩ := h.feed hm
    obtain ⟨g, hg, hn⟩ := ih hfollows hrest
    rw [List.append_assoc, ← Token.nums_append, List.singleton_append] at hn
    exact ⟨g, Option.bind_eq_some_iff.2 ⟨f', hf, hg⟩, hn⟩

theorem follows_empty : Follows {} [] {} := ⟨rfl, .nil, .nil⟩

/-- The numbers behind what is left and what was taken are those behind all origins. -/
theorem Follows.perm (h : f.Follows nums m) (hc : f.Conserved) :
    nums ++ m.steps.reverse.map Step.result ~
      m.operands ++ m.steps.reverse.flatMap fun s => [s.left, s.right] := by
  have hused : List.Forall₂ (fun o r => o.value? nums m.steps.reverse = some r) f.used
      (m.steps.reverse.flatMap fun s => [s.left, s.right]) :=
    List.rel_flatMap h.taken fun _ _ hu => .cons hu.1 (.cons hu.2 .nil)
  have hvalues := List.rel_append h.operands hused
  rw [← List.forall₂_map_right_iff (f := some), ← List.forall₂_map_left_iff,
    List.forall₂_eq_eq_eq] at hvalues
  have hperm := hc.once.map (Origin.value? nums m.steps.reverse)
  rw [h.read_eq, h.length_taken, Origin.map_value?_all, hvalues,
    List.map_perm_map_iff fun _ _ => Option.some.inj] at hperm
  exact hperm.symm

end Following

end Flow

namespace Machine

theorem feed_sound {m n : Machine} {t : Token} (hm : ∀ s ∈ m.steps, s.Sound)
    (h : m.feed t = .ok n) : ∀ s ∈ n.steps, s.Sound := by
  cases t with
  | num v =>
    cases h
    exact hm
  | op o =>
    obtain ⟨a, b, rest, r, -, he, rfl⟩ := (apply_eq_ok_iff m n o).1 h
    intro s hs
    rcases List.mem_cons.1 hs with rfl | hs
    · exact he
    · exact hm s hs

/-- Every step that is recorded was computed. -/
theorem run_sound {m n : Machine} {ts : List Token} (hm : ∀ s ∈ m.steps, s.Sound)
    (h : m.run ts = .ok n) : ∀ s ∈ n.steps, s.Sound := by
  induction ts generalizing m with
  | nil =>
    cases h
    exact hm
  | cons t ts ih =>
    obtain ⟨m', hm', hrest⟩ := exists_of_run_cons h
    exact ih (feed_sound hm hm') hrest

end Machine

/-- Where the operands of a list go: those that each step takes, and the one that is left. -/
def Token.flow (ts : List Token) : Option Flow := Flow.run {} (postfixOrder ts)

open Token

theorem reduce_ok_run {ts : List Token} {v : Rat} (h : (reduce ts).outcome = .ok v) :
    ∃ m : Machine, Machine.run {} (postfixOrder ts) = .ok m ∧ m.operands = [v] ∧
      (reduce ts).steps = m.steps.reverse := by
  have hts : ts ≠ [] := by
    rintro rfl
    cases h
  rw [reduce_eq_run ts hts] at h ⊢
  cases hr : Machine.run {} (postfixOrder ts) with
  | error e =>
    rw [hr] at h
    cases h
  | ok m =>
    rw [hr] at h
    obtain ⟨rs, ss⟩ := m
    rcases rs with _ | ⟨w, _ | ⟨x, rs⟩⟩ <;> cases h
    exact ⟨_, rfl, rfl, rfl⟩

/-- The operands of all steps are the left ones and the right ones. -/
theorem perm_operands (steps : List Step) :
    (steps.flatMap fun s => [s.left, s.right]) ~ steps.map Step.left ++ steps.map Step.right := by
  have h := List.map_append_flatMap_perm steps Step.left fun s => [s.right]
  rw [← List.map_eq_flatMap] at h
  exact h.symm

/-- A list that has a value, infix or not, is used up. Every line shown is a step that was
computed, and the steps have the operators of the list. The literals and the results of the
steps are together, each as often as it occurs, the left and right operands of the steps and
the value. It is also known which is which: every literal and every result is at one place,
as an operand of a step, for a result a later one, or as the value. This is the last result,
if there is any. -/
theorem reduce_conserves (ts : List Token) (v : Rat) (h : (reduce ts).outcome = .ok v) :
    (∀ s ∈ (reduce ts).steps, s.Sound ∧
        s.text = Numeral.ofRat s.left ++ " " ++ s.op.text ++ " " ++ Numeral.ofRat s.right ++
          " = " ++ Numeral.ofRat s.result) ∧
      (reduce ts).steps.map Step.op ~ ops ts ∧
      nums ts ++ (reduce ts).steps.map Step.result ~
        (reduce ts).steps.map Step.left ++ (reduce ts).steps.map Step.right ++ [v] ∧
      ∃ (f : Flow) (last : Origin), flow ts = some f ∧ f.operands = [last] ∧
        last.value? (nums ts) (reduce ts).steps = some v ∧
        List.Forall₂ (Flow.Feeds (nums ts) (reduce ts).steps) f.taken (reduce ts).steps ∧
        last :: f.used ~ Origin.all (nums ts).length (reduce ts).steps.length ∧
        (∀ i k, f.Takes i k → k < i) ∧
        (∀ k, k + 1 < (reduce ts).steps.length → ∃! i, f.Takes i k) ∧
        (0 < (reduce ts).steps.length → last = .result ((reduce ts).steps.length - 1)) := by
  obtain ⟨m, hr, hv, hsteps⟩ := reduce_ok_run h
  have hsound := Machine.run_sound (m := {}) (by simp) hr
  have hops := Machine.run_ok_steps hr
  obtain ⟨f, hf, hfollows⟩ := Flow.follows_empty.run hr
  have hconserved := Flow.conserved_empty.run hf
  rw [List.nil_append, postfixOrder, nums_postfixFrom] at hfollows
  have hperm := hfollows.perm hconserved
  have honce := hconserved.once
  have hoperands := hfollows.operands
  rw [hv] at hperm hoperands
  obtain ⟨last, rest, hlast, hrest, hleft⟩ := List.forall₂_cons_right_iff.1 hoperands
  cases hrest
  rw [hleft, hfollows.read_eq, hfollows.length_taken] at honce
  rw [hsteps]
  refine ⟨fun s hs => ⟨hsound s (List.mem_reverse.1 hs), s.text_eq⟩, ?_, ?_, f, last, hf, hleft,
    hlast, hfollows.taken, honce, hconserved.later, ?_, ?_⟩
  · rw [hops]
    exact perm_ops_postfixOrder ts
  · exact hperm.trans (((perm_operands _).cons v).trans (List.perm_append_singleton v _).symm)
  · intro k hk
    rw [← hfollows.length_taken] at hk
    apply hconserved.existsUnique_takes hleft (by omega)
    rw [hconserved.last_eq hleft (by omega)]
    intro heq
    cases heq
    omega
  · rw [← hfollows.length_taken]
    exact hconserved.last_eq hleft

/-- Not infix: the `*` takes the second literal and the third, and the `-` the first literal
of the list and the product. The two equal literals are told apart. -/
theorem reduce_conserves_postponed :
    (reduce [.num 2, .num 2, .op .mul, .num 4, .op .sub]).outcome = .ok (-6) ∧
      flow [.num 2, .num 2, .op .mul, .num 4, .op .sub] =
        some ⟨3, [.result 1], [(.literal 1, .literal 2), (.literal 0, .result 0)]⟩ ∧
      [(2 : Rat), 2, 4] ++ [8, -6] ~ [2, 2] ++ [4, 8] ++ [-6] ∧
      [Origin.result 1, .literal 1, .literal 2, .literal 0, .result 0] ~ Origin.all 3 2 := by
  have hout : (reduce [.num 2, .num 2, .op .mul, .num 4, .op .sub]).outcome = .ok (-6) := by
    decide +kernel
  have hsteps : (reduce [.num 2, .num 2, .op .mul, .num 4, .op .sub]).steps =
      [⟨.mul, 2, 4, 8⟩, ⟨.sub, 2, 8, -6⟩] := by
    decide +kernel
  have hflow : flow [.num 2, .num 2, .op .mul, .num 4, .op .sub] =
      some ⟨3, [.result 1], [(.literal 1, .literal 2), (.literal 0, .result 0)]⟩ := by
    decide +kernel
  obtain ⟨-, -, hperm, f, last, hf, hlast, -, -, honce, -⟩ := reduce_conserves _ (-6) hout
  rw [hsteps] at hperm honce
  rw [hflow] at hf
  cases hf
  cases hlast
  exact ⟨hout, hflow, hperm, honce⟩

end ExactCalc
