import ExactCalc.Evaluation
import ExactCalc.Proofs.Scanning

/-!
# The two policies agree

The policies differ only in what they refuse. To the lenient policy every character that is
neither a digit nor an operator is as good as a space, whichever it is. The strict policy
refuses a line at the first character that is not white space either, and reads any other
line as the lenient one does.
-/

set_option autoImplicit false

namespace ExactCalc

namespace Scan

/-- The characters that tokens are spelled with. -/
def isTokenChar (c : Char) : Bool := c.isDigit || ['+', '-', '*', '/'].contains c

/-- A character that is neither part of a token nor white space. -/
def Foreign (c : Char) : Prop := isTokenChar c = false ∧ Text.isBlank c = false

/-- A space in the place of a character that is no part of a token. -/
def cleanChar (c : Char) : Char := if isTokenChar c then c else ' '

def clean (line : String) : String := line.map cleanChar

theorem isTokenChar_eq (c : Char) : isTokenChar c = (c.isDigit || (Op.ofChar? c).isSome) := by
  have hop : ['+', '-', '*', '/'].contains c = (Op.ofChar? c).isSome := by
    unfold Op.ofChar?
    split <;> simp_all
  rw [isTokenChar, hop]

theorem read_of_not_isTokenChar (s : Scan) {c : Char} (h : isTokenChar c = false) :
    s.read c = ⟨s.position + 1, s.closed, none⟩ := by
  rw [isTokenChar_eq, Bool.or_eq_false_iff, Option.isSome_eq_false_iff, Option.isNone_iff_eq_none]
    at h
  simp [read, h.1, h.2]

theorem read_cleanChar (s : Scan) (c : Char) : s.read (cleanChar c) = s.read c := by
  unfold cleanChar
  cases h : isTokenChar c with
  | true => rfl
  | false =>
    rw [read_of_not_isTokenChar s h]
    exact read_space s

theorem readAll_cleanChar (s : Scan) (cs : List Char) :
    s.readAll (cs.map cleanChar) = s.readAll cs := by
  induction cs generalizing s with
  | nil => rfl
  | cons c cs ih =>
    rw [List.map_cons, readAll_cons, read_cleanChar, readAll_cons, ih]

end Scan

theorem Policy.lenient_accepts (c : Char) : Policy.lenient.accepts c = true := by
  simp [accepts, admits]

theorem Policy.strict_accepts_eq_false_iff (c : Char) :
    Policy.strict.accepts c = false ↔ Scan.Foreign c := by
  rw [Scan.Foreign, Scan.isTokenChar_eq, accepts, Bool.or_eq_false_iff]
  rfl

theorem Policy.strict_accepts_iff (c : Char) :
    Policy.strict.accepts c = true ↔ ¬ Scan.Foreign c := by
  rw [← strict_accepts_eq_false_iff, Bool.not_eq_false]

theorem scan_lenient (line : String) :
    scan .lenient line = .ok (Scan.readAll {} line.toList).result :=
  scan_of_accepts fun c _ => Policy.lenient_accepts c

theorem scan_lenient_clean (line : String) :
    scan .lenient (Scan.clean line) = scan .lenient line := by
  rw [scan_lenient, scan_lenient, Scan.clean, String.toList_map, Scan.readAll_cleanChar]

theorem scan_refuses_iff (p : Policy) (line : String) :
    (∃ c k, scan p line = .error (.invalidToken c k)) ↔
      ∃ c ∈ line.toList, p.accepts c = false := by
  have hok := scan_isOk_iff p line
  constructor
  · rintro ⟨c, k, h⟩
    obtain ⟨hk, hc, -⟩ := (scan_eq_invalidToken_iff p line c k).1 h
    exact ⟨c, List.mem_of_getElem? hk, hc⟩
  · rintro ⟨c, hmem, hc⟩
    cases hs : scan p line with
    | error e =>
      obtain ⟨as, d, bs, -, -, -, rfl⟩ := (scan_eq_error_iff p line e).1 hs
      exact ⟨d, as.length, rfl⟩
    | ok ts =>
      have hall := hok.1 ⟨ts, hs⟩ c hmem
      rw [hc] at hall
      cases hall

/-- A line that the strict policy does not refuse has the same tokens under both. -/
theorem scan_strict_eq_lenient {line : String}
    (h : ∀ c k, scan .strict line ≠ .error (.invalidToken c k)) :
    scan .strict line = scan .lenient line := by
  have haccepts : ∀ c ∈ line.toList, Policy.strict.accepts c = true := by
    intro c hc
    cases ha : Policy.strict.accepts c with
    | true => rfl
    | false =>
      obtain ⟨d, k, hd⟩ := (scan_refuses_iff .strict line).2 ⟨c, hc, ha⟩
      exact absurd hd (h d k)
  rw [scan_of_accepts haccepts, scan_lenient]

theorem scan_eq_of_not_refused {line : String}
    (h : ∀ c k, scan .strict line ≠ .error (.invalidToken c k)) (p q : Policy) :
    scan p line = scan q line := by
  have hall : ∀ r : Policy, scan r line = scan .lenient line := by
    intro r
    cases r with
    | lenient => rfl
    | strict => exact scan_strict_eq_lenient h
  rw [hall p, hall q]

/-- The lenient policy takes any line, and takes it as if its foreign characters were
spaces. The strict policy refuses a line exactly if it has a character that is neither a
digit nor an operator nor white space, and names the first one with its index. A line that
it does not refuse has the same tokens under both policies, and so the same evaluation:
value, steps or failure. -/
theorem scan_policies_agree (line : String) :
    (∃ ts, scan .lenient line = .ok ts ∧ scan .lenient (Scan.clean line) = .ok ts) ∧
      ((∃ c k, scan .strict line = .error (.invalidToken c k)) ↔
        ∃ c ∈ line.toList, Scan.Foreign c) ∧
      (∀ c k, scan .strict line = .error (.invalidToken c k) ↔
        line.toList[k]? = some c ∧ Scan.Foreign c ∧
          ∀ d ∈ line.toList.take k, ¬ Scan.Foreign d) ∧
      ((∀ c k, scan .strict line ≠ .error (.invalidToken c k)) →
        scan .strict line = scan .lenient line ∧
          ∀ s t : Settings,
            evaluate t line = (evaluate s line).map fun e => { e with settings := t }) := by
  refine ⟨⟨_, scan_lenient line, ?_⟩, ?_, fun c k => ?_,
    fun h => ⟨scan_strict_eq_lenient h, fun s t => ?_⟩⟩
  · rw [scan_lenient_clean, scan_lenient]
  · rw [scan_refuses_iff]
    simp only [Policy.strict_accepts_eq_false_iff]
  · rw [scan_eq_invalidToken_iff]
    simp only [Policy.strict_accepts_eq_false_iff, Policy.strict_accepts_iff]
  · exact evaluate_of_scan_eq (scan_eq_of_not_refused h s.policy t.policy)

/-- An ideographic space is white space, an Arabic digit is not, and it is no ASCII digit:
the first line is refused at its fifth character, the second one means the same to both. -/
theorem scan_policies_agree_foreign :
    scan .strict "1\u3000+ ٣2" = .error (.invalidToken '٣' 4) ∧
      scan .lenient "1\u3000+ ٣2" = scan .lenient "1 +  2" ∧
      scan .strict "12\u3000/ 8" = scan .lenient "12\u3000/ 8" ∧
      evaluate .strict "12\u3000/ 8" =
        (evaluate .standard "12\u3000/ 8").map fun e => { e with settings := .strict } := by
  obtain ⟨⟨ts, hts, hclean⟩, -, hrefused, -⟩ := scan_policies_agree "1\u3000+ ٣2"
  obtain ⟨-, hiff, -, hsame⟩ := scan_policies_agree "12\u3000/ 8"
  have hhead : ∀ c ∈ "1\u3000+ ٣2".toList.take 4, ¬ Scan.Foreign c := fun c hc =>
    (Policy.strict_accepts_iff c).1 (List.all_eq_true.1 (by decide) c hc)
  have hall : ∀ c ∈ "12\u3000/ 8".toList, ¬ Scan.Foreign c := fun c hc =>
    (Policy.strict_accepts_iff c).1 (List.all_eq_true.1 (by decide) c hc)
  have hnot : ∀ c k, scan .strict "12\u3000/ 8" ≠ .error (.invalidToken c k) := by
    intro c k h
    obtain ⟨d, hd, hf⟩ := hiff.1 ⟨c, k, h⟩
    exact hall d hd hf
  refine ⟨(hrefused _ _).2 ⟨by decide, ⟨by decide, by decide⟩, hhead⟩, ?_,
    (hsame hnot).1, (hsame hnot).2 .standard .strict⟩
  have hblank : Scan.clean "1\u3000+ ٣2" = "1 +  2" := by decide +kernel
  rw [hts, ← hclean, hblank]

end ExactCalc
