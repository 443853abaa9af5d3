import ExactCalc.Proofs.ExactText
import ExactCalc.Session
import Mathlib.Logic.Function.Basic

/-!
# What is shown can be read back

The signs `-` and `/` stand for operators and also inside literals, and nothing but spaces and
line ends parts the words. The texts are unambiguous all the same. No word holds a separator,
so a text falls apart into the words it was made of. A word is an operator if it is a sign
alone; any other is a literal, and its tokens tell the value. So one reader gets the tokens
and the steps of an evaluation back from what is shown of it.
-/

set_option autoImplicit false

namespace ExactCalc

section Joined

variable {α : Type} {write : α → String} {read : String → Option α}

theorem injective_of_read (h : ∀ a, read (write a) = some a) : Function.Injective write := by
  intro a b hab
  have hread := congrArg read hab
  rw [h, h] at hread
  exact Option.some.inj hread

/-- The parts of a text between separators. -/
def words (sep : Char) (text : String) : List String :=
  (text.toList.splitOn sep).map String.ofList

theorem words_intercalate {sep : Char} {ws : List String} (hne : ws ≠ [])
    (h : ∀ w ∈ ws, sep ∉ w.toList) : words sep ((String.singleton sep).intercalate ws) = ws := by
  have hsep : ∀ cs ∈ ws.map String.toList, sep ∉ cs := by
    simpa using h
  rw [words, String.toList_intercalate, String.toList_singleton,
    List.splitOn_intercalate sep hsep (by simpa using hne), List.map_map]
  simp

/-- Reads every part of a text by itself. The text without any character has no parts. -/
def readAll (sep : Char) (read : String → Option α) (text : String) : Option (List α) :=
  if text = "" then some [] else (words sep text).mapM read

theorem mapM_read (h : ∀ a, read (write a) = some a) (as : List α) :
    (as.map write).mapM read = some as := by
  induction as with
  | nil => rfl
  | cons a as ih => simp [List.mapM_cons, h, ih]

theorem readAll_intercalate {sep : Char} (h : ∀ a, read (write a) = some a)
    (hsep : ∀ a, sep ∉ (write a).toList) (hnone : read "" = none) (as : List α) :
    readAll sep read ((String.singleton sep).intercalate (as.map write)) = some as := by
  cases as with
  | nil => rfl
  | cons a as =>
    have hwords : words sep ((String.singleton sep).intercalate ((a :: as).map write)) =
        (a :: as).map write := by
      apply words_intercalate (by simp)
      simpa using ⟨hsep a, fun b _ => hsep b⟩
    have hne : (String.singleton sep).intercalate ((a :: as).map write) ≠ "" := by
      -- the one part of the empty text is empty, but nothing is written so
      intro hempty
      rw [hempty] at hwords
      have hfirst : write a = "" := by simpa [words] using (congrArg List.head? hwords).symm
      have hread := h a
      rw [hfirst, hnone] at hread
      cases hread
    rw [readAll, if_neg hne, hwords, mapM_read h]

end Joined

namespace Numeral

/-- The value of an exact text, from its tokens. -/
def ofTokens? : List Token → Option Rat
  | [.num p] => some p
  | [.op .sub, .num p] => some (-p)
  | [.num p, .op .div, .num q] => some (p / q)
  | [.op .sub, .num p, .op .div, .num q] => some (-p / q)
  | _ => none

theorem ofTokens?_tokens (r : Rat) : ofTokens? (tokens r) = some r := by
  rcases lt_or_ge r 0 with hneg | hpos
  · have hnum : -((r.num.natAbs : Nat) : Rat) = r.num := by
      have hopposite := natAbs_num_of_nonneg (neg_nonneg.2 hneg.le)
      rw [Rat.num_neg_eq_neg_num, Int.natAbs_neg, Int.cast_neg] at hopposite
      rw [hopposite, neg_neg]
    rw [tokens, if_pos hneg]
    split
    · rename_i hden
      exact congrArg some (hnum.trans (Rat.coe_int_num_of_den_eq_one hden))
    · exact congrArg some ((congrArg (· / (r.den : Rat)) hnum).trans r.num_div_den)
  · rw [tokens, if_neg (not_lt.2 hpos), natAbs_num_of_nonneg hpos]
    split
    · rename_i hden
      exact congrArg some (Rat.coe_int_num_of_den_eq_one hden)
    · exact congrArg some r.num_div_den

def read? (text : String) : Option Rat := (scan .strict text).toOption.bind ofTokens?

theorem read?_ofRat (r : Rat) : read? (ofRat r) = some r := by
  rw [read?, scan_ofRat]
  exact ofTokens?_tokens r

end Numeral

namespace Token

/-- The token that a word is written for: a literal, or an operator if it is a sign alone. -/
def read? (word : String) : Option Token :=
  match Numeral.read? word, scan .strict word with
  | some r, _ => some (.num r)
  | none, .ok [.op o] => some (.op o)
  | none, _ => none

theorem read?_text (t : Token) : read? t.text = some t := by
  cases t with
  | num r =>
    have hread : Numeral.read? (Token.num r).text = some r := Numeral.read?_ofRat r
    rw [read?, hread]
  | op o =>
    have hscan : scan .strict (Token.op o).text = .ok [.op o] :=
      scan_texts .strict (by simp [Typable]) (.singleton _) (by simp)
    rw [read?, Numeral.read?, hscan]
    cases o <;> rfl

/-- A token is written with digits and signs. -/
theorem digit_or_symbol_of_typable {t : Token} (ht : t.Typable) :
    ∀ c ∈ t.text.toList, c.isDigit = true ∨ ∃ o : Op, c = o.symbol := by
  intro c hc
  cases t with
  | num r =>
    obtain ⟨n, rfl⟩ := ht
    rw [text_natCast, Numeral.toList_ofNat] at hc
    exact .inl (Numeral.isDigit_of_mem_toDigits hc)
  | op o => exact .inr ⟨o, by simpa [text, Op.text] using hc⟩

theorem digit_or_symbol (t : Token) :
    ∀ c ∈ t.text.toList, c.isDigit = true ∨ ∃ o : Op, c = o.symbol := by
  cases t with
  | num r =>
    intro c hc
    rw [text, Numeral.toList_ofRat] at hc
    obtain ⟨u, hu, hc⟩ := List.mem_flatMap.1 hc
    exact digit_or_symbol_of_typable (Numeral.typable_tokens r u hu) c hc
  | op o => exact digit_or_symbol_of_typable trivial

theorem not_mem_text {c : Char} (hdigit : c.isDigit = false) (hsymbol : ∀ o : Op, c ≠ o.symbol)
    (t : Token) : c ∉ t.text.toList := by
  intro h
  rcases t.digit_or_symbol c h with hd | ⟨o, ho⟩
  · rw [hdigit] at hd
    cases hd
  · exact hsymbol o ho

theorem space_not_mem_text (t : Token) : ' ' ∉ t.text.toList :=
  t.not_mem_text rfl (by rintro (_ | _ | _ | _) <;> decide)

theorem newline_not_mem_text (t : Token) : '\n' ∉ t.text.toList :=
  t.not_mem_text rfl (by rintro (_ | _ | _ | _) <;> decide)

def readList? (text : String) : Option (List Token) := readAll ' ' read? text

theorem readList?_listText (ts : List Token) : readList? (listText ts) = some ts :=
  readAll_intercalate read?_text space_not_mem_text (by decide +kernel) ts

end Token

/-- What a line of working holds. In operator position any token may stand. -/
structure Line where
  op : Token
  left : Rat
  right : Rat
  result : Rat
  deriving DecidableEq, Repr

namespace Line

def text (l : Line) : String := l.op.lineText l.left l.right l.result

def read? (text : String) : Option Line :=
  match words ' ' text with
  | [a, t, b, e, r] =>
    if e = "=" then
      (Token.read? t).bind fun op =>
        (Numeral.read? a).bind fun left =>
          (Numeral.read? b).bind fun right =>
            (Numeral.read? r).map fun result => ⟨op, left, right, result⟩
    else none
  | _ => none

/-- A line is five words. -/
theorem text_eq (l : Line) :
    l.text = " ".intercalate
      [Numeral.ofRat l.left, l.op.text, Numeral.ofRat l.right, "=", Numeral.ofRat l.result] := by
  apply String.toList_injective
  simp [text, Token.lineText, String.intercalate_cons_cons]

theorem read?_text (l : Line) : read? l.text = some l := by
  have hwords : words ' ' l.text =
      [Numeral.ofRat l.left, l.op.text, Numeral.ofRat l.right, "=", Numeral.ofRat l.result] := by
    rw [text_eq]
    apply words_intercalate (by simp)
    have hrat : ∀ r, ' ' ∉ (Numeral.ofRat r).toList := fun r => (Token.num r).space_not_mem_text
    simp [hrat, l.op.space_not_mem_text]
  simp [read?, hwords, Token.read?_text, Numeral.read?_ofRat]

theorem newline_not_mem_text (l : Line) : '\n' ∉ l.text.toList := by
  have hrat : ∀ r, '\n' ∉ (Numeral.ofRat r).toList := fun r => (Token.num r).newline_not_mem_text
  simp [text, Token.lineText, hrat, l.op.newline_not_mem_text]

/-- Lines as they are shown, one below the other. -/
def listText (ls : List Line) : String := "\n".intercalate (ls.map text)

def readList? (text : String) : Option (List Line) := readAll '\n' read? text

theorem readList?_listText (ls : List Line) : readList? (listText ls) = some ls :=
  readAll_intercalate read?_text newline_not_mem_text (by decide +kernel) ls

def ofStep (s : Step) : Line := ⟨.op s.op, s.left, s.right, s.result⟩

theorem ofStep_injective : Function.Injective ofStep := by
  rintro ⟨o, a, b, r⟩ ⟨o', a', b', r'⟩ h
  simpa [ofStep] using h

theorem listText_ofStep (ss : List Step) :
    listText (ss.map ofStep) = "\n".intercalate (ss.map Step.text) := by
  rw [listText, List.map_map]
  rfl

end Line

/-- The tokens and the lines that two texts are written for. -/
def readShown? (tokens lines : String) : Option (List Token × List Line) :=
  (Token.readList? tokens).bind fun ts => (Line.readList? lines).map fun ls => (ts, ls)

theorem readShown?_listText (ts : List Token) (ls : List Line) :
    readShown? (Token.listText ts) (Line.listText ls) = some (ts, ls) := by
  simp [readShown?, Token.readList?_listText, Line.readList?_listText]

/-- Texts tell what they were written for: rationals, token lists with any literals, lines
of working and lists of such lines, also where the lines are those of steps. One reader gets
the tokens and the lines back from their texts, and so the tokens and the steps of every
evaluation from what is shown of it. -/
theorem texts_unambiguous :
    Function.Injective Numeral.ofRat ∧ Function.Injective Token.listText ∧
      (∀ (t u : Token) (a b r a' b' r' : Rat), t.lineText a b r = u.lineText a' b' r' →
        t = u ∧ a = a' ∧ b = b' ∧ r = r') ∧
      Function.Injective (fun ls : List Line =>
        "\n".intercalate (ls.map fun l => l.op.lineText l.left l.right l.result)) ∧
      Function.Injective (fun ss : List Step => "\n".intercalate (ss.map Step.text)) ∧
      (∀ (ts : List Token) (ls : List Line),
        readShown? (Token.listText ts) (Line.listText ls) = some (ts, ls)) ∧
      ∀ e : Evaluation,
        readShown? (Display.derivation e).working.tokens (Display.derivation e).working.steps =
          some (e.tokens, e.steps.map Line.ofStep) := by
  have hlines : Function.Injective Line.listText := injective_of_read Line.readList?_listText
  refine ⟨injective_of_read Numeral.read?_ofRat, injective_of_read Token.readList?_listText, ?_,
    hlines, ?_, readShown?_listText, ?_⟩
  · intro t u a b r a' b' r' h
    have hline : (⟨t, a, b, r⟩ : Line) = ⟨u, a', b', r'⟩ := injective_of_read Line.read?_text h
    simpa using hline
  · intro ss us h
    apply List.map_injective_iff.2 Line.ofStep_injective
    apply hlines
    rw [Line.listText_ofStep, Line.listText_ofStep]
    exact h
  · intro e
    have hsteps : (Display.derivation e).working.steps = Line.listText (e.steps.map Line.ofStep) :=
      (Line.listText_ofStep e.steps).symm
    rw [hsteps]
    exact readShown?_listText e.tokens _

/-- A negative literal is not an operator and a literal, and a fraction is not a division. -/
theorem texts_unambiguous_signs :
    Token.listText [.num (-3)] ≠ Token.listText [.op .sub, .num 3] ∧
      Token.listText [.num (7 / 2)] ≠ Token.listText [.num 7, .op .div, .num 2] ∧
      readShown? "-3 - 7/2" "7 / 2 = 7/2\n7/2 - 7/2 = 0" =
        some ([.num (-3), .op .sub, .num (7 / 2)],
          [⟨.op .div, 7, 2, 7 / 2⟩, ⟨.op .sub, 7 / 2, 7 / 2, 0⟩]) := by
  obtain ⟨-, htokens, -, -, -, hread, -⟩ := texts_unambiguous
  have hshown := hread [.num (-3), .op .sub, .num (7 / 2)]
    [⟨.op .div, 7, 2, 7 / 2⟩, ⟨.op .sub, 7 / 2, 7 / 2, 0⟩]
  have htext : Token.listText [.num (-3), .op .sub, .num (7 / 2)] = "-3 - 7/2" := by
    decide +kernel
  have hlines : Line.listText [⟨.op .div, 7, 2, 7 / 2⟩, ⟨.op .sub, 7 / 2, 7 / 2, 0⟩] =
      "7 / 2 = 7/2\n7/2 - 7/2 = 0" := by
    decide +kernel
  rw [htext, hlines] at hshown
  refine ⟨fun h => ?_, fun h => ?_, hshown⟩
  · cases htokens h
  · exact absurd (congrArg List.length (htokens h)) (by decide)

end ExactCalc
