/-
Integers, written and read back.

An integer is written as its digits in base ten, with a hyphen in front of a negative one.  That
goes without marks, and its spelling asks for an integer and nothing else: there is no point in it,
no colon, and no zero in front that would make it a number in another base.

The reader gives up on more than `maxDigits` digits, so that is the only condition.
-/
import Mathlib.Data.List.TakeWhile
import Semicolon.Proofs.Yaml.Words
import Semicolon.Yaml.Read

namespace Semicolon.Yaml

namespace Scalar

variable {ds cs : List Char} {a : Char} {n : Nat}

/-- The digits of a natural number, without zeros in front. -/
structure Numeral (ds : List Char) : Prop where
  notEmpty : ds ≠ []
  digits : ∀ a ∈ ds, isDigit a = true
  noZero : ds.head? = some '0' → ds = ['0']

theorem head_toDigits (hn : 0 < n) : (Nat.toDigits 10 n).head? ≠ some '0' := by
  induction n using Nat.strong_induction_on with
  | _ n ih =>
      rcases Nat.lt_or_ge n 10 with hlt | hge
      · have hdigit : ∀ k < 10, 0 < k → Nat.digitChar k ≠ '0' := by decide
        rw [Nat.toDigits_of_lt_base hlt]
        simpa using hdigit n hlt hn
      · rw [Nat.toDigits_of_base_le (by decide) hge, List.head?_append_of_ne_nil _ (by simp)]
        exact ih (n / 10) (by omega) (by omega)

theorem numeral_toDigits (n : Nat) : Numeral (Nat.toDigits 10 n) := by
  refine ⟨by simp, ?_, ?_⟩
  · intro a ha
    have hdigit := Nat.isDigit_of_mem_toDigits (by decide) (by decide) ha
    unfold Char.isDigit at hdigit
    unfold isDigit
    exact hdigit
  · intro hzero
    rcases Nat.eq_zero_or_pos n with rfl | hpos
    · rfl
    · exact absurd hzero (head_toDigits hpos)

/-- A sign that an integer may have in front. -/
def signed (negative : Bool) (ds : List Char) : List Char := if negative then '-' :: ds else ds

namespace Numeral

variable {negative : Bool}

theorem ne_of_not_isDigit (h : Numeral ds) (ha : isDigit a = false) : a ∉ ds := by
  intro hmem
  rw [h.digits a hmem] at ha
  cases ha

/-- The characters of a number are its digits and its sign. -/
theorem mem_signed (h : Numeral ds) (ha : a ∈ signed negative ds) :
    a = '-' ∨ isDigit a = true := by
  cases negative with
  | true =>
      rcases List.mem_cons.mp ha with rfl | ha
      · exact .inl rfl
      · exact .inr (h.digits a ha)
  | false => exact .inr (h.digits a ha)

theorem unsigned_signed (h : Numeral ds) (negative : Bool) :
    unsigned (signed negative ds) = ds := by
  cases negative with
  | true => rfl
  | false =>
      cases ds with
      | nil => rfl
      | cons a ds =>
          have hsign : isSign a = false := by
            have ha := h.digits a (by simp)
            rw [Bool.eq_false_iff]
            intro hsign
            simp [isSign] at hsign
            rcases hsign with rfl | rfl <;> exact absurd ha (by decide)
          show (if isSign a = true then ds else a :: ds) = a :: ds
          rw [hsign]
          rfl

/-! ### The spelling of an integer -/

theorem not_mem_signed (h : Numeral ds) (hsign : a ≠ '-') (ha : isDigit a = false) :
    a ∉ signed negative ds := by
  intro hmem
  rcases h.mem_signed hmem with rfl | hdigit
  · exact hsign rfl
  · rw [ha] at hdigit
    cases hdigit

/-- A word with anything else in it is no number. -/
theorem signed_notMem (h : Numeral ds) (negative : Bool) {words : List String}
    (hwords : words.all (fun w => w.toList.any fun a => a ≠ '-' && !isDigit a) = true) :
    words.any (fun w => w.toList = signed negative ds) = false := by
  rw [List.any_eq_false]
  intro w hw heq
  obtain ⟨a, ha, hother⟩ := List.any_eq_true.mp (List.all_eq_true.mp hwords w hw)
  rw [Bool.and_eq_true, decide_eq_true_eq, Bool.not_eq_true'] at hother
  rw [of_decide_eq_true heq] at ha
  exact h.not_mem_signed hother.1 hother.2 ha

theorem isFloat_signed (h : Numeral ds) : isFloat (signed negative ds) = false := by
  have hpoint : atPoint ds = none := by
    have hdrop : ds.dropWhile (· ≠ '.') = [] := by
      rw [List.dropWhile_eq_nil_iff]
      intro a ha
      rw [decide_eq_true_eq]
      rintro rfl
      exact h.ne_of_not_isDigit (by decide) ha
    unfold atPoint
    rw [hdrop]
  have hbody : [".inf", ".Inf", ".INF"].any (fun w => w.toList = ds) = false :=
    h.signed_notMem false (by decide)
  have hnan : [".nan", ".NaN", ".NAN"].any (fun w => w.toList = signed negative ds) = false :=
    h.signed_notMem negative (by decide)
  have hnone : '.' ∉ signed negative ds := h.not_mem_signed (by decide) (by decide)
  unfold isFloat
  simp only [h.unsigned_signed, hpoint, hnan, hbody]
  cases hcs : signed negative ds with
  | nil => rfl
  | cons b cs =>
      have hb : b ≠ '.' := by
        rintro rfl
        exact hnone (by simp [hcs])
      split
      · rename_i heq
        exact absurd (List.cons.inj heq).1 hb
      · rfl

theorem colonParts_of_not_mem (h : ':' ∉ cs) : colonParts cs = [cs] := by
  induction cs with
  | nil => rfl
  | cons a cs ih =>
      rw [List.mem_cons, not_or] at h
      rw [colonParts, ih h.2]
      exact if_neg fun ha => h.1 ha.symm

theorem isInteger_signed (h : Numeral ds) : isInteger (signed negative ds) = true := by
  unfold isInteger
  rw [h.unsigned_signed]
  cases ds with
  | nil => exact absurd rfl h.notEmpty
  | cons d ds =>
      by_cases hzero : d = '0'
      · have hone := h.noZero (by rw [hzero]; rfl)
        rw [hone]
        rfl
      · have hparts : colonParts (d :: ds) = [d :: ds] :=
          colonParts_of_not_mem (h.ne_of_not_isDigit (by decide))
        have hspaced : isSpacedNumber (d :: ds) = true := by
          rw [isSpacedNumber, h.digits d (by simp), Bool.true_and, List.all_eq_true]
          intro a ha
          rw [isSpaced, h.digits a (by simp [ha]), Bool.true_or]
        split
        · rename_i heq
          exact absurd (List.cons.inj heq).1 hzero
        · rename_i heq
          exact absurd (List.cons.inj heq).1 hzero
        · rename_i heq
          exact absurd (List.cons.inj heq).1 hzero
        · rw [hparts]
          simp [hspaced]

/-- The spelling of an integer asks for an integer. -/
theorem kind_signed (h : Numeral ds) : kind (String.ofList (signed negative ds)) = .integer := by
  have hspelled : spelled (signed negative ds) = signed negative ds := by
    unfold spelled
    rw [if_neg]
    intro hlast
    exact h.not_mem_signed (by decide) (by decide) (List.mem_of_getLast? hlast)
  unfold kind
  simp only [String.toList_ofList, hspelled, isFloat_signed h, isInteger_signed h]
  have hboolean : isBoolean (signed negative ds) = false := h.signed_notMem negative (by decide)
  rw [hboolean]
  rfl

end Numeral

end Scalar

/-! ### An integer goes without marks -/

namespace Print

open Scalar (Numeral isDigit signed)

variable {ds cs : List Char} {a b : Char} {negative : Bool}

theorem isSimple_of_isDigit (ha : isDigit a = true) : isSimple a = true := by
  simp only [isDigit, Bool.and_eq_true, decide_eq_true_eq] at ha
  exact isSimple_of_range (Char.le_trans (by decide) ha.1) (Char.le_trans ha.2 (by decide))

theorem isQuiet_of_not_mem (hcolon : ':' ∉ cs) (hhash : '#' ∉ cs) : isQuiet b cs = true := by
  induction cs generalizing b with
  | nil => rfl
  | cons a cs ih =>
      rw [List.mem_cons, not_or] at hcolon hhash
      rw [isQuiet, ih hcolon.2 hhash.2]
      simp [Ne.symm hcolon.1, Ne.symm hhash.1]

theorem canStart_of_isDigit {next : Option Char} (ha : isDigit a = true) :
    canStart a next = true := by
  have hspecial : "#,[]\x7b\x7d&*!|>'\"%@`?:-".toList.all (fun b => !isDigit b) = true := by
    decide
  have hne : ∀ b ∈ "#,[]\x7b\x7d&*!|>'\"%@`?:-".toList, a ≠ b := by
    rintro b hb rfl
    have hother := List.all_eq_true.mp hspecial a hb
    rw [ha] at hother
    cases hother
  simp only [String.reduceToList, List.forall_mem_cons] at hne
  simp [canStart, hne]

theorem isGap_of_isDigit (ha : isDigit a = true) : isGap (some a) = false := by
  have hgap : ['\x00', ' ', '\t', '\r', '\n', '\u0085', '\u2028', '\u2029'].all
      (fun b => !isDigit b) = true := by decide
  rw [isGap, Option.all_some, List.contains_eq_mem, decide_eq_false_iff_not]
  intro hmem
  have hother := List.all_eq_true.mp hgap a hmem
  rw [ha] at hother
  cases hother

theorem bare_signed (h : Numeral ds) (negative : Bool) : Bare (signed negative ds) := by
  have hspace : ' ' ∉ signed negative ds := h.not_mem_signed (by decide) (by decide)
  have hpoint : '.' ∉ signed negative ds := h.not_mem_signed (by decide) (by decide)
  have hhyphen : '-' ∉ ds := h.ne_of_not_isDigit (by decide)
  refine ⟨?_, ⟨?_, fun htake => ?_⟩, fun hfirst => hspace (List.mem_of_head? hfirst),
    fun hlast => hspace (List.mem_of_getLast? hlast), fun a ha => ⟨?_, ?_⟩⟩
  · have hquiet : ∀ b ds', ds' ⊆ ds → isQuiet b ds' = true := fun b ds' hsub =>
      isQuiet_of_not_mem (fun hmem => h.ne_of_not_isDigit (by decide) (hsub hmem))
        (fun hmem => h.ne_of_not_isDigit (by decide) (hsub hmem))
    obtain ⟨d, ds, rfl⟩ := List.exists_cons_of_ne_nil h.notEmpty
    have hd := h.digits d (by simp)
    cases negative with
    | true =>
        refine ⟨'-', d :: ds, rfl, ?_, hquiet _ _ (List.Subset.refl _)⟩
        rw [List.head?_cons, canStart, isGap_of_isDigit hd]
        rfl
    | false => exact ⟨d, ds, rfl, canStart_of_isDigit hd, hquiet _ _ (List.subset_cons_self _ _)⟩
  · -- A second hyphen would have to be among the digits.
    cases negative with
    | true =>
        intro htake
        have htake' : ds.take 2 = ['-', '-'] := (List.cons.inj htake).2
        exact hhyphen (List.mem_of_mem_take (by rw [htake']; simp))
    | false =>
        intro htake
        exact hhyphen (List.mem_of_mem_take (by rw [show ds.take 3 = _ from htake]; simp))
  · exact hpoint (List.mem_of_mem_take (by rw [htake]; simp))
  · rcases h.mem_signed ha with rfl | hdigit
    · decide
    · exact isSimple_of_isDigit hdigit
  · rintro rfl
    exact h.not_mem_signed (by decide) (by decide) ha

end Print

/-! ### Reading an integer -/

namespace Read

open Scalar (Numeral isDigit signed)

variable {ds cs : List Char} {a : Char}

theorem toNat_of_isDigit (ha : isDigit a = true) : 48 ≤ a.toNat ∧ a.toNat ≤ 57 := by
  simp only [isDigit, Bool.and_eq_true, decide_eq_true_eq] at ha
  exact ha

theorem isBlank_of_isDigit (ha : isDigit a = true) : isBlank a = false := by
  obtain ⟨hlow, -⟩ := toNat_of_isDigit ha
  have hspace : a ≠ ' ' := by
    rintro rfl
    exact absurd hlow (by decide)
  simp [isBlank, hspace]
  omega

theorem trim_of_noBlank (h : ∀ a ∈ cs, isBlank a = false) : trim cs = cs := by
  have hdrop : ∀ cs : List Char, (∀ a ∈ cs, isBlank a = false) → cs.dropWhile isBlank = cs := by
    intro cs h
    cases cs with
    | nil => rfl
    | cons a cs => exact List.dropWhile_cons_of_neg (by simp [h a])
  unfold trim
  rw [hdrop cs h, hdrop cs.reverse (by simpa using h), List.reverse_reverse]

theorem plain_of_digits (h : ∀ a ∈ ds, isDigit a = true) : plain (ds.map .char) = ds := by
  unfold plain
  rw [List.map_map]
  refine List.map_congr_left (g := id) (fun a ha => ?_) |>.trans (List.map_id ds)
  obtain ⟨-, hhigh⟩ := toNat_of_isDigit (h a ha)
  exact if_pos (by omega)

theorem integerIn_numeral (h : Numeral ds) (hlength : ds.length ≤ maxDigits) :
    integerIn 10 (ds.map .char) = .ok (Scalar.number 10 ds) := by
  have htrim : trim (plain (ds.map .char)) = ds := by
    rw [plain_of_digits h.digits]
    exact trim_of_noBlank fun a ha => isBlank_of_isDigit (h.digits a ha)
  have hunsigned : Scalar.unsigned ds = ds := h.unsigned_signed false
  have hunmarked : unmarked 10 ds = ds := by
    unfold unmarked
    rfl
  have htake : ds.takeWhile (isDigitOf 10) = ds := by
    rw [List.takeWhile_eq_self_iff]
    intro a ha
    have hdigit := h.digits a ha
    obtain ⟨-, hhigh⟩ := toNat_of_isDigit hdigit
    rw [isDigitOf, hdigit, Bool.or_eq_true]
    exact .inl (by simp; omega)
  have hhead : ds.head? ≠ some '-' := fun hhead =>
    h.ne_of_not_isDigit (by decide) (List.mem_of_head? hhead)
  have hne : ds.isEmpty = false := by simpa using h.notEmpty
  unfold integerIn
  simp only [htrim, hunsigned, hunmarked, htake]
  rw [if_neg (by simpa using hlength), if_neg (by simp [hne]), if_neg hhead]

theorem unspaced_of_not_mem (h : '_' ∉ cs) : unspaced (cs.map .char) = cs.map .char := by
  unfold unspaced
  rw [List.filter_eq_self]
  intro l hl
  obtain ⟨a, ha, rfl⟩ := List.mem_map.mp hl
  rw [decide_eq_true_eq, ne_eq, Letter.char.injEq]
  rintro rfl
  exact h ha

theorem unsigned_signed (h : Numeral ds) (negative : Bool) :
    unsigned ((signed negative ds).map .char) = ds.map .char := by
  cases negative with
  | true => rfl
  | false =>
      cases ds with
      | nil => rfl
      | cons a ds =>
          have hplain : Scalar.unsigned (a :: ds) = a :: ds := h.unsigned_signed false
          have hsign : ¬Scalar.isSign a = true := by
            intro hsign
            rw [Scalar.unsigned, if_pos hsign] at hplain
            exact absurd hplain (by simp)
          exact if_neg hsign

theorem isNegative_signed (h : Numeral ds) (negative : Bool) :
    isNegative ((signed negative ds).map .char) = negative := by
  cases negative with
  | true => rfl
  | false =>
      have hhead : (ds.map Letter.char).head? ≠ some (.char '-') := by
        intro hhead
        obtain ⟨a, ha, heq⟩ := List.mem_map.mp (List.mem_of_head? hhead)
        cases heq
        exact h.ne_of_not_isDigit (by decide) ha
      exact decide_eq_false hhead

/-- **An integer reads back**, if it has no more digits than an integer may have. -/
theorem integer_signed (h : Numeral ds) (hlength : ds.length ≤ maxDigits) (negative : Bool) :
    integer ((signed negative ds).map .char) =
      .ok (if negative then -(Scalar.number 10 ds : Int) else Scalar.number 10 ds) := by
  have hspaced : '_' ∉ signed negative ds := h.not_mem_signed (by decide) (by decide)
  have hunspaced := unspaced_of_not_mem hspaced
  have hread := integerIn_numeral h hlength
  unfold integer
  simp only [hunspaced, isNegative_signed h, unsigned_signed h]
  cases ds with
  | nil => exact absurd rfl h.notEmpty
  | cons d ds =>
      -- A zero in front stands alone, or it would mean another base.
      by_cases hzero : d = '0'
      · have hone := h.noZero (by rw [hzero]; rfl)
        rw [hone]
        cases negative <;> rfl
      · have hcolon : ((d :: ds).map Letter.char).contains (.char ':') = false := by
          have hmem : ':' ∉ d :: ds := h.ne_of_not_isDigit (by decide)
          simpa using hmem
        have hfirst : ∀ rest, (d :: ds).map Letter.char ≠ .char '0' :: rest := by
          intro rest heq
          exact hzero (Letter.char.inj (List.cons.inj heq).1)
        split
        · rename_i heq
          cases heq
        · rename_i heq
          exact absurd heq (hfirst _)
        · rename_i heq
          exact absurd heq (hfirst _)
        · rename_i heq
          exact absurd heq (hfirst _)
        · rename_i heq
          exact absurd heq (hfirst _)
        · rw [hcolon, hread]
          cases negative <;> rfl

end Read

/-! ### The text of an integer -/

open Scalar (signed numeral_toDigits)

theorem toList_toString (n : Int) :
    (toString n).toList = signed (n < 0) (Nat.toDigits 10 n.natAbs) := by
  cases n with
  | ofNat n =>
      have hpos : ¬(Int.ofNat n < 0) := Int.not_lt.mpr (Int.natCast_nonneg n)
      rw [decide_eq_false hpos]
      show (toString n).toList = Nat.toDigits 10 n
      rw [Nat.toString_eq_ofList_toDigits, String.toList_ofList]
  | negSucc n =>
      rw [decide_eq_true (Int.negSucc_lt_zero n)]
      show ("-" ++ toString (n + 1)).toList = '-' :: Nat.toDigits 10 (n + 1)
      rw [Nat.toString_eq_ofList_toDigits]
      simp

theorem Print.bare_toString (n : Int) : Bare (toString n).toList := by
  rw [toList_toString]
  exact bare_signed (numeral_toDigits _) _

theorem Print.noSpace_toString (n : Int) : ' ' ∉ (toString n).toList := by
  rw [toList_toString]
  exact (numeral_toDigits _).not_mem_signed (by decide) (by decide)

theorem Scalar.kind_toString (n : Int) : kind (toString n) = .integer := by
  rw [← String.ofList_toList (s := toString n), toList_toString]
  exact (numeral_toDigits _).kind_signed

theorem Read.integer_toString {n : Int} (hn : n.natAbs < Nat.pow 10 maxDigits) :
    integer (Letter.ofText (toString n)) = .ok n := by
  have hdigits : ∀ k, 0 < k → n.natAbs < Nat.pow 10 k →
      (Nat.toDigits 10 n.natAbs).length ≤ k := fun k hk hlt =>
    (Nat.length_toDigits_le_iff (by decide) hk).mpr hlt
  have hlength := hdigits maxDigits (by decide) hn
  have hnumber : Scalar.number 10 ((Nat.toDigits 10 n.natAbs).map id) = n.natAbs :=
    Scalar.number_toDigits (by decide) (by decide) n.natAbs
  rw [List.map_id] at hnumber
  rw [Letter.ofText, toList_toString, integer_signed (numeral_toDigits _) hlength, hnumber]
  by_cases hneg : n < 0
  · rw [if_pos (decide_eq_true hneg)]
    congr 1
    omega
  · rw [if_neg (by simpa using hneg)]
    congr 1
    omega

end Semicolon.Yaml
