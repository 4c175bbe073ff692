/-
# Texts that differ in the case of letters

Two characters are the same letter if they are equal or the two cases of an `ASCII` letter. A
function of characters that gives the same for both cases is `Caseless`; it has to be checked on the
`ASCII` characters alone. The case mappings of texts are caseless too, although a capital sigma is
mapped by its surroundings, since these are told by caseless classes.
-/

import MiniSql.Proofs.Grammar.Scan

namespace MiniSql
namespace Text

variable {α : Type}

/-- The same character, or the two cases of an `ASCII` letter. -/
def SameLetter (c c' : Char) : Prop := c.toLower = c'.toLower

/-- Texts that differ in the case of `ASCII` letters only. -/
def SameLetters (s s' : List Char) : Prop := s.map Char.toLower = s'.map Char.toLower

instance (s s' : List Char) : Decidable (SameLetters s s') := inferInstanceAs (Decidable (_ = _))

/-- The function does not tell the cases of an `ASCII` letter apart. -/
def Caseless (f : Char → α) : Prop := ∀ c, f c.toLower = f c

/-- Only ASCII letters have a lowercase form here. -/
theorem toLower_of_not_ascii {c : Char} (h : ¬c.toNat < 128) : c.toLower = c := by
  unfold Char.toLower
  split
  · rename_i hupper
    exact absurd (Nat.lt_of_le_of_lt (UInt32.le_iff_toNat_le.1 hupper.2) (by decide)) h
  · rfl

/-- A function is caseless if it is on the ASCII characters. -/
theorem caseless_of_ascii {f : Char → α}
    (h : ∀ n < 128, f (Char.ofNat n).toLower = f (Char.ofNat n)) : Caseless f := by
  intro c
  by_cases hc : c.toNat < 128
  · exact Grammar.forall_ascii (p := fun c => f c.toLower = f c) h hc
  · rw [toLower_of_not_ascii hc]

/-- A caseless function gives the same for the same letter. -/
theorem Caseless.eq {f : Char → α} (hf : Caseless f) {c c' : Char} (h : SameLetter c c') :
    f c = f c' := by
  rw [← hf c, ← hf c', h]

/-! ## Classes of characters -/

/-- Being a digit is caseless. -/
theorem caseless_isDigit : Caseless Char.isDigit := caseless_of_ascii (by decide)

/-- Beginning a word is caseless. -/
theorem caseless_isWordStart : Caseless isWordStart := caseless_of_ascii (by decide)

/-- Standing in a word is caseless. -/
theorem caseless_isWordPart : Caseless isWordPart := caseless_of_ascii (by decide)

/-- Being white space is caseless. -/
theorem caseless_isBlank : Caseless isBlank := caseless_of_ascii (by decide)

/-- Having a case is caseless. -/
theorem caseless_isCased : Caseless isCased := caseless_of_ascii (by decide)

/-- Being ignored where cases are told is caseless. -/
theorem caseless_isCaseIgnorable : Caseless isCaseIgnorable := caseless_of_ascii (by decide)

/-- A character that starts no word is the same letter as no other one. -/
theorem eq_of_sameLetter {c c' : Char} (h : SameLetter c c') (hc : isWordStart c = false) :
    c' = c := by
  have hf : Caseless fun c => if isWordStart c then none else some c :=
    caseless_of_ascii (by decide)
  have heq := hf.eq h
  rw [hc, ← caseless_isWordStart.eq h, hc] at heq
  exact (Option.some.inj heq).symm

/-- Texts without letters are the same only if they are equal. -/
theorem eq_of_sameLetters {s s' : List Char} (h : SameLetters s s')
    (hs : ∀ c ∈ s, isWordStart c = false) : s' = s := by
  induction s generalizing s' with
  | nil => exact List.map_eq_nil_iff.1 h.symm
  | cons c s ih =>
    obtain ⟨c', t, rfl, hc, ht⟩ := List.map_eq_cons_iff.1 h.symm
    rw [eq_of_sameLetter hc.symm (hs c (by simp)), ih ht.symm fun d hd => hs d (by simp [hd])]

/-! ## The case mappings -/

/-- The uppercase of a character is caseless. -/
theorem caseless_upperChar : Caseless upperChar := caseless_of_ascii (by decide)

/-- The lowercase of a character is caseless. -/
theorem caseless_lowerChar : Caseless lowerChar := caseless_of_ascii (by decide)

/-- Whether a cased letter follows does not depend on its case. -/
theorem nextIsCased_map (s : List Char) : nextIsCased (s.map Char.toLower) = nextIsCased s := by
  have hignorable : isCaseIgnorable ∘ Char.toLower = isCaseIgnorable :=
    funext caseless_isCaseIgnorable
  have hcased : (fun c => isCased (Char.toLower c)) = isCased := funext caseless_isCased
  unfold nextIsCased
  rw [List.dropWhile_map, hignorable, List.head?_map, Option.any_map, hcased]

/-- The lowercase of a text does not depend on the case of its letters. -/
theorem lowerFrom_map (before s : List Char) :
    lowerFrom (before.map Char.toLower) (s.map Char.toLower) = lowerFrom before s := by
  induction s generalizing before with
  | nil => rfl
  | cons c s ih =>
    have hsigma : Caseless (· == capitalSigma) := caseless_of_ascii (by decide)
    have hc : c.toLower = capitalSigma ↔ c = capitalSigma :=
      beq_iff_eq.symm.trans ((Bool.eq_iff_iff.1 (hsigma c)).trans beq_iff_eq)
    have hrest := ih (c :: before)
    rw [List.map_cons] at hrest
    simp only [List.map_cons, lowerFrom, hc, nextIsCased_map, caseless_lowerChar c, hrest]

/-- The uppercase of a text does not depend on the case of its letters. -/
theorem flatMap_upperChar_map (s : List Char) :
    (s.map Char.toLower).flatMap upperChar = s.flatMap upperChar := by
  rw [List.flatMap_map]
  exact congrArg s.flatMap (funext caseless_upperChar)

/-- **Both case mappings** give the same for texts that differ in the case of letters. -/
theorem lower_eq_of_sameLetters {s s' : List Char} (h : SameLetters s s') :
    lower (String.ofList s) = lower (String.ofList s') := by
  simp only [lower, String.toList_ofList]
  rw [← lowerFrom_map [] s, ← lowerFrom_map [] s', h]

/-- **Texts of the same letters have the same uppercase.** -/
theorem upper_eq_of_sameLetters {s s' : List Char} (h : SameLetters s s') :
    upper (String.ofList s) = upper (String.ofList s') := by
  simp only [upper, String.toList_ofList]
  rw [← flatMap_upperChar_map s, ← flatMap_upperChar_map s', h]

end Text
end MiniSql
