import SinosLang.Text.Case
import SinosLang.Text.Class
import Mathlib

/-!
# Words in lower case

The names of commands and formats are compared in lower case. Of the characters that have the letters
of these names as their lower case, all are ASCII letters: the Kelvin sign, which becomes a `k`, is
the only other character that becomes an ASCII letter alone, and no name has a `k` in it.

Main statement: `isIdentifierStart_of_mem_lower`.
-/

set_option autoImplicit false

namespace SinosLang.Text

variable {c : Char} {before text form letters : Text}

/-- What a character becomes in lower case at some place of a text. -/
inductive Lowers (c : Char) : Text → Prop
  | plain : c ≠ 'Σ' → Lowers c (lowerChar c)
  | sigma : c = 'Σ' → Lowers c ['σ']
  | final : c = 'Σ' → Lowers c ['ς']

/-- Each character of a text becomes a part of the lower case of the text. -/
theorem exists_lowers (isIn : c ∈ text) (before : Text) :
    ∃ form, Lowers c form ∧ ∀ d ∈ form, d ∈ lowerAfter before text := by
  induction text generalizing before with
  | nil => exact absurd isIn List.not_mem_nil
  | cons first rest ih =>
    rw [lowerAfter]
    rcases List.mem_cons.mp isIn with rfl | behind
    · have shape (form : Text) : ∀ d ∈ form, d ∈ form ++ lowerAfter (c :: before) rest :=
        fun d isIn => List.mem_append_left _ isIn
      split
      next isSigma =>
        split
        · exact ⟨_, .final (eq_of_beq isSigma), shape _⟩
        · exact ⟨_, .sigma (eq_of_beq isSigma), shape _⟩
      next isOther => exact ⟨_, .plain (fun same => isOther (beq_iff_eq.mpr same)), shape _⟩
    · obtain ⟨form, lowers, within⟩ := ih behind (first :: before)
      exact ⟨form, lowers, fun d isIn => List.mem_append_right _ (within d isIn)⟩

/-- The ASCII letters in lower case, without the one that the Kelvin sign becomes. -/
def plainLetters : Text :=
  "abcdefghijlmnopqrstuvwxyz".toList

/-- The plain letters are ASCII characters behind the capital ones. -/
theorem bounds_of_mem_plainLetters (isPlain : c ∈ plainLetters) : 0x61 ≤ c.toNat ∧ c.toNat < 0x80 := by
  have letters : plainLetters.all (fun d => 0x61 ≤ d.toNat && d.toNat < 0x80) = true := by decide
  have bounds := List.all_eq_true.mp letters c isPlain
  rwa [Bool.and_eq_true, decide_eq_true_eq, decide_eq_true_eq] at bounds

/-- The table sends no character to a plain letter. -/
theorem not_mem_plainLetters_of_run {run : CaseRun} {code target : Nat} (isRun : run ∈ lowerRuns)
    (reaches : run.target? code = some target) : Char.ofNat target ∉ plainLetters := by
  have far : ∀ run ∈ lowerRuns, 0x80 ≤ run.first + run.shift ∨
      run.first = run.last ∧ run.first + run.shift = 0x6b := by decide +kernel
  unfold CaseRun.target? at reaches
  split at reaches
  next within =>
    obtain rfl := Option.some.inj reaches
    simp only [Bool.and_eq_true, decide_eq_true_eq] at within
    rcases far run isRun with isFar | ⟨single, isKelvin⟩
    · intro isPlain
      have bounds := bounds_of_mem_plainLetters isPlain
      rw [Char.toNat_ofNat] at bounds
      split at bounds <;> omega
    · have same : (code + run.shift).toNat = 0x6b := by omega
      rw [same]
      decide
  next => cases reaches

/-- Only ASCII letters become plain letters. -/
theorem isIdentifierStart_of_lowers (lowers : Lowers c form)
    (isPlain : ∀ d ∈ form, d ∈ plainLetters) : isIdentifierStart c = true := by
  cases lowers with
  | sigma | final =>
    have outside := isPlain _ (List.mem_singleton_self _)
    exact absurd outside (by decide)
  | plain =>
    unfold lowerChar at isPlain
    split at isPlain
    next ascii =>
      have letters : ∀ code < 0x80, (Char.ofNat code).toLower ∈ plainLetters →
          isIdentifierStart (Char.ofNat code) = true := by decide +kernel
      have known := letters c.toNat ascii
      rw [Char.ofNat_toNat] at known
      exact known (isPlain _ (List.mem_singleton_self _))
    next beyond =>
      split at isPlain
      · have outside := isPlain '\u0307' (by decide)
        exact absurd outside (by decide)
      · split at isPlain
        next target found =>
          obtain ⟨run, isRun, reaches⟩ := List.exists_of_findSome?_eq_some found
          have outside := not_mem_plainLetters_of_run isRun reaches
          exact absurd (isPlain _ (List.mem_singleton_self _)) outside
        next =>
          have bounds := bounds_of_mem_plainLetters (isPlain _ (List.mem_singleton_self _))
          omega

/-- A text whose lower case has plain letters only consists of ASCII letters. -/
theorem isIdentifierStart_of_mem_lower (isPlain : ∀ d ∈ lower text, d ∈ plainLetters) :
    ∀ c ∈ text, isIdentifierStart c = true := by
  intro c isIn
  obtain ⟨form, lowers, within⟩ := exists_lowers isIn []
  exact isIdentifierStart_of_lowers lowers fun d isForm => isPlain d (within d isForm)

end SinosLang.Text
