import Mathlib.Algebra.Group.Int.Defs
import RpcHost.Proofs.Numerals
import RpcHost.Proofs.Runs
import RpcHost.Proofs.Splitting
/-!
How a parameter spells an integer. What is read is the number that the text denotes by a grammar of
blanks, a sign and digits, where it has 64 bits; a text that begins with NUL reads as zero, and any
other as if nothing was there.
-/
namespace RpcHost

namespace Text

variable {c : Char} {cs : List Char} {m : Nat} {n : Int}

inductive Decimal : List Char → Nat → Prop
  | digit {c : Char} (digit : isDigit c = true) : Decimal [c] (digitValue c)
  | snoc {cs : List Char} {n : Nat} {c : Char} (front : Decimal cs n) (digit : isDigit c = true) :
    Decimal (cs ++ [c]) (10 * n + digitValue c)

inductive Signed : List Char → Int → Prop
  | bare {cs : List Char} {n : Nat} (digits : Decimal cs n) : Signed cs n
  | plus {cs : List Char} {n : Nat} (digits : Decimal cs n) : Signed ('+' :: cs) n
  | minus {cs : List Char} {n : Nat} (digits : Decimal cs n) : Signed ('-' :: cs) (-n)

/-- Spaces in front, and nothing behind. -/
inductive Denotes : List Char → Int → Prop
  | bare {cs : List Char} {n : Int} (signed : Signed cs n) : Denotes cs n
  | spaced {c : Char} {cs : List Char} {n : Int} (space : isSpace c = true)
    (rest : Denotes cs n) : Denotes (c :: cs) n

theorem digitsValue_snoc (cs : List Char) (c : Char) :
    digitsValue (cs ++ [c]) = 10 * digitsValue cs + digitValue c := by
  simp [digitsValue]

theorem decimal_iff :
    Decimal cs m ↔ cs ≠ [] ∧ (∀ c ∈ cs, isDigit c = true) ∧ digitsValue cs = m := by
  constructor
  · intro decimal
    induction decimal with
    | digit digit => simpa [digitsValue] using digit
    | @snoc cs n c front digit ih =>
      obtain ⟨_, digits, value⟩ := ih
      refine ⟨by simp, ?_, by rw [digitsValue_snoc, value]⟩
      intro d member
      rcases List.mem_append.1 member with front | last
      · exact digits d front
      · rwa [List.mem_singleton.1 last]
  · rintro ⟨some, digits, rfl⟩
    induction cs using List.reverseRecOn with
    | nil => exact absurd rfl some
    | append_singleton cs c ih =>
      have last : isDigit c = true := digits c (by simp)
      cases cs with
      | nil => simpa [digitsValue] using Decimal.digit last
      | cons first rest =>
        have front := ih (by simp) fun d member => digits d (List.mem_append_left _ member)
        rw [digitsValue_snoc]
        exact front.snoc last

theorem Decimal.all_digits (decimal : Decimal cs m) : ∀ c ∈ cs, isDigit c = true :=
  (decimal_iff.1 decimal).2.1

theorem signed_iff :
    Signed cs n ↔ ∃ m, Decimal (splitSign cs).2 m ∧ n = signed (splitSign cs).1 m := by
  constructor
  · intro spelt
    cases spelt with
    | bare digits =>
      rw [splitSign_digits digits.all_digits]
      exact ⟨_, digits, rfl⟩
    | plus digits => exact ⟨_, digits, rfl⟩
    | minus digits => exact ⟨_, digits, rfl⟩
  · rintro ⟨m, digits, rfl⟩
    unfold splitSign at digits ⊢
    split at digits
    · exact .minus digits
    · exact .plus digits
    · exact .bare digits

theorem Signed.dropWhile_eq (spelt : Signed cs n) : cs.dropWhile isSpace = cs := by
  cases spelt with
  | bare digits =>
    exact dropWhile_of_none fun c member => isSpace_of_isDigit (digits.all_digits c member)
  | plus digits => rfl
  | minus digits => rfl

theorem denotes_iff : Denotes cs n ↔ Signed (cs.dropWhile isSpace) n := by
  constructor
  · intro denotes
    induction denotes with
    | bare spelt => rwa [spelt.dropWhile_eq]
    | spaced space rest ih => rwa [List.dropWhile_cons_of_pos space]
  · induction cs with
    | nil => exact .bare
    | cons c rest ih =>
      intro spelt
      by_cases space : isSpace c = true
      · rw [List.dropWhile_cons_of_pos space] at spelt
        exact .spaced space (ih spelt)
      · rw [List.dropWhile_cons_of_neg space] at spelt
        exact .bare spelt

theorem Denotes.ne_nil (denotes : Denotes cs n) : cs ≠ [] := by
  rintro rfl
  obtain ⟨m, digits, -⟩ := signed_iff.1 (denotes_iff.1 denotes)
  exact (decimal_iff.1 digits).1 rfl

theorem wholeInteger?_iff (some : cs ≠ []) :
    wholeInteger? cs = Option.some n ↔ Denotes cs n ∧ inWord64 n = true := by
  rw [denotes_iff, signed_iff]
  unfold wholeInteger?
  rw [if_neg (by simpa using some)]
  generalize splitSign (cs.dropWhile isSpace) = split
  obtain ⟨negative, digits⟩ := split
  dsimp only
  constructor
  · intro reads
    split at reads
    · rename_i fits
      cases reads
      simp only [Bool.and_eq_true, List.all_eq_true, Bool.not_eq_true',
        List.isEmpty_eq_false_iff] at fits
      obtain ⟨⟨filled, all⟩, word⟩ := fits
      exact ⟨⟨_, decimal_iff.2 ⟨filled, all, rfl⟩, rfl⟩, word⟩
    · cases reads
  · rintro ⟨⟨m, decimal, rfl⟩, word⟩
    obtain ⟨filled, all, rfl⟩ := decimal_iff.1 decimal
    rw [if_pos]
    simpa [filled, word] using all

theorem inWord64_iff : inWord64 n = true ↔ -2 ^ 63 ≤ n ∧ n ≤ 2 ^ 63 - 1 := by
  simp only [inWord64, Bool.and_eq_true, decide_eq_true_eq]
  omega

end Text

namespace Url

variable {u : Url} {key : String} {fallback n : Int}

theorem intValue_of_denotes
    (denotes : Text.Denotes (Text.charsBeforeNul (Text.trimChars (u.param key).toList)) n)
    (word : Text.inWord64 n = true) : u.intValue key fallback = n := by
  have some : Text.trimChars (u.param key).toList ≠ [] := by
    intro none
    exact denotes.ne_nil (by rw [none]; rfl)
  have reads := (Text.wholeInteger?_iff denotes.ne_nil).2 ⟨denotes, word⟩
  simp [intValue, intParam, some, reads]

theorem intValue_of_nul (some : Text.trimChars (u.param key).toList ≠ [])
    (nul : Text.charsBeforeNul (Text.trimChars (u.param key).toList) = []) :
    u.intValue key fallback = 0 := by
  simp [intValue, intParam, some, nul, Text.wholeInteger?]

theorem intValue_of_none
    (none : ∀ n, Text.Denotes (Text.charsBeforeNul (Text.trimChars (u.param key).toList)) n →
      ¬Text.inWord64 n = true)
    (other : Text.charsBeforeNul (Text.trimChars (u.param key).toList) = [] →
      Text.trimChars (u.param key).toList = []) : u.intValue key fallback = fallback := by
  by_cases blank : Text.trimChars (u.param key).toList = []
  · simp [intValue, intParam, blank]
  · have lacks : Text.wholeInteger?
        (Text.charsBeforeNul (Text.trimChars (u.param key).toList)) = Option.none := by
      rw [Option.eq_none_iff_forall_ne_some]
      intro n reads
      obtain ⟨denotes, word⟩ := (Text.wholeInteger?_iff fun nul => blank (other nul)).1 reads
      exact none n denotes word
    simp [intValue, intParam, blank, lacks]

end Url

theorem value_readIntParam (h : Host) (u : UrlRef) (key : String) (fallback : Int) :
    (readIntParam u key fallback).value h = (h.urls.get u).intValue key fallback := by
  simp only [readIntParam, Step.value_bind, value_getUrl, after_getUrl]
  split <;> rfl

open Text in
/-- An integer is read from a parameter as its text spells it up to the first NUL, once the blanks
around it are gone. Nothing in front of a NUL is zero, and a text that spells no number of 64 bits
gives the fallback. So a number that is written down is read back. -/
theorem readIntParam_spells (h : Host) (u : UrlRef) (key : String) (fallback : Int) :
    let value := ((h.urls.get u).param key).toList
    let kept := trimChars value
    let shown := charsBeforeNul kept
    let read := (readIntParam u key fallback).value h
    Trims value kept ∧
      (∀ n, Denotes shown n → -2 ^ 63 ≤ n → n ≤ 2 ^ 63 - 1 → read = n) ∧
      (shown = [] → kept ≠ [] → read = 0) ∧
      ((∀ n, Denotes shown n → ¬(-2 ^ 63 ≤ n ∧ n ≤ 2 ^ 63 - 1)) →
        ¬(shown = [] ∧ kept ≠ []) → read = fallback) ∧
      ∀ n : Int, -2 ^ 63 ≤ n → n ≤ 2 ^ 63 - 1 → (readIntParam u key fallback).value
        ((modifyUrl u fun url => url.putParam key (toString n)).after h) = n := by
  rw [value_readIntParam]
  refine ⟨trims_trimChars _, ?_, ?_, ?_, ?_⟩
  · intro n denotes low high
    exact Url.intValue_of_denotes denotes (inWord64_iff.2 ⟨low, high⟩)
  · intro nul some
    exact Url.intValue_of_nul some nul
  · intro none other
    refine Url.intValue_of_none (fun n denotes word => ?_) fun nul => ?_
    · exact none n denotes (inWord64_iff.1 word)
    · by_contra some
      exact other ⟨nul, some⟩
  · intro n low high
    rw [value_readIntParam, after_modifyUrl]
    simp only [Store.get_modify_self]
    exact Url.intValue_putParam (inWord64_iff.2 ⟨low, high⟩) _ key fallback

/-- A vertical tab is a space in front of a number, and not one behind it. -/
example : (Url.empty.putParam "k" " \x0b+12 ").intValue "k" 7 = 12 ∧
    (Url.empty.putParam "k" "12\x0b").intValue "k" 7 = 7 := by decide

end RpcHost
