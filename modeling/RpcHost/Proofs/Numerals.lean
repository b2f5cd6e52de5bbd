import Mathlib.Data.List.TakeWhile
import RpcHost.Url.Basic
/-!
Whole numbers as texts. A number of 64 bits that is written down is read back, also where an
address carries it as a parameter, and no other number is ever read.
-/
namespace RpcHost

namespace Text

variable {c : Char} {cs : List Char} {n : Int}

theorem isDigit_of_mem_toDigits {n : Nat} (member : c ∈ Nat.toDigits 10 n) : isDigit c = true :=
  Nat.isDigit_of_mem_toDigits (by decide) (by decide) member

theorem digitsValue_toDigits (n : Nat) : digitsValue (Nat.toDigits 10 n) = n :=
  Nat.ofDigitChars_toDigits (by decide) (by decide)

theorem toList_ofNat (n : Nat) : (toString (Int.ofNat n)).toList = Nat.toDigits 10 n :=
  Nat.toList_repr

theorem toList_negSucc (n : Nat) :
    (toString (Int.negSucc n)).toList = '-' :: Nat.toDigits 10 (n + 1) := by
  show ("-" ++ (n + 1).repr).toList = _
  simp [Nat.toList_repr]

theorem mem_toString (member : c ∈ (toString n).toList) : c = '-' ∨ isDigit c = true := by
  cases n with
  | ofNat m =>
    rw [toList_ofNat] at member
    exact .inr (isDigit_of_mem_toDigits member)
  | negSucc m =>
    rw [toList_negSucc] at member
    exact (List.mem_cons.1 member).imp id isDigit_of_mem_toDigits

theorem toString_ne_nil (n : Int) : (toString n).toList ≠ [] := by
  cases n with
  | ofNat m =>
    rw [toList_ofNat]
    exact Nat.toDigits_ne_nil
  | negSucc m =>
    rw [toList_negSucc]
    exact List.cons_ne_nil _ _

theorem dropWhile_of_none {p : Char → Bool} (none : ∀ c ∈ cs, p c = false) :
    cs.dropWhile p = cs :=
  List.dropWhile_eq_self_iff.2 fun some => by simp [none _ (List.getElem_mem some)]

theorem isSpace_of_isDigit (digit : isDigit c = true) : isSpace c = false := by
  rw [Bool.eq_false_iff]
  intro space
  simp only [isSpace, Bool.or_eq_true, beq_iff_eq, or_assoc] at space
  rcases space with rfl | rfl | rfl | rfl | rfl | rfl <;> cases digit

theorem splitSign_digits (digits : ∀ c ∈ cs, isDigit c = true) : splitSign cs = (false, cs) := by
  unfold splitSign
  split
  · cases digits '-' List.mem_cons_self
  · cases digits '+' List.mem_cons_self
  · rfl

theorem wholeInteger?_toString (word : inWord64 n = true) :
    wholeInteger? (toString n).toList = some n := by
  have digit (m : Nat) : ∀ c ∈ Nat.toDigits 10 m, isDigit c = true :=
    fun c member => isDigit_of_mem_toDigits member
  have digits (m : Nat) : (Nat.toDigits 10 m).all isDigit = true := List.all_eq_true.2 (digit m)
  have some_digit (m : Nat) : (Nat.toDigits 10 m).isEmpty = false := by
    simp [Nat.toDigits_ne_nil]
  unfold wholeInteger?
  cases n with
  | ofNat m =>
    have bare : (Nat.toDigits 10 m).dropWhile isSpace = Nat.toDigits 10 m :=
      dropWhile_of_none fun c member => isSpace_of_isDigit (digit m c member)
    rw [toList_ofNat, some_digit, bare, splitSign_digits (digit m)]
    have word : inWord64 (m : Int) = true := word
    have same : signed false m = (m : Int) := rfl
    simp [digitsValue_toDigits, Nat.toDigits_ne_nil, digits, same, word]
  | negSucc m =>
    rw [toList_negSucc]
    have same : signed true (m + 1) = Int.negSucc m := rfl
    have bare (cs : List Char) : ('-' :: cs).dropWhile isSpace = '-' :: cs := rfl
    simp [bare, splitSign, digitsValue_toDigits, Nat.toDigits_ne_nil, digits, same, word]

theorem inWord64_of_wholeInteger? (reads : wholeInteger? cs = some n) : inWord64 n = true := by
  unfold wholeInteger? at reads
  split at reads
  · cases reads
    rfl
  · dsimp only at reads
    split at reads
    · rename_i fits
      cases reads
      simp only [Bool.and_eq_true] at fits
      exact fits.2
    · cases reads

theorem trimChars_toString (n : Int) : trimChars (toString n).toList = (toString n).toList := by
  have plain : ∀ c ∈ (toString n).toList, isBlank c = false := by
    intro c member
    rw [Bool.eq_false_iff]
    intro blank
    simp only [isBlank, Bool.or_eq_true, beq_iff_eq, or_assoc] at blank
    rcases mem_toString member with same | digit
    · subst same
      revert blank
      decide
    · rcases blank with rfl | rfl | rfl | rfl <;> cases digit
  have backwards : ∀ c ∈ (toString n).toList.reverse, isBlank c = false :=
    fun c member => plain c (List.mem_reverse.1 member)
  unfold trimChars trimEnd
  rw [dropWhile_of_none plain, dropWhile_of_none backwards, List.reverse_reverse]

theorem charsBeforeNul_toString (n : Int) :
    charsBeforeNul (toString n).toList = (toString n).toList := by
  refine List.takeWhile_eq_self_iff.2 fun c member => ?_
  rw [bne_iff_ne]
  rintro rfl
  rcases mem_toString member with same | digit
  · cases same
  · cases digit

end Text

namespace Url

variable {n : Int} {u : Url} {key : String} {fallback : Int}

theorem inWord64_intValue (u : Url) (key : String) (fallback : Int)
    (word : Text.inWord64 fallback = true) : Text.inWord64 (u.intValue key fallback) = true := by
  unfold intValue
  cases reads : u.intParam key with
  | whole n =>
    unfold intParam at reads
    dsimp only at reads
    split at reads
    · cases reads
    · split at reads
      · rename_i whole
        cases reads
        exact Text.inWord64_of_wholeInteger? whole
      · cases reads
  | _ => exact word

theorem intValue_putParam (word : Text.inWord64 n = true) (u : Url) (key : String)
    (fallback : Int) : (u.putParam key (toString n)).intValue key fallback = n := by
  have text : (u.putParam key (toString n)).param key = toString n :=
    u.paramOr_putParam_self key (toString n) ""
  unfold intValue intParam
  have written : (toString n).toList.isEmpty = false :=
    List.isEmpty_eq_false_iff.2 (Text.toString_ne_nil n)
  dsimp only
  rw [text, Text.trimChars_toString, Text.charsBeforeNul_toString, Text.wholeInteger?_toString word,
    written]
  rfl

theorem exists_intValue_iff (key : String) (n : Int) :
    (∃ u : Url, u.intValue key 0 = n) ↔ Text.inWord64 n = true := by
  constructor
  · rintro ⟨u, rfl⟩
    exact u.inWord64_intValue key 0 rfl
  · intro word
    exact ⟨_, intValue_putParam word empty key 0⟩

end Url

end RpcHost
