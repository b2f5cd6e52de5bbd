import RpcHost.Proofs.Operands
import RpcHost.Proofs.Spelling
import RpcHost.Url.Reading
/-!
Which port a value gives. An integral value gives itself, if it has 32 bits. Any other scalar gives
the integer that its text begins with, all digits of it, or zero where it begins with none.
-/
namespace RpcHost

namespace Text

variable {c : Char} {cs front rest : List Char} {n : Int}

def EndsDigits (rest : List Char) : Prop := ∀ c ∈ rest.head?, isDigit c = false

inductive Leads : List Char → Int → Prop
  | number {front rest : List Char} {n : Int} (denotes : Denotes front n)
    (ends : EndsDigits rest) : Leads (front ++ rest) n
  | nothing {cs : List Char} (none : ∀ front, front <+: cs → ∀ n, ¬Denotes front n) : Leads cs 0

/-- The digits behind the spaces and the sign in front. -/
def leadingDigits (cs : List Char) : List Char :=
  (splitSign (cs.dropWhile isSpace)).2.takeWhile isDigit

theorem EndsDigits.takeWhile_eq (ends : EndsDigits rest) : rest.takeWhile isDigit = [] := by
  cases rest with
  | nil => rfl
  | cons c rest =>
    have other : isDigit c = false := ends c rfl
    simp [other]

theorem endsDigits_dropWhile (cs : List Char) : EndsDigits (cs.dropWhile isDigit) := by
  intro c first
  have other := List.head?_dropWhile_not isDigit cs
  rw [Option.mem_def.1 first] at other
  simpa using other

theorem Decimal.takeWhile_append {m : Nat} (decimal : Decimal front m) (rest : List Char) :
    (front ++ rest).takeWhile isDigit = front ++ rest.takeWhile isDigit :=
  List.takeWhile_append_of_pos decimal.all_digits

theorem Decimal.splitSign_append {m : Nat} (decimal : Decimal front m) (rest : List Char) :
    splitSign ((front ++ rest).dropWhile isSpace) = (false, front ++ rest) := by
  have digits := decimal.all_digits
  cases front with
  | nil => exact absurd rfl (decimal_iff.1 decimal).1
  | cons c front =>
    have digit : isDigit c = true := digits c (by simp)
    have space : isSpace c = false := isSpace_of_isDigit digit
    simp only [List.cons_append, List.dropWhile_cons, space]
    unfold splitSign
    split
    · simp_all [isDigit]
    · simp_all [isDigit]
    · rfl

theorem Denotes.splitSign_append (denotes : Denotes front n) (rest : List Char) :
    ∃ negative digits m,
      splitSign ((front ++ rest).dropWhile isSpace) = (negative, digits ++ rest) ∧
      Decimal digits m ∧ n = signed negative m := by
  -- on the spaces before the number
  induction denotes with
  | bare spelt =>
    cases spelt with
    | bare digits => exact ⟨false, _, _, digits.splitSign_append rest, digits, rfl⟩
    | plus digits => exact ⟨false, _, _, rfl, digits, rfl⟩
    | minus digits => exact ⟨true, _, _, rfl, digits, rfl⟩
  | spaced space _ ih =>
    rw [List.cons_append, List.dropWhile_cons_of_pos space]
    exact ih

theorem Denotes.leadingDigits_ne_nil (denotes : Denotes front n) (rest : List Char) :
    leadingDigits (front ++ rest) ≠ [] := by
  obtain ⟨negative, digits, m, splits, decimal, -⟩ := denotes.splitSign_append rest
  have some := (decimal_iff.1 decimal).1
  unfold leadingDigits
  rw [splits, decimal.takeWhile_append]
  simp [some]

theorem Denotes.leadingInteger_append (denotes : Denotes front n) (ends : EndsDigits rest) :
    leadingInteger (front ++ rest) = n := by
  obtain ⟨negative, digits, m, splits, decimal, rfl⟩ := denotes.splitSign_append rest
  obtain ⟨-, -, value⟩ := decimal_iff.1 decimal
  unfold leadingInteger
  simp only [splits, decimal.takeWhile_append, ends.takeWhile_eq, List.append_nil, value]

theorem Denotes.after_spaces {spaces : List Char} (all : ∀ c ∈ spaces, isSpace c = true)
    (denotes : Denotes cs n) : Denotes (spaces ++ cs) n := by
  induction spaces with
  | nil => exact denotes
  | cons c spaces ih =>
    simp only [List.forall_mem_cons] at all
    exact .spaced all.1 (ih all.2)

theorem exists_denotes (some : leadingDigits cs ≠ []) :
    ∃ front rest n, cs = front ++ rest ∧ Denotes front n ∧ EndsDigits rest := by
  have spaces : ∀ c ∈ cs.takeWhile isSpace, isSpace c = true := by
    intro c member
    exact List.mem_takeWhile_imp member
  have whole : cs = cs.takeWhile isSpace ++ cs.dropWhile isSpace :=
    (List.takeWhile_append_dropWhile).symm
  have decimal (digits : List Char) (some : digits.takeWhile isDigit ≠ []) :
      Decimal (digits.takeWhile isDigit) (digitsValue (digits.takeWhile isDigit)) :=
    decimal_iff.2 ⟨some, fun c member => List.mem_takeWhile_imp member, rfl⟩
  have split (digits : List Char) :
      digits = digits.takeWhile isDigit ++ digits.dropWhile isDigit :=
    (List.takeWhile_append_dropWhile).symm
  have begun (sign : List Char) {digits : List Char} {number : Int}
      (body : cs.dropWhile isSpace = sign ++ digits)
      (spelt : Signed (sign ++ digits.takeWhile isDigit) number) :
      ∃ front rest n, cs = front ++ rest ∧ Denotes front n ∧ EndsDigits rest := by
    refine ⟨cs.takeWhile isSpace ++ (sign ++ digits.takeWhile isDigit), digits.dropWhile isDigit,
      number, ?_, .after_spaces spaces (.bare spelt), endsDigits_dropWhile digits⟩
    rw [List.append_assoc, List.append_assoc, ← split, ← body, ← whole]
  unfold leadingDigits splitSign at some
  split at some
  · rename_i digits body
    exact begun ['-'] body (.minus (decimal digits some))
  · rename_i digits body
    exact begun ['+'] body (.plus (decimal digits some))
  · exact begun [] rfl (.bare (decimal _ some))

theorem leads_iff : Leads cs n ↔ leadingInteger cs = n := by
  have zero (none : leadingDigits cs = []) : leadingInteger cs = 0 := by
    show signed _ (digitsValue (leadingDigits cs)) = 0
    rw [none]
    unfold signed
    split <;> rfl
  constructor
  · intro leads
    cases leads with
    | number denotes ends => exact denotes.leadingInteger_append ends
    | nothing none =>
      apply zero
      by_contra some
      obtain ⟨front, rest, m, rfl, denotes, -⟩ := exists_denotes some
      exact none front (List.prefix_append front rest) m denotes
  · rintro rfl
    by_cases none : leadingDigits cs = []
    · rw [zero none]
      apply Leads.nothing
      rintro front ⟨rest, rfl⟩ m denotes
      exact denotes.leadingDigits_ne_nil rest none
    · obtain ⟨front, rest, m, rfl, denotes, ends⟩ := exists_denotes none
      rw [denotes.leadingInteger_append ends]
      exact .number denotes ends

theorem leads_toString (word : inWord64 n = true) :
    Leads (charsBeforeNul (toString n).toList) n := by
  have some : (toString n).toList ≠ [] := toString_ne_nil n
  have denotes : Denotes (toString n).toList n :=
    ((wholeInteger?_iff some).1 (wholeInteger?_toString word)).1
  rw [charsBeforeNul_toString, ← List.append_nil (toString n).toList]
  apply Leads.number denotes
  intro c first
  cases first

end Text

namespace Json

variable {v : Json} {n : Int}

def OutOfRange (v : Json) : Prop :=
  v.isIntegral = true ∧ ∃ n, v.wholeNumber? = some n ∧ ¬(minInt32 ≤ n ∧ n ≤ maxInt32)

/-- The port that a value gives. What a text gives is said as far as its number has 32 bits. -/
structure GivesPort (v : Json) (port : Int) : Prop where
  whole : v.isIntegral = true → v.wholeNumber? = some port
  text : v.isIntegral = false → ∃ s n, v.text? = some s ∧
    Text.Leads (Text.charsBeforeNul s.toList) n ∧
    (minInt32 ≤ n ∧ n ≤ maxInt32 → port = n)

theorem int32?_eq_none_iff (integral : v.isIntegral = true) :
    v.int32? = none ↔ v.OutOfRange := by
  obtain ⟨n, whole⟩ := wholeNumber?_of_isIntegral integral
  have out_iff : v.OutOfRange ↔ ¬Calculator.Fits n := by
    unfold OutOfRange Calculator.Fits
    simp [integral, whole]
  rw [int32?_of_whole whole, out_iff]
  simp

end Json

namespace Url

variable {v : Json} {n : Int}

theorem portOf?_eq_some (reads : portOf? v = some n) : v.GivesPort n := by
  unfold portOf? at reads
  constructor
  · intro integral
    obtain ⟨m, whole⟩ := Json.wholeNumber?_of_isIntegral integral
    rw [if_pos integral, Json.int32?_of_whole whole] at reads
    simp only [Option.ite_none_right_eq_some] at reads
    exact whole.trans reads.2
  · intro other
    simp only [other, Bool.false_eq_true, if_false] at reads
    obtain ⟨s, text, leads⟩ := Option.map_eq_some_iff.1 reads
    exact ⟨s, n, text, Text.leads_iff.2 leads, fun _ => rfl⟩

theorem portOf?_of_fits {port : Json} (fits : Calculator.Fits n)
    (given : port = .int n ∨ port = .str (toString n)) : portOf? port = some n := by
  rcases given with rfl | rfl
  · show (Json.int n).int32? = some n
    exact if_pos fits
  · have word : Text.inWord64 n = true := by
      obtain ⟨low, high⟩ := fits
      unfold Json.minInt32 at low
      unfold Json.maxInt32 at high
      rw [Text.inWord64_iff]
      omega
    have leads := Text.leads_iff.1 (Text.leads_toString word)
    show some (Text.leadingInteger _) = some n
    rw [leads]

end Url

end RpcHost
