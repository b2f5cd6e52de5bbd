import Mathlib.Data.List.Infix
import Mathlib.Data.List.TakeWhile
import Mathlib.Data.Nat.Find
import RpcHost.Text.Blank
/-!
Splitting a text at a separator. A scan looks for the separator from where the last occurrence
ended, and what it passes over are the pieces; trimmed, and without the blank ones, these are the
items. Nothing here looks inside a character, so a text can as well be taken byte by byte.
-/
namespace RpcHost.Text

variable {sep cs kept after : List Char} {parts : List (List Char)} {start pos : Nat}
  {spans others : List (Nat × Nat)}

/-- Neither begins nor ends with a blank. -/
structure Tidy (cs : List Char) : Prop where
  begins : ∀ c ∈ cs.head?, isBlank c = false
  ends : ∀ c ∈ cs.getLast?, isBlank c = false

structure Trims (cs kept : List Char) : Prop where
  around : ∃ before after, cs = before ++ kept ++ after ∧
    (∀ c ∈ before, isBlank c = true) ∧ ∀ c ∈ after, isBlank c = true
  tidy : Tidy kept

theorem dropWhile_of_begins (begins : ∀ c ∈ cs.head?, isBlank c = false) :
    cs.dropWhile isBlank = cs := by
  cases cs with
  | nil => rfl
  | cons c rest => simp [begins c rfl]

theorem begins_dropWhile (cs : List Char) :
    ∀ c ∈ (cs.dropWhile isBlank).head?, isBlank c = false := by
  intro c member
  have kept := List.head?_dropWhile_not isBlank cs
  rwa [Option.mem_def.1 member] at kept

theorem trimEnd_append (blank : ∀ c ∈ after, isBlank c = true) (cs : List Char) :
    trimEnd (cs ++ after) = trimEnd cs := by
  unfold trimEnd
  rw [List.reverse_append, List.dropWhile_append_of_pos]
  intro c member
  exact blank c (List.mem_reverse.1 member)

theorem trimEnd_of_ends (ends : ∀ c ∈ cs.getLast?, isBlank c = false) : trimEnd cs = cs := by
  unfold trimEnd
  rw [dropWhile_of_begins, List.reverse_reverse]
  rwa [List.head?_reverse]

theorem trimEnd_around (cs : List Char) :
    ∃ after, cs = trimEnd cs ++ after ∧ ∀ c ∈ after, isBlank c = true := by
  refine ⟨(cs.reverse.takeWhile isBlank).reverse, ?_, ?_⟩
  · rw [trimEnd, ← List.reverse_append, List.takeWhile_append_dropWhile, List.reverse_reverse]
  · intro c member
    exact List.mem_takeWhile_imp (List.mem_reverse.1 member)

theorem trims_trimChars (cs : List Char) : Trims cs (trimChars cs) := by
  obtain ⟨after, rest, blankAfter⟩ := trimEnd_around (cs.dropWhile isBlank)
  constructor
  · refine ⟨cs.takeWhile isBlank, after, ?_, fun c => List.mem_takeWhile_imp, blankAfter⟩
    rw [trimChars, List.append_assoc, ← rest, List.takeWhile_append_dropWhile]
  · constructor
    · intro c member
      refine begins_dropWhile cs c ?_
      rw [rest, List.head?_append]
      simp only [trimChars, Option.mem_def] at member
      simp [member]
    · intro c member
      rw [trimChars, trimEnd, List.getLast?_reverse] at member
      exact begins_dropWhile _ c member

theorem Trims.trimChars_eq (trims : Trims cs kept) : trimChars cs = kept := by
  obtain ⟨⟨before, after, rfl, blankBefore, blankAfter⟩, begins, ends⟩ := trims
  unfold trimChars
  rw [List.append_assoc, List.dropWhile_append_of_pos blankBefore]
  cases kept with
  | nil =>
    rw [List.nil_append, List.dropWhile_eq_nil_iff.2 blankAfter]
    rfl
  | cons c rest =>
    rw [dropWhile_of_begins, trimEnd_append blankAfter, trimEnd_of_ends ends]
    simpa using begins

/-- `sep` stands at `pos`, and at no place from `start` up to there. -/
structure Finds (sep cs : List Char) (start pos : Nat) : Prop where
  later : start ≤ pos
  here : sep <+: cs.drop pos
  first : ∀ i, start ≤ i → i < pos → ¬sep <+: cs.drop i

def Misses (sep cs : List Char) (start : Nat) : Prop := ∀ i, start ≤ i → ¬sep <+: cs.drop i

/-- The spans that a scan passes over from `start` on. After each it goes on behind the separator,
and it is over when that is behind the end. -/
inductive Scan (sep cs : List Char) : Nat → List (Nat × Nat) → Prop
  | ended {start : Nat} (outside : cs.length < start) : Scan sep cs start []
  | cut {start pos : Nat} {spans : List (Nat × Nat)} (inside : start ≤ cs.length)
    (finds : Finds sep cs start pos) (rest : Scan sep cs (pos + sep.length) spans) :
    Scan sep cs start ((start, pos) :: spans)
  | last {start : Nat} {spans : List (Nat × Nat)} (inside : start ≤ cs.length)
    (misses : Misses sep cs start) (rest : Scan sep cs (cs.length + sep.length) spans) :
    Scan sep cs start ((start, cs.length) :: spans)

def slice (cs : List Char) (span : Nat × Nat) : List Char :=
  (cs.drop span.1).take (span.2 - span.1)

theorem finds_or_misses (sep cs : List Char) (start : Nat) :
    (∃ pos, Finds sep cs start pos) ∨ Misses sep cs start := by
  classical
  by_cases found : ∃ i, start ≤ i ∧ sep <+: cs.drop i
  · obtain ⟨later, here⟩ := Nat.find_spec found
    refine Or.inl ⟨Nat.find found, later, here, ?_⟩
    intro i reached early stands
    exact Nat.find_min found early ⟨reached, stands⟩
  · refine Or.inr ?_
    intro i reached stands
    exact found ⟨i, reached, stands⟩

theorem Finds.inside (finds : Finds sep cs start pos) (nonempty : sep ≠ []) :
    pos + sep.length ≤ cs.length := by
  have fits := finds.here.length_le
  have some := List.length_pos_of_ne_nil nonempty
  rw [List.length_drop] at fits
  omega

theorem Finds.unique {other : Nat} (finds : Finds sep cs start pos)
    (finds' : Finds sep cs start other) : pos = other := by
  rcases Nat.lt_trichotomy pos other with early | same | late
  · exact absurd finds.here (finds'.first pos finds.later early)
  · exact same
  · exact absurd finds'.here (finds.first other finds'.later late)

theorem Finds.not_misses (finds : Finds sep cs start pos) : ¬Misses sep cs start := by
  intro misses
  exact misses pos finds.later finds.here

/-- Each step goes further, so that a scan ends. -/
theorem exists_scan (nonempty : sep ≠ []) (cs : List Char) (start : Nat) :
    ∃ spans, Scan sep cs start spans := by
  have some := List.length_pos_of_ne_nil nonempty
  -- on what is ahead; the place right behind the text counts, as a scan may still stand there
  induction left : cs.length + 1 - start using Nat.strong_induction_on generalizing start with
  | h left ih =>
    by_cases inside : start ≤ cs.length
    · rcases finds_or_misses sep cs start with ⟨pos, finds⟩ | misses
      · have later := finds.later
        obtain ⟨spans, rest⟩ := ih _ (by omega) (pos + sep.length) rfl
        exact ⟨_, .cut inside finds rest⟩
      · obtain ⟨spans, rest⟩ := ih _ (by omega) (cs.length + sep.length) rfl
        exact ⟨_, .last inside misses rest⟩
    · exact ⟨[], .ended (by omega)⟩

namespace Scan

theorem unique (scan : Scan sep cs start spans) (scan' : Scan sep cs start others) :
    spans = others := by
  -- from one start there is one next cut, or none
  induction scan generalizing others with
  | ended outside =>
    cases scan' with
    | ended => rfl
    | cut inside => omega
    | last inside => omega
  | cut inside finds rest ih =>
    cases scan' with
    | ended outside => omega
    | cut _ finds' rest' =>
      obtain rfl := finds.unique finds'
      rw [ih rest']
    | last _ misses => exact absurd misses finds.not_misses
  | last inside misses rest ih =>
    cases scan' with
    | ended outside => omega
    | cut _ finds => exact absurd misses finds.not_misses
    | last _ _ rest' => rw [ih rest']

theorem within (scan : Scan sep cs start spans) (nonempty : sep ≠ []) :
    ∀ span ∈ spans, span.1 ≤ span.2 ∧ span.2 ≤ cs.length := by
  induction scan with
  | ended => simp
  | cut inside finds rest ih =>
    have later := finds.later
    have fits := finds.inside nonempty
    intro span member
    rcases List.mem_cons.1 member with rfl | behind
    · exact ⟨later, by omega⟩
    · exact ih span behind
  | last inside misses rest ih =>
    intro span member
    rcases List.mem_cons.1 member with rfl | behind
    · exact ⟨inside, Nat.le_refl _⟩
    · exact ih span behind

end Scan

theorem cutsFrom_eq (sep : List Char) (skip : Nat) (cs : List Char) :
    cutsFrom sep skip cs = cuts sep (cs.drop skip) := by
  induction cs generalizing skip with
  | nil => simp [cuts, cutsFrom]
  | cons c rest ih =>
    cases skip with
    | zero => rfl
    | succ skip => exact ih skip

theorem cuts_here (nonempty : sep ≠ []) (here : sep <+: cs) :
    cuts sep cs = [] :: cuts sep (cs.drop sep.length) := by
  obtain ⟨first, more, rfl⟩ := List.exists_cons_of_ne_nil nonempty
  cases cs with
  | nil => simp at here
  | cons c rest =>
    have stands := List.isPrefixOf_iff_prefix.2 here
    rw [cuts, cutsFrom, if_pos stands, cutsFrom_eq]
    rfl

theorem cuts_cons (elsewhere : ¬sep <+: c :: cs) :
    cuts sep (c :: cs) = extendFirst c (cuts sep cs) := by
  rw [cuts, cutsFrom, if_neg (mt List.isPrefixOf_iff_prefix.1 elsewhere)]
  rfl

theorem cuts_found (nonempty : sep ≠ []) (here : sep <+: cs.drop pos)
    (first : ∀ i < pos, ¬sep <+: cs.drop i) :
    cuts sep cs = cs.take pos :: cuts sep (cs.drop (pos + sep.length)) := by
  induction pos generalizing cs with
  | zero => simpa using cuts_here nonempty here
  | succ pos ih =>
    cases cs with
    | nil => exact absurd (List.prefix_nil.1 here) nonempty
    | cons c rest =>
      have behind := ih here fun i early => first (i + 1) (by omega)
      rw [cuts_cons (first 0 (by omega)), behind, Nat.add_right_comm]
      rfl

theorem cuts_missed (misses : ∀ i, ¬sep <+: cs.drop i) : cuts sep cs = [cs] := by
  induction cs with
  | nil => rfl
  | cons c rest ih =>
    rw [cuts_cons (misses 0), ih fun i => misses (i + 1)]
    rfl

namespace Scan

theorem pieces (scan : Scan sep cs start spans) (nonempty : sep ≠ [])
    (inside : start ≤ cs.length) : spans.map (slice cs) = cuts sep (cs.drop start) := by
  have some := List.length_pos_of_ne_nil nonempty
  induction scan with
  | ended outside => omega
  | @cut start pos spans _ finds rest ih =>
    have later := finds.later
    have fits := finds.inside nonempty
    have shifted (i : Nat) : (cs.drop start).drop i = cs.drop (start + i) := List.drop_drop
    -- positions in the text become positions in what is left of it
    have here : sep <+: (cs.drop start).drop (pos - start) := by
      rw [shifted, Nat.add_sub_cancel' later]
      exact finds.here
    have first : ∀ i < pos - start, ¬sep <+: (cs.drop start).drop i := by
      intro i early
      rw [shifted]
      exact finds.first _ (by omega) (by omega)
    rw [cuts_found nonempty here first, List.map_cons, ih fits, shifted]
    congr 3
    omega
  | @last start spans _ misses rest ih =>
    have whole : slice cs (start, cs.length) = cs.drop start :=
      List.take_of_length_le (by simp)
    have nothing : spans = [] := rest.unique (.ended (by omega))
    rw [nothing, List.map_singleton, whole, cuts_missed]
    intro i
    rw [List.drop_drop]
    exact misses _ (by omega)

end Scan

theorem stands_of_infix_slice {span : Nat × Nat} (nonempty : sep ≠ [])
    (inner : sep <:+: slice cs span) : ∃ i, span.1 ≤ i ∧ i < span.2 ∧ sep <+: cs.drop i := by
  obtain ⟨front, back, whole⟩ := inner
  have some := List.length_pos_of_ne_nil nonempty
  have size := congrArg List.length whole
  simp only [slice, List.length_append, List.length_take] at size
  refine ⟨span.1 + front.length, by omega, by omega, ?_⟩
  have there : sep <+: (slice cs span).drop front.length := by
    rw [← whole, List.append_assoc, List.drop_left]
    exact List.prefix_append _ _
  unfold slice at there
  rw [List.drop_take, List.drop_drop] at there
  exact there.trans (List.take_prefix _ _)

theorem Scan.uncut (scan : Scan sep cs start spans) (nonempty : sep ≠ []) :
    ∀ span ∈ spans, ¬sep <:+: slice cs span := by
  induction scan with
  | ended => simp
  | cut inside finds rest ih =>
    intro span member inner
    rcases List.mem_cons.1 member with rfl | behind
    · obtain ⟨i, reached, early, stands⟩ := stands_of_infix_slice nonempty inner
      exact finds.first i reached early stands
    · exact ih span behind inner
  | last inside misses rest ih =>
    intro span member inner
    rcases List.mem_cons.1 member with rfl | behind
    · obtain ⟨i, reached, _, stands⟩ := stands_of_infix_slice nonempty inner
      exact misses i reached stands
    · exact ih span behind inner

def itemsOf (pieces : List (List Char)) : List (List Char) :=
  (pieces.map trimChars).filter fun piece => !piece.isEmpty

theorem itemsOf_append (front back : List (List Char)) :
    itemsOf (front ++ back) = itemsOf front ++ itemsOf back := by
  simp [itemsOf]

theorem splitTrimmed_eq {sep : String} (nonempty : sep ≠ "") (s : String) :
    splitTrimmed s sep = (itemsOf (cuts sep.toList s.toList)).map String.ofList := by
  unfold splitTrimmed pieces
  rw [if_neg (by simpa using nonempty)]
  rfl

/-- What splitting at `sep` can give as an item. -/
structure Item (sep cs : List Char) : Prop where
  nonempty : cs ≠ []
  tidy : Tidy cs
  uncut : ¬sep <:+: cs

theorem item_of_mem (uncut : ∀ piece ∈ parts, ¬sep <:+: piece) :
    ∀ item ∈ itemsOf parts, Item sep item := by
  intro item member
  simp only [itemsOf, List.mem_filter, List.mem_map] at member
  obtain ⟨⟨piece, there, rfl⟩, filled⟩ := member
  have trims := trims_trimChars piece
  refine ⟨by simpa using filled, trims.tidy, fun inner => uncut piece there ?_⟩
  obtain ⟨before, after, whole, -⟩ := trims.around
  rw [whole]
  exact inner.trans (List.infix_append before _ after)

theorem extendFirst_append (c : Char) {parts : List (List Char)} (some : parts ≠ [])
    (more : List (List Char)) : extendFirst c (parts ++ more) = extendFirst c parts ++ more := by
  cases parts with
  | nil => exact absurd rfl some
  | cons piece rest => rfl

/-- One character cannot overlap itself, so that it cuts wherever it stands. -/
theorem cuts_single (c : Char) (front back : List Char) :
    cuts [c] (front ++ c :: back) = cuts [c] front ++ cuts [c] back := by
  -- a mark of one character at the front cuts at once, and else the cuts are those of the rest
  induction front with
  | nil => simp [cuts, cutsFrom]
  | cons d rest ih =>
    by_cases same : c = d
    · subst same
      have front (more : List Char) : cuts [c] (c :: more) = [] :: cuts [c] more :=
        cuts_here (by simp) (by simp)
      rw [List.cons_append, front, front, ih, List.cons_append]
    · have elsewhere (more : List Char) : ¬[c] <+: d :: more := by simp [same]
      have some : cuts [c] rest ≠ [] := cutsFrom_ne_nil _ _ _
      rw [List.cons_append, cuts_cons (elsewhere _), cuts_cons (elsewhere _), ih,
        extendFirst_append d some]

theorem cuts_of_absent {c : Char} (absent : c ∉ cs) : cuts [c] cs = [cs] := by
  refine cuts_missed fun i stands => absent ?_
  exact List.mem_of_mem_drop (stands.subset (List.mem_singleton_self c))

theorem singleton_ne_empty (c : Char) : String.singleton c ≠ "" := by
  intro same
  simpa using congrArg String.toList same

theorem splitTrimmed_single (c : Char) (s : String) :
    splitTrimmed s (String.singleton c) =
      (itemsOf (cuts [c] s.toList)).map String.ofList := by
  rw [splitTrimmed_eq (singleton_ne_empty c), String.toList_singleton]

theorem splitTrimmed_append (c : Char) (a b : String) :
    splitTrimmed (a ++ String.singleton c ++ b) (String.singleton c) =
      splitTrimmed a (String.singleton c) ++ splitTrimmed b (String.singleton c) := by
  have whole : (a ++ String.singleton c ++ b).toList = a.toList ++ c :: b.toList := by simp
  simp only [splitTrimmed_single, whole, cuts_single, itemsOf_append, List.map_append]

def Pads (c : Char) (item padded : String) : Prop :=
  ∃ before after, padded.toList = before ++ item.toList ++ after ∧
    (∀ d ∈ before, isBlank d = true ∧ d ≠ c) ∧ ∀ d ∈ after, isBlank d = true ∧ d ≠ c

theorem splitTrimmed_padded {c : Char} {item padded : String} (pads : Pads c item padded)
    (single : Item [c] item.toList) : splitTrimmed padded (String.singleton c) = [item] := by
  obtain ⟨before, after, whole, front, back⟩ := pads
  have absent : c ∉ padded.toList := by
    rw [whole]
    simp only [List.mem_append, not_or]
    refine ⟨⟨fun member => (front c member).2 rfl, fun member => single.uncut ?_⟩,
      fun member => (back c member).2 rfl⟩
    exact (List.singleton_infix_iff c _).2 member
  have trims : Trims padded.toList item.toList :=
    ⟨⟨before, after, whole, fun d member => (front d member).1,
      fun d member => (back d member).1⟩, single.tidy⟩
  simp [splitTrimmed_single, cuts_of_absent absent, itemsOf, trims.trimChars_eq, single.nonempty]

/-- Items that are joined come back, whatever blanks stand around them. -/
theorem splitTrimmed_intercalate {c : Char} {items padded : List String}
    (pads : List.Forall₂ (Pads c) items padded) (single : ∀ item ∈ items, Item [c] item.toList) :
    splitTrimmed ((String.singleton c).intercalate padded) (String.singleton c) = items := by
  induction pads with
  | nil => simp [splitTrimmed_single, cuts_of_absent, itemsOf, trimChars, trimEnd]
  | @cons item text items padded pad pads ih =>
    have first := splitTrimmed_padded pad (single item List.mem_cons_self)
    cases pads with
    | nil => simpa using first
    | cons next rest =>
      rw [String.intercalate_cons_cons, splitTrimmed_append, first,
        ih fun item member => single item (List.mem_cons_of_mem _ member), List.singleton_append]

/-- Splitting gives what a scan for the separator passes over, span by span: the scan ends, it can
go one way only, and its spans are within the text. Trimmed, and without the blank ones, these are
the items. At one character, splitting goes piece by piece, and undoes joining. -/
theorem splitTrimmed_splits :
    (∀ cs, Trims cs (trimChars cs)) ∧
    (∀ s sep : String, sep ≠ "" →
      ∃ spans, Scan sep.toList s.toList 0 spans ∧
        (∀ others, Scan sep.toList s.toList 0 others → others = spans) ∧
        (∀ span ∈ spans, span.1 ≤ span.2 ∧ span.2 ≤ s.toList.length) ∧
        (splitTrimmed s sep).map String.toList =
          ((spans.map (slice s.toList)).map trimChars).filter (fun item => !item.isEmpty) ∧
        ∀ item ∈ splitTrimmed s sep, Item sep.toList item.toList) ∧
    (∀ (c : Char) (a b : String),
      splitTrimmed (a ++ String.singleton c ++ b) (String.singleton c) =
        splitTrimmed a (String.singleton c) ++ splitTrimmed b (String.singleton c)) ∧
    ∀ (c : Char) (items padded : List String), List.Forall₂ (Pads c) items padded →
      (∀ item ∈ items, Item [c] item.toList) →
        splitTrimmed ((String.singleton c).intercalate padded) (String.singleton c) = items := by
  refine ⟨trims_trimChars, fun s sep nonempty => ?_, splitTrimmed_append,
    fun c items padded pads single => splitTrimmed_intercalate pads single⟩
  have some : sep.toList ≠ [] := by simpa using nonempty
  obtain ⟨spans, scan⟩ := exists_scan some s.toList 0
  have pieces : spans.map (slice s.toList) = cuts sep.toList s.toList :=
    scan.pieces some (Nat.zero_le _)
  refine ⟨spans, scan, fun others scan' => scan'.unique scan, scan.within some, ?_, ?_⟩
  · rw [splitTrimmed_eq nonempty, pieces, List.map_map]
    simp [itemsOf, Function.comp_def]
  · rw [splitTrimmed_eq nonempty, ← pieces]
    intro item member
    obtain ⟨cs, there, rfl⟩ := List.mem_map.1 member
    rw [String.toList_ofList]
    refine item_of_mem (fun piece sliced => ?_) cs there
    obtain ⟨span, passed, rfl⟩ := List.mem_map.1 sliced
    exact scan.uncut some span passed

example : splitTrimmed "a b, b ,\t,c" ", " = ["a b", "b ,\t,c"] := by decide

end RpcHost.Text
