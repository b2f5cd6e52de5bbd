import Mathlib.Algebra.Group.Nat.Defs
import RpcHost.Proofs.Calls
import RpcHost.Proofs.Demonstration
/-!
Identifiers, whatever the random bytes are. Each is five groups of hexadecimal digits, and the last
two spell its sequence number. The numbers count on from one identifier to the next, so that 2^64 in
a row are all different, and so are those that a demonstration asks under.
-/
namespace RpcHost

namespace Uuid

def hexDigits : List Char :=
  ['0', '1', '2', '3', '4', '5', '6', '7', '8', '9', 'a', 'b', 'c', 'd', 'e', 'f']

inductive Hexadecimal : List Char → Nat → Prop
  | nil : Hexadecimal [] 0
  | snoc {cs : List Char} {c : Char} {n d : Nat} (front : Hexadecimal cs n)
    (digit : hexDigits[d]? = some c) : Hexadecimal (cs ++ [c]) (16 * n + d)

/-- Five groups of digits with dashes between them, the last two of which spell the number. -/
inductive Bears : List Char → Nat → Prop
  | groups {a b c d e : List Char} {number : Nat}
    (sizes : [a, b, c, d, e].map List.length = [8, 4, 4, 4, 12])
    (digits : ∀ group ∈ [a, b, c, d, e], group ⊆ hexDigits)
    (spells : Hexadecimal (d ++ e) number) :
    Bears (a ++ '-' :: (b ++ '-' :: (c ++ '-' :: (d ++ '-' :: e)))) number

variable {cs : List Char} {c : Char} {n d : Nat}

theorem getElem?_hexDigits {d : Nat} (small : d < 16) :
    hexDigits[d]? = some (Json.hexDigit d) := by
  revert d
  decide

theorem hexValue_hexDigit {d : Nat} (small : d < 16) : hexValue (Json.hexDigit d) = d := by
  revert d
  decide

theorem hexValue_of_digit (digit : hexDigits[d]? = some c) : hexValue c = d := by
  obtain ⟨inside, _⟩ := List.getElem?_eq_some_iff.1 digit
  rw [getElem?_hexDigits inside] at digit
  cases digit
  exact hexValue_hexDigit inside

theorem hexDigit_mem {d : Nat} (small : d < 16) : Json.hexDigit d ∈ hexDigits :=
  List.mem_of_getElem? (getElem?_hexDigits small)

theorem ne_dash_of_mem : ∀ c ∈ hexDigits, (c != '-') = true := by simp [hexDigits]

namespace Hexadecimal

theorem value_eq (spells : Hexadecimal cs n) :
    cs.foldl (fun n c => 16 * n + hexValue c) 0 = n := by
  induction spells with
  | nil => rfl
  | snoc _ digit ih => simp [ih, hexValue_of_digit digit]

theorem snoc_byte (front : Hexadecimal cs n) (byte : UInt8) :
    Hexadecimal (cs ++ byteDigits byte) (256 * n + byte.toNat) := by
  have bound := byte.toNat_lt
  have high := front.snoc (getElem?_hexDigits (d := byte.toNat / 16) (by omega))
  have both := high.snoc (getElem?_hexDigits (d := byte.toNat % 16) (by omega))
  rw [List.append_assoc] at both
  have value : 16 * (16 * n + byte.toNat / 16) + byte.toNat % 16 = 256 * n + byte.toNat := by omega
  rwa [value] at both

end Hexadecimal

theorem hexadecimal_sequenceBytes (sequence : UInt64) (count low : Nat) :
    Hexadecimal (group ((List.range' low count).reverse.map (sequenceByte sequence)))
      (sequence.toNat / 256 ^ low % 256 ^ count) := by
  -- down the places: a lower byte stands behind the higher ones
  induction count generalizing low with
  | zero =>
    rw [Nat.pow_zero, Nat.mod_one]
    exact .nil
  | succ count ih =>
    have longer := (ih (low + 1)).snoc_byte (sequenceByte sequence low)
    have lowest : (sequenceByte sequence low).toNat = sequence.toNat / 256 ^ low % 256 := by
      simp [sequenceByte]
    have value : 256 * (sequence.toNat / 256 ^ (low + 1) % 256 ^ count) +
        sequence.toNat / 256 ^ low % 256 = sequence.toNat / 256 ^ low % 256 ^ (count + 1) := by
      rw [Nat.pow_succ 256 low, ← Nat.div_div_eq_div_mul, Nat.pow_succ' (n := count), Nat.mod_mul,
        Nat.add_comm]
    rw [lowest, value] at longer
    simpa [List.range'_succ, group] using longer

theorem group_subset (bytes : List UInt8) : group bytes ⊆ hexDigits := by
  intro c member
  obtain ⟨byte, _, member⟩ := List.mem_flatMap.1 member
  have bound := byte.toNat_lt
  simp only [byteDigits, List.mem_cons, List.not_mem_nil, or_false] at member
  rcases member with rfl | rfl
  · exact hexDigit_mem (by omega)
  · exact hexDigit_mem (by omega)

theorem bears_chars (random : Fin 8 → UInt8) (sequence : UInt64) :
    Bears (chars random sequence) sequence.toNat := by
  refine .groups rfl ?_ ?_
  · simp only [List.forall_mem_cons]
    exact ⟨group_subset _, group_subset _, group_subset _, group_subset _, group_subset _, by simp⟩
  · have spells := hexadecimal_sequenceBytes sequence 8 0
    have whole : sequence.toNat / 256 ^ 0 % 256 ^ 8 = sequence.toNat := by
      rw [Nat.pow_zero, Nat.div_one]
      exact Nat.mod_eq_of_lt sequence.toNat_lt
    rwa [whole] at spells

namespace Bears

theorem length_eq (bears : Bears cs n) : cs.length = 36 := by
  cases bears with
  | groups sizes digits spells =>
    simp only [List.map_cons, List.map_nil, List.cons.injEq] at sizes
    simp only [List.length_append, List.length_cons]
    omega

theorem sequenceOf_eq (bears : Bears cs n) : sequenceOf cs = n := by
  cases bears with
  | @groups a b c d e _ sizes digits spells =>
    simp only [List.map_cons, List.map_nil, List.cons.injEq] at sizes
    have front : (a ++ '-' :: (b ++ '-' :: (c ++ ['-']))).length = 19 := by
      simp only [List.length_append, List.length_cons, List.length_nil]
      omega
    have split : a ++ '-' :: (b ++ '-' :: (c ++ '-' :: (d ++ '-' :: e))) =
        a ++ '-' :: (b ++ '-' :: (c ++ ['-'])) ++ (d ++ '-' :: e) := by simp
    have kept {group : List Char} (member : group ∈ [a, b, c, d, e]) :
        group.filter (· != '-') = group :=
      List.filter_eq_self.2 fun c inside => ne_dash_of_mem c (digits group member inside)
    unfold sequenceOf
    rw [split, List.drop_left' front, List.filter_append, List.filter_cons_of_neg (by decide),
      kept (by simp), kept (by simp), spells.value_eq]

end Bears

end Uuid

open Attempt Host

/-- Identifiers that are drawn one after another. In between anything may happen that draws none;
so the random bytes of each may be any. -/
inductive Draws (start : Host) : List String → Host → Prop
  | start : Draws start [] start
  | elsewhere {ids : List String} {h h' : Host} (before : Draws start ids h)
    (kept : h'.sequence = h.sequence) : Draws start ids h'
  | drawn {ids : List String} {h : Host} (before : Draws start ids h) :
    Draws start (ids ++ [Demo.newRid.value h]) (Demo.newRid.after h)

variable {start h h' : Host} {ids : List String}

theorem newRid_bears (h : Host) : Uuid.Bears (Demo.newRid.value h).toList h.sequence.toNat := by
  show Uuid.Bears (Uuid.text _ _).toList _
  rw [Uuid.text, String.toList_ofList]
  exact Uuid.bears_chars _ _

theorem sequence_newRid (h : Host) : (Demo.newRid.after h).sequence = h.sequence + 1 := rfl

namespace Draws

theorem sequence_eq (draws : Draws start ids h) :
    h.sequence.toNat = (start.sequence.toNat + ids.length) % 2 ^ 64 := by
  induction draws with
  | start => exact (Nat.mod_eq_of_lt start.sequence.toNat_lt).symm
  | elsewhere _ kept ih => rw [kept, ih]
  | @drawn ids h _ ih =>
    rw [sequence_newRid, UInt64.toNat_add, ih, List.length_append, ← Nat.add_assoc]
    exact Nat.mod_add_mod _ _ _

theorem bears (draws : Draws start ids h) {i : Nat} {id : String} (there : ids[i]? = some id) :
    Uuid.Bears id.toList ((start.sequence.toNat + i) % 2 ^ 64) := by
  -- on the draws: those before the last bear what they bore when they were drawn
  induction draws with
  | start => cases there
  | elsewhere _ _ ih => exact ih there
  | @drawn ids h before ih =>
    rcases Nat.lt_or_ge i ids.length with earlier | later
    · rw [List.getElem?_append_left earlier] at there
      exact ih there
    · rw [List.getElem?_append_right later, List.getElem?_singleton] at there
      split at there
      · rename_i last
        cases there
        have same : i = ids.length := by omega
        rw [same, ← before.sequence_eq]
        exact newRid_bears h
      · cases there

theorem nodup (draws : Draws start ids h) (few : ids.length ≤ 2 ^ 64) : ids.Nodup := by
  refine List.pairwise_iff_getElem.2 fun i j earlier later before same => ?_
  have first := (draws.bears (List.getElem?_eq_getElem earlier)).sequenceOf_eq
  have second := (draws.bears (List.getElem?_eq_getElem later)).sequenceOf_eq
  rw [same, second] at first
  omega

end Draws

/-- Of 2^64 identifiers that are drawn one after another no two are the same, whatever the random
bytes are and whatever happens in between. Each is of 36 characters in five groups, and its last two
groups are the number that the process has come to, which grows by one with each of them. -/
theorem Draws.never_repeats (draws : Draws start ids h) :
    (∀ i id, ids[i]? = some id →
      let number := (start.sequence.toNat + i) % 2 ^ 64
      id.length = 36 ∧ Uuid.Bears id.toList number ∧ Uuid.sequenceOf id.toList = number) ∧
    h.sequence.toNat = (start.sequence.toNat + ids.length) % 2 ^ 64 ∧
    (ids.length ≤ 2 ^ 64 → ids.Nodup) := by
  refine ⟨fun i id there => ?_, draws.sequence_eq, draws.nodup⟩
  have bears := draws.bears there
  exact ⟨String.length_toList.symm.trans bears.length_eq, bears, bears.sequenceOf_eq⟩

def Host.atLast (byte : UInt8) : Host :=
  { Host.start (.workingIn []) (fun _ _ => byte) fun _ _ => 0 with sequence := 0xffffffffffffffff }

/-- After the last number the first follows, here with other random bytes. -/
theorem Draws.never_repeats_wrapped : ∃ h, Draws (atLast 0)
      ["00000000-0000-0000-ffff-ffffffffffff", "ffffffff-ffff-ffff-0000-000000000000"] h ∧
    h.sequence.toNat = 1 ∧
    ["00000000-0000-0000-ffff-ffffffffffff", "ffffffff-ffff-ffff-0000-000000000000"].Nodup ∧
    Uuid.Bears "ffffffff-ffff-ffff-0000-000000000000".toList 0 := by
  have first : Draws (atLast 0) [Demo.newRid.value (atLast 0)] (Demo.newRid.after (atLast 0)) :=
    .drawn .start
  have other : Draws (atLast 0) [Demo.newRid.value (atLast 0)] (Demo.newRid.after (atLast 255)) :=
    first.elsewhere rfl
  have both := other.drawn
  have texts : [Demo.newRid.value (atLast 0)] ++
      [Demo.newRid.value (Demo.newRid.after (atLast 255))] =
      ["00000000-0000-0000-ffff-ffffffffffff", "ffffffff-ffff-ffff-0000-000000000000"] := by
    decide +kernel
  have zero : ((atLast 0).sequence.toNat + 1) % 2 ^ 64 = 0 := by decide +kernel
  rw [texts] at both
  obtain ⟨each, counts, distinct⟩ := both.never_repeats
  obtain ⟨_, bears, _⟩ := each 1 _ rfl
  rw [zero] at bears
  exact ⟨_, both, counts.trans (by decide +kernel), distinct (by decide +kernel), bears⟩

def Host.DrawsNone (h h' : Host) : Prop := h'.sequence = h.sequence

instance : Course Host.DrawsNone where
  refl _ := rfl
  trans first second := second.trans first

theorem Host.Noted.drawsNone (noted : h.Noted h') : h.DrawsNone h' := by
  obtain ⟨_, _, _, rfl⟩ := noted.written
  rfl

theorem Host.drawsNone_permits : Permits Host.DrawsNone where
  logged level pieces h := (writeLog_within level pieces h).drawsNone
  marked _ _ _ := rfl
  requested _ _ := rfl
  counted _ _ _ := rfl
  withdrew _ p := (removeProvider_within _ p _).drawsNone

theorem handle_drawsNone (s : ServerRef) (q : Option RequestRef) :
    (handle s q).Within Host.DrawsNone := by
  refine Step.within_bind Step.within_get fun h => Step.within_bind Step.within_get fun h' => ?_
  split
  · exact Host.drawsNone_permits.informed_within .warning _ q _
  · exact Host.drawsNone_permits.dispatch_within _ q

theorem Attempt.returned_of_yields {α β : Type} {m : Attempt α} {a b : β}
    (yields : (m >>= fun _ => pure a).Yields h b h') : a = b := by
  obtain ⟨_, _, _, ends⟩ := yields_bind.1 yields
  exact (yields_pure.1 ends).1

namespace Demo

theorem showResponse_drawsNone (r : Response) : (showResponse r).Within Host.DrawsNone := by
  unfold showResponse
  split <;> exact Host.drawsNone_permits.logged _ _

theorem ask_draws (draws : Draws start ids h) (s : ServerRef) (service method : String)
    (params : Json) :
    Draws start (ids ++ [((ask s service method params).value h).rid])
      ((ask s service method params).after h) := by
  have asked : Draws start (ids ++ [newRid.value h]) ((request service method params).after h) :=
    draws.drawn.elsewhere rfl
  have rid : ((ask s service method params).value h).rid = newRid.value h := by
    show ((h.requests.add _).get h.requests.fresh).rid = _
    rw [Store.get_add_fresh]
    rfl
  have answered : DrawsNone ((request service method params).after h)
      ((ask s service method params).after h) :=
    Course.trans (handle_drawsNone s _ _) (showResponse_drawsNone _ _)
  rw [rid]
  exact asked.elsewhere answered

theorem askAll_draws (draws : Draws start ids h) (s : ServerRef)
    (services : List (String × UrlRef)) :
    Draws start (ids ++ ((askAll s services).value h).map Exchange.rid)
      ((askAll s services).after h) := by
  induction services generalizing ids h with
  | nil => simpa [askAll] using draws
  | cons entry rest ih =>
    obtain ⟨name, u⟩ := entry
    obtain ⟨sum, quotient, added, divided, after, value⟩ := askAll_cons s name u rest h
    -- two draws a service, for the sum and for the quotient
    have first : Draws start (ids ++ [(sum.value h).rid]) (sum.after h) := by
      rw [added]
      exact ask_draws draws s _ _ _
    have second : Draws start (ids ++ [(sum.value h).rid] ++ [(quotient.value (sum.after h)).rid])
        (quotient.after (sum.after h)) := by
      rw [divided]
      exact ask_draws first s _ _ _
    rw [after, value]
    simpa using ih second

variable {s : ServerRef} {services : List (String × UrlRef)} {report : Report}
  {argument : Option String} {order : Traversal UrlRef} {setting : Setting}

theorem serve_asks (yields : (serve order s services).Yields h report h') :
    report.exchanges = [] ∨ ∃ mid, report.exchanges = (askAll s services).value mid := by
  obtain ⟨impls, _, _, yields⟩ := yields_bind.1 yields
  obtain ⟨status, mid, _, yields⟩ := yields_bind.1 yields
  split at yields
  · obtain ⟨exchanges, _, asked, ends⟩ := yields_bind.1 yields
    obtain ⟨rfl, _⟩ := yields_lift.1 asked
    obtain ⟨rfl, _⟩ := yields_pure.1 ends
    exact .inr ⟨mid, rfl⟩
  · cases returned_of_yields yields
    exact .inl rfl

theorem serveAndDestroy_serves (yields : (serveAndDestroy setting s services).Yields h report h') :
    ∃ mid, (serve setting.exported s services).Yields h report mid := by
  obtain ⟨served, mid, attempted, yields⟩ := yields_bind.1 yields
  cases returned_of_yields yields
  rcases yields_tryCatch.1 attempted with serves | ⟨fault, failed, _, caught⟩
  · exact ⟨mid, serves⟩
  · -- what was caught is thrown again
    obtain ⟨_, _, _, thrown⟩ := yields_bind.1 caught
    cases thrown

theorem run_asks (yields : (Demo.run setting argument).Yields start report h') :
    report.exchanges = [] ∨ ∃ s services mid, report.exchanges = (askAll s services).value mid := by
  unfold Demo.run at yields
  obtain ⟨c, _, _, yields⟩ := yields_bind.1 yields
  obtain ⟨status, _, _, yields⟩ := yields_bind.1 yields
  split at yields
  · obtain ⟨x, _, _, yields⟩ := yields_bind.1 yields
    obtain ⟨_, _, _, yields⟩ := yields_bind.1 yields
    split at yields
    · cases returned_of_yields yields
      exact .inl rfl
    · obtain ⟨s, _, _, served⟩ := yields_bind.1 yields
      obtain ⟨_, serves⟩ := serveAndDestroy_serves served
      exact (serve_asks serves).imp id fun asked => ⟨s, _, asked⟩
  · cases returned_of_yields yields
    exact .inl rfl

theorem run_distinct (yields : (Demo.run setting argument).Yields start report h')
    (few : report.exchanges.length ≤ 2 ^ 64) : (report.exchanges.map Exchange.rid).Nodup := by
  rcases run_asks yields with none | ⟨s, services, mid, asked⟩
  · simp [none]
  · have draws := askAll_draws .start s services (h := mid)
    rw [List.nil_append, ← asked] at draws
    exact draws.nodup (by rwa [List.length_map])

end Demo

end RpcHost
