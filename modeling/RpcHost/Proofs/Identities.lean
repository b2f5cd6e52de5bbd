import Mathlib.Data.List.Infix
import RpcHost.Proofs.Numerals
/-!
Which addresses have the same identity. The parts of an address stand in one text with marks
between them, so they can be told apart wherever no part holds the mark that ends it.
-/
namespace RpcHost

namespace Text

variable {mark : Char} {rest : List Char}

theorem infix_of_append_eq {extra before after : List Char} (apart : mark ∉ rest)
    (some : extra ≠ []) (same : mark :: rest ++ after = extra ++ (mark :: rest ++ before)) :
    mark :: rest <:+: extra := by
  rcases List.append_eq_append_iff.1 same with ⟨e, split, -⟩ | ⟨e, split, follows⟩
  · exact ⟨[], e, split.symm⟩
  · cases e with
    | nil =>
      rw [List.append_nil] at split
      exact ⟨[], [], by simp [split]⟩
    | cons c e =>
      have begins : mark = c := (List.cons.inj follows).1
      cases extra with
      | nil => exact absurd rfl some
      | cons first extra =>
        have within : rest = extra ++ c :: e := (List.cons.inj split).2
        exact absurd (by simp [within, begins]) apart

/-- What stands before the first of a mark, and what stands after it, are told by the whole. -/
theorem append_inj_of_not_infix {a b before after : List Char} (apart : mark ∉ rest)
    (ha : ¬ mark :: rest <:+: a) (hb : ¬ mark :: rest <:+: b)
    (same : a ++ (mark :: rest ++ before) = b ++ (mark :: rest ++ after)) :
    a = b ∧ before = after := by
  have equal : a = b := by
    -- if one of them is longer, the mark behind the other begins in it
    rcases List.append_eq_append_iff.1 same with ⟨extra, longer, follows⟩ | ⟨extra, longer, follows⟩
    · by_cases nothing : extra = []
      · simp [longer, nothing]
      · have held := infix_of_append_eq apart nothing follows
        exact absurd (held.trans ⟨a, [], by simp [longer]⟩) hb
    · by_cases nothing : extra = []
      · simp [longer, nothing]
      · have held := infix_of_append_eq apart nothing follows
        exact absurd (held.trans ⟨b, [], by simp [longer]⟩) ha
  rw [equal] at same
  exact ⟨equal, List.append_cancel_left (List.append_cancel_left same)⟩

theorem append_cons_inj {a b before after : List Char} (ha : mark ∉ a) (hb : mark ∉ b)
    (same : a ++ mark :: before = b ++ mark :: after) : a = b ∧ before = after :=
  append_inj_of_not_infix List.not_mem_nil (by rwa [List.singleton_infix_iff])
    (by rwa [List.singleton_infix_iff]) same

theorem append_cons_inj_right {a b before after : List Char} (ha : mark ∉ a) (hb : mark ∉ b)
    (same : before ++ mark :: a = after ++ mark :: b) : before = after ∧ a = b := by
  have mirrored : a.reverse ++ mark :: before.reverse = b.reverse ++ mark :: after.reverse := by
    simpa using congrArg List.reverse same
  obtain ⟨behind, front⟩ := append_cons_inj (by simpa using ha) (by simpa using hb) mirrored
  exact ⟨List.reverse_inj.1 front, List.reverse_inj.1 behind⟩

theorem toDigits_inj {m n : Nat} (same : Nat.toDigits 10 m = Nat.toDigits 10 n) : m = n := by
  rw [← digitsValue_toDigits m, ← digitsValue_toDigits n, same]

theorem toString_inj {m n : Int} (same : (toString m).toList = (toString n).toList) : m = n := by
  have unsigned (k : Nat) : '-' ∉ Nat.toDigits 10 k := by
    intro member
    cases isDigit_of_mem_toDigits member
  cases m with
  | ofNat m =>
    cases n with
    | ofNat n =>
      rw [toList_ofNat, toList_ofNat] at same
      rw [toDigits_inj same]
    | negSucc n =>
      rw [toList_ofNat, toList_negSucc] at same
      exact absurd (by simp [same]) (unsigned m)
  | negSucc m =>
    cases n with
    | ofNat n =>
      rw [toList_ofNat, toList_negSucc] at same
      exact absurd (by simp [← same]) (unsigned n)
    | negSucc n =>
      rw [toList_negSucc, toList_negSucc] at same
      rw [Nat.succ.inj (toDigits_inj (List.cons.inj same).2)]

end Text

namespace Url

/-- No part that another follows in the identity holds the mark between them. -/
structure Delimited (u : Url) : Prop where
  protocol : ':' ∉ u.protocol.toList
  host : '/' ∉ u.host.toList
  path : ¬ "?group=".toList <:+: u.path.toList

variable {u v : Url}

def place (u : Url) : List Char := u.host.toList ++ ':' :: (toString u.port).toList

theorem toList_identity (u : Url) :
    u.identity.toList = u.protocol.toList ++ ':' :: ('/' :: '/' :: (u.place ++
      '/' :: (u.path.toList ++ ("?group=".toList ++ u.group.toList)))) := by
  simp [identity, place]

theorem not_mem_port {c : Char} (sign : c ≠ '-') (other : Text.isDigit c = false) :
    c ∉ (toString u.port).toList := by
  intro member
  rcases Text.mem_toString member with same | digit
  · exact sign same
  · simp [other] at digit

theorem Delimited.not_mem_place (delimited : u.Delimited) : '/' ∉ u.place := by
  unfold place
  rw [List.mem_append, List.mem_cons]
  rintro (host | mark | port)
  · exact delimited.host host
  · cases mark
  · exact not_mem_port (by decide) (by decide) port

theorem place_inj (same : u.place = v.place) : u.host = v.host ∧ u.port = v.port := by
  obtain ⟨host, port⟩ := Text.append_cons_inj_right (not_mem_port (by decide) (by decide))
    (not_mem_port (by decide) (by decide)) same
  exact ⟨String.toList_inj.1 host, Text.toString_inj port⟩

theorem identity_eq_iff (hu : u.Delimited) (hv : v.Delimited) :
    u.identity = v.identity ↔
      u.protocol = v.protocol ∧ u.host = v.host ∧ u.port = v.port ∧ u.path = v.path ∧
        u.group = v.group := by
  constructor
  · intro same
    rw [← String.toList_inj, toList_identity, toList_identity] at same
    obtain ⟨protocol, same⟩ := Text.append_cons_inj hu.protocol hv.protocol same
    have inner := List.cons.inj (List.cons.inj same).2
    obtain ⟨place, same⟩ := Text.append_cons_inj hu.not_mem_place hv.not_mem_place inner.2
    obtain ⟨path, group⟩ := Text.append_inj_of_not_infix (by decide) hu.path hv.path same
    obtain ⟨host, port⟩ := place_inj place
    exact ⟨String.toList_inj.1 protocol, host, port, String.toList_inj.1 path,
      String.toList_inj.1 group⟩
  · rintro ⟨protocol, host, port, path, group⟩
    unfold identity
    rw [protocol, host, port, path, group]

/-- A host that holds the mark may stand for another protocol. -/
example : (⟨"a", "b://c", 1, "", "", .empty⟩ : Url).identity =
    (⟨"a://b", "c", 1, "", "", .empty⟩ : Url).identity := by decide

end Url

end RpcHost
