import RpcHost.Proofs.Containment
import RpcHost.Proofs.Numerals
/-!
The compression hint on its way from an address to an answer. An address can give every number of
64 bits, and an answer holds one of 32, so a hint arrives as it was given exactly where it fits.
-/
namespace RpcHost

open Attempt Host

variable {h mid : Host} {t : TableRef} {p : ProviderRef} {q : RequestRef} {r : Response}

/-- The numbers that an answer can hold as its hint. -/
def HintFits (n : Int) : Prop := -2147483648 ≤ n ∧ n < 2147483648

theorem hintFits_hintOf (n : Int) : HintFits (hintOf n) :=
  ⟨Int.le_bmod (by decide), Int.bmod_lt (by decide)⟩

theorem hintOf_eq_iff (n : Int) : hintOf n = n ↔ HintFits n := by
  refine ⟨fun same => same ▸ hintFits_hintOf n, fun ⟨low, high⟩ => ?_⟩
  exact Int.bmod_eq_of_le low high

/-- The answer is the provider's, and its hint the given number, or what 32 bits leave of it. What
the provider may have put there is gone. -/
structure Response.Hinted (answer r : Response) (n : Int) : Prop where
  otherwise : answer = { r with gzipSize := answer.gzipSize }
  wrapped : ∃ hint, answer.gzipSize = some hint ∧ HintFits hint ∧ ∃ k, n = hint + 4294967296 * k
  intact : answer.gzipSize = some n ↔ HintFits n

theorem Response.hinted_hintOf (r : Response) (n : Int) :
    { r with gzipSize := some (hintOf n) }.Hinted r n where
  otherwise := rfl
  wrapped := ⟨_, rfl, hintFits_hintOf n, _, (Int.bmod_add_bdiv n 4294967296).symm⟩
  intact := by rw [← hintOf_eq_iff, Option.some.injEq]

theorem dispatchWith_hinted (call : ProviderRef → Option RequestRef → Attempt (Option Response))
    (routed : h.routeFor t q = some p)
    (ends : (call p (some q)).Yields (h.located q) (some r) mid) :
    ((dispatchWith call t (some q)).value h).Hinted r (mid.hintAt p) := by
  obtain ⟨outcome, after⟩ := yields_iff.1 ends
  rw [(dispatchWith_routed call routed).1, outcome, after]
  exact r.hinted_hintOf _

/-- Any number of 64 bits can be the hint of an address. Whoever answers, and whatever hint is in
the answer, a table puts the hint of the address there as it is after the call, and the number
arrives intact where it has 32 bits and nowhere else. -/
theorem hint_arrives_iff (routed : h.routeFor t q = some p) :
    (∀ n, (∃ u : Url, u.intValue Url.gzipSizeKey 0 = n) ↔ Text.inWord64 n = true) ∧
    (∀ call r mid, (call p (some q)).Yields (h.located q) (some r) mid →
      ((dispatchWith call t (some q)).value h).Hinted r (mid.hintAt p)) ∧
    ∀ r mid, (callAtDepth (h.routeCount + 1) p (some q)).Yields (h.located q) (some r) mid →
      ((dispatch t (some q)).value h).Hinted r (mid.hintAt p) := by
  refine ⟨Url.exists_intValue_iff Url.gzipSizeKey, fun call r mid ends => ?_, fun r mid ends => ?_⟩
  · exact dispatchWith_hinted call routed ends
  · unfold dispatch
    rw [Step.value_bind, Step.value_get, Step.after_get]
    exact dispatchWith_hinted _ routed ends

def Host.oversized : Host :=
  { furnished .builtIn .empty
      [⟨"mrpc", "127.0.0.1", 1, "p", "", .ofList [(Url.gzipSizeKey, "4294967296")]⟩] with
    backends := Store.empty.add (.scriptedAt .firstPath ⟨0⟩)
    providers := Store.empty.add ⟨⟨0⟩, [], none⟩
    tables := Store.empty.add (.ofList [("p", ⟨0⟩)])
    requests := Store.empty.add
      { Request.empty with rid := "1", service := .text "p", method := .text "m" } }

def Host.answered : Host := (callAtDepth 2 ⟨0⟩ (some ⟨0⟩)).after (oversized.located ⟨0⟩)

theorem Host.oversized_answers :
    (callAtDepth 2 ⟨0⟩ (some ⟨0⟩)).Yields (oversized.located ⟨0⟩) (some (.ofResult "1" (.str "p")))
      answered := rfl

theorem Host.hintAt_answered : answered.hintAt ⟨0⟩ = 4294967296 := by decide +kernel

theorem hint_arrives_iff_oversized :
    ((dispatch ⟨0⟩ (some ⟨0⟩)).value .oversized).gzipSize ≠ some (Host.answered.hintAt ⟨0⟩) := by
  have routed : Host.oversized.routeFor ⟨0⟩ ⟨0⟩ = some ⟨0⟩ := rfl
  obtain ⟨-, -, dispatches⟩ := hint_arrives_iff routed
  intro same
  have hinted := dispatches _ _ Host.oversized_answers
  have fits : HintFits (Host.answered.hintAt ⟨0⟩) := hinted.intact.1 same
  rw [Host.hintAt_answered] at fits
  exact absurd fits.2 (by decide)

/-- So the hint of an address can be lost on its way. -/
theorem hint_lost :
    ¬∀ h t q p r mid, h.routeFor t q = some p →
      (callAtDepth (h.routeCount + 1) p (some q)).Yields (h.located q) (some r) mid →
      ((dispatch t (some q)).value h).gzipSize = some (mid.hintAt p) := by
  intro arrives
  have same := arrives .oversized ⟨0⟩ ⟨0⟩ ⟨0⟩ _ _ rfl Host.oversized_answers
  have none : ((dispatch ⟨0⟩ (some ⟨0⟩)).value .oversized).gzipSize = some 0 := by decide +kernel
  rw [none, Host.hintAt_answered] at same
  cases same

end RpcHost
