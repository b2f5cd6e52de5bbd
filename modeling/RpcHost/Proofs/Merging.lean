import RpcHost.Proofs.Inheritance
/-!
Taking over what is unset is a merge that prefers the left. It is idempotent and associative, it
keeps the path and all that is set, and the parameters come to the union. A field is unset where it
is empty or zero, and a parameter where it is absent, so an empty parameter of one's own stays.
-/
namespace RpcHost

namespace Url

variable {own base result : Url}

theorem Inherits.unique {other : Url} (one : own.Inherits base result)
    (same : own.Inherits base other) : result = other := by
  have params : result.params = other.params := by
    apply Keyed.ext_find?
    intro key
    rw [one.params, same.params]
  cases result
  cases other
  simp only [mk.injEq]
  exact ⟨one.protocol.trans same.protocol.symm, one.host.trans same.host.symm,
    one.port.trans same.port.symm, one.path.trans same.path.symm,
    one.group.trans same.group.symm, params⟩

theorem Inherits.mergeFrom_eq (inherits : own.Inherits base result) :
    own.mergeFrom base = result :=
  (mergeFrom_inherits own base).unique inherits

@[simp] theorem mergeFrom_self (u : Url) : u.mergeFrom u = u := by
  apply Inherits.mergeFrom_eq
  constructor <;> simp

theorem mergeFrom_assoc (u a b : Url) :
    (u.mergeFrom a).mergeFrom b = u.mergeFrom (a.mergeFrom b) := by
  have first := mergeFrom_inherits u a
  have second := mergeFrom_inherits a b
  have whole := mergeFrom_inherits u (a.mergeFrom b)
  apply Inherits.mergeFrom_eq
  constructor
  case path => rfl
  case params =>
    intro key
    rw [whole.params, first.params, second.params, Option.or_assoc]
  case protocol =>
    rw [whole.protocol, first.protocol, second.protocol]
    grind
  case host =>
    rw [whole.host, first.host, second.host]
    grind
  case port =>
    rw [whole.port, first.port, second.port]
    grind
  case group =>
    rw [whole.group, first.group, second.group]
    grind

@[simp] theorem mergeFrom_mergeFrom_right (u a : Url) :
    (u.mergeFrom a).mergeFrom a = u.mergeFrom a := by
  rw [mergeFrom_assoc, mergeFrom_self]

@[simp] theorem mergeFrom_mergeFrom_left (u a : Url) :
    u.mergeFrom (a.mergeFrom u) = u.mergeFrom a := by
  have inner := mergeFrom_inherits a u
  have outer := mergeFrom_inherits u a
  apply Inherits.mergeFrom_eq
  constructor
  case path => rfl
  case params =>
    intro key
    rw [outer.params, inner.params]
    cases u.params.find? key <;> simp
  case protocol =>
    rw [outer.protocol, inner.protocol]
    grind
  case host =>
    rw [outer.host, inner.host]
    grind
  case port =>
    rw [outer.port, inner.port]
    grind
  case group =>
    rw [outer.group, inner.group]
    grind

theorem find?_mergeFrom (u base : Url) (key : String) :
    (u.mergeFrom base).params.find? key = (u.params.find? key).or (base.params.find? key) :=
  (mergeFrom_inherits u base).params key

theorem hasParam_mergeFrom (u base : Url) (key : String) :
    (u.mergeFrom base).hasParam key = (u.hasParam key || base.hasParam key) := by
  simp [hasParam, Keyed.contains, find?_mergeFrom, Option.isSome_or]

end Url

/-- The host once `u` has taken over from `base` what is unset in it. -/
def Host.merged (h : Host) (u base : UrlRef) : Host :=
  (modifyUrl u fun url => url.mergeFrom (h.urls.get base)).after h

namespace Host

variable {h : Host} {u a b : UrlRef}

theorem get_merged (h : Host) (u base other : UrlRef) :
    (h.merged u base).urls.get other =
      if other = u then (h.urls.get u).mergeFrom (h.urls.get base) else h.urls.get other :=
  Store.get_modify _ _ _ _

@[simp] theorem get_merged_own (h : Host) (u base : UrlRef) :
    (h.merged u base).urls.get u = (h.urls.get u).mergeFrom (h.urls.get base) := by
  simp [get_merged]

@[simp] theorem get_merged_base (h : Host) (u base : UrlRef) :
    (h.merged u base).urls.get base = h.urls.get base := by
  by_cases same : base = u
  · simp [same]
  · simp [get_merged, same]

theorem merged_merged (h : Host) (u a : UrlRef) : (h.merged u a).merged u a = h.merged u a := by
  have own : (h.merged u a).urls.get u = (h.urls.get u).mergeFrom (h.urls.get a) :=
    get_merged_own h u a
  have base : (h.merged u a).urls.get a = h.urls.get a := get_merged_base h u a
  unfold merged at own base ⊢
  simp only [after_modifyUrl] at own base ⊢
  rw [base, Store.modify, own, Url.mergeFrom_mergeFrom_right, Store.modify, Store.set_set]

theorem get_merged_merged (h : Host) (u a b : UrlRef) :
    ((h.merged u a).merged u b).urls.get u =
      (h.urls.get u).mergeFrom ((h.urls.get a).mergeFrom (h.urls.get b)) := by
  rw [get_merged_own, get_merged_own]
  by_cases same : b = u
  · subst same
    simp
  · rw [get_merged, if_neg same, Url.mergeFrom_assoc]

theorem get_merged_of_merged (h : Host) (u a b : UrlRef) :
    ((h.merged a b).merged u a).urls.get u =
      (h.urls.get u).mergeFrom ((h.urls.get a).mergeFrom (h.urls.get b)) := by
  rw [get_merged_own, get_merged_own]
  by_cases same : u = a
  · subst same
    rw [get_merged_own, Url.mergeFrom_self, ← Url.mergeFrom_assoc, Url.mergeFrom_self]
  · rw [get_merged, if_neg same]

/-- Inheriting between addresses, be they different or the same, is a merge that prefers the left:
what it takes from stays, and so do the path, every parameter and every other address; doing it
again or with itself changes nothing; it is associative; and the keys come to the union. -/
theorem merges_to_the_left (h : Host) (u a b : UrlRef) :
    (∀ other, other = a ∨ other ≠ u → (h.merged u a).urls.get other = h.urls.get other) ∧
    (h.urls.get u).Inherits (h.urls.get a) ((h.merged u a).urls.get u) ∧
    (h.merged u a).merged u a = h.merged u a ∧
    (∀ other, (h.merged u u).urls.get other = h.urls.get other) ∧
    (((h.merged u a).merged u b).urls.get u =
        (h.urls.get u).mergeFrom ((h.urls.get a).mergeFrom (h.urls.get b)) ∧
      ((h.merged u a).merged u b).urls.get u = ((h.merged a b).merged u a).urls.get u) ∧
    (∀ key value, (h.urls.get u).params.find? key = some value →
      ((h.merged u a).urls.get u).params.find? key = some value) ∧
    ∀ key, ((h.merged u a).urls.get u).hasParam key = true ↔
      (h.urls.get u).hasParam key = true ∨ (h.urls.get a).hasParam key = true := by
  have twice := get_merged_merged h u a b
  have joined := get_merged_of_merged h u a b
  refine ⟨?_, ?_, merged_merged h u a, ?_, ⟨twice, twice.trans joined.symm⟩, ?_, ?_⟩
  · intro other apart
    rcases apart with rfl | apart
    · exact get_merged_base h u other
    · simp [get_merged, apart]
  · rw [get_merged_own]
    exact Url.mergeFrom_inherits _ _
  · intro other
    rw [get_merged, Url.mergeFrom_self]
    split <;> simp_all
  · intro key value found
    simp [Url.find?_mergeFrom, found]
  · intro key
    simp [Url.hasParam_mergeFrom]

end Host

end RpcHost
