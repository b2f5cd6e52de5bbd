import RpcHost.Server.Deployment
/-!
How steps and attempts run. A step gives a value and leaves a state. An attempt yields a value
or fails with a fault, and leaves a state either way. What a compound does is found from what
its parts do, in their order.
-/
namespace RpcHost

variable {α β : Type}

namespace Step

def value (m : Step α) (h : Host) : α := (StateT.run m h).1

def after (m : Step α) (h : Host) : Host := (StateT.run m h).2

@[simp] theorem value_pure (a : α) (h : Host) : value (pure a) h = a := rfl

@[simp] theorem after_pure (a : α) (h : Host) : after (pure a) h = h := rfl

@[simp] theorem value_bind (m : Step α) (k : α → Step β) (h : Host) :
    value (m >>= k) h = value (k (value m h)) (after m h) := by
  unfold value after
  rfl

@[simp] theorem after_bind (m : Step α) (k : α → Step β) (h : Host) :
    after (m >>= k) h = after (k (value m h)) (after m h) := by
  unfold value after
  rfl

@[simp] theorem value_get (h : Host) : value get h = h := rfl

@[simp] theorem after_get (h : Host) : after get h = h := rfl

theorem run_get_bind (k : Host → Step β) (h : Host) :
    StateT.run ((get : Step Host) >>= k) h = StateT.run (k h) h := rfl

@[simp] theorem after_set (h h' : Host) : after (set h') h = h' := rfl

@[simp] theorem after_modify (f : Host → Host) (h : Host) : after (modify f) h = f h := rfl

/-- From every state the step leaves one that is related to it. -/
def Within (R : Host → Host → Prop) (m : Step α) : Prop := ∀ h, R h (m.after h)

end Step

namespace Attempt

def ending (m : Attempt α) (h : Host) : Except Fault α × Host := StateT.run (ExceptT.run m) h

def outcome (m : Attempt α) (h : Host) : Except Fault α := (m.ending h).1

def after (m : Attempt α) (h : Host) : Host := (m.ending h).2

def Yields (m : Attempt α) (h : Host) (a : α) (h' : Host) : Prop := m.ending h = (.ok a, h')

def Fails (m : Attempt α) (h : Host) (fault : Fault) (h' : Host) : Prop :=
  m.ending h = (.error fault, h')

variable {m : Attempt α} {k : α → Attempt β} {h h' : Host} {a : α} {b : β} {fault : Fault}

theorem yields_iff : m.Yields h a h' ↔ m.outcome h = .ok a ∧ m.after h = h' := Prod.ext_iff

theorem fails_iff : m.Fails h fault h' ↔ m.outcome h = .error fault ∧ m.after h = h' :=
  Prod.ext_iff

theorem Yields.after_eq (yields : m.Yields h a h') : m.after h = h' := (yields_iff.1 yields).2

theorem Fails.after_eq (fails : m.Fails h fault h') : m.after h = h' := (fails_iff.1 fails).2

theorem Yields.unique {c : α} {mid : Host} (one : m.Yields h a h') (other : m.Yields h c mid) :
    a = c ∧ h' = mid := by
  have both := one.symm.trans other
  simpa using both

theorem yields_or_fails (m : Attempt α) (h : Host) :
    (∃ a, m.Yields h a (m.after h)) ∨ ∃ fault, m.Fails h fault (m.after h) := by
  cases found : m.outcome h with
  | ok a => exact Or.inl ⟨a, yields_iff.2 ⟨found, rfl⟩⟩
  | error fault => exact Or.inr ⟨fault, fails_iff.2 ⟨found, rfl⟩⟩

theorem yields_of_toOption (some : (m.outcome h).toOption = some a) :
    m.Yields h a (m.after h) := by
  rcases yields_or_fails m h with ⟨b, run⟩ | ⟨fault, run⟩
  · rw [(yields_iff.1 run).1] at some
    cases some
    exact run
  · rw [(fails_iff.1 run).1] at some
    cases some

theorem fails_of_toOption (none : (m.outcome h).toOption = none) :
    ∃ fault, m.Fails h fault (m.after h) := by
  rcases yields_or_fails m h with ⟨b, run⟩ | failed
  · rw [(yields_iff.1 run).1] at none
    cases none
  · exact failed

theorem ending_bind (m : Attempt α) (k : α → Attempt β) (h : Host) :
    (m >>= k).ending h =
      match m.outcome h with
      | .ok a => (k a).ending (m.after h)
      | .error fault => (.error fault, m.after h) := by
  show StateT.run (ExceptT.bindCont k (m.outcome h)) (m.after h) = _
  cases m.outcome h <;> rfl

@[simp] theorem ending_pure (a : α) (h : Host) : (pure a : Attempt α).ending h = (.ok a, h) := rfl

@[simp] theorem ending_lift (m : Step α) (h : Host) :
    (liftM m : Attempt α).ending h = (.ok (m.value h), m.after h) := rfl

theorem ending_bind_pure (m : Attempt α) (b : β) (h : Host) :
    (m >>= fun _ => pure b).ending h = ((m.outcome h).map fun _ => b, m.after h) := by
  rw [ending_bind]
  cases m.outcome h <;> rfl

@[simp] theorem ending_get_bind (k : Host → Attempt β) (h : Host) :
    ((get : Attempt Host) >>= k).ending h = (k h).ending h := by
  rw [ending_bind]
  rfl

@[simp] theorem ending_lift_bind (m : Step α) (k : α → Attempt β) (h : Host) :
    ((liftM m : Attempt α) >>= k).ending h = (k (m.value h)).ending (m.after h) := by
  rw [ending_bind]
  rfl

@[simp] theorem after_get_bind (k : Host → Attempt β) (h : Host) :
    ((get : Attempt Host) >>= k).after h = (k h).after h := by
  rw [after, ending_get_bind]
  rfl

@[simp] theorem after_lift_bind (m : Step α) (k : α → Attempt β) (h : Host) :
    ((liftM m : Attempt α) >>= k).after h = (k (m.value h)).after (m.after h) := by
  rw [after, ending_lift_bind]
  rfl

theorem ending_bind_congr {m' : Attempt α} (same : m.ending h = m'.ending h')
    (k : α → Attempt β) : (m >>= k).ending h = (m' >>= k).ending h' := by
  rw [ending_bind, ending_bind]
  unfold outcome after
  rw [same]

theorem Yields.ending_bind (first : m.Yields h a h') (k : α → Attempt β) :
    (m >>= k).ending h = (k a).ending h' := by
  obtain ⟨gives, leaves⟩ := yields_iff.1 first
  rw [Attempt.ending_bind, gives, leaves]

theorem Fails.ending_bind (first : m.Fails h fault h') (k : α → Attempt β) :
    (m >>= k).ending h = (.error fault, h') := by
  obtain ⟨gives, leaves⟩ := fails_iff.1 first
  rw [Attempt.ending_bind, gives, leaves]

theorem after_bind (m : Attempt α) (k : α → Attempt β) (h : Host) :
    (m >>= k).after h =
      match m.outcome h with
      | .ok a => (k a).after (m.after h)
      | .error _ => m.after h := by
  rw [after, ending_bind]
  cases m.outcome h <;> rfl

theorem yields_bind :
    (m >>= k).Yields h b h' ↔ ∃ a mid, m.Yields h a mid ∧ (k a).Yields mid b h' := by
  constructor
  · intro run
    rw [Yields, ending_bind] at run
    cases found : m.outcome h with
    | ok a => exact ⟨a, m.after h, yields_iff.2 ⟨found, rfl⟩, by rwa [found] at run⟩
    | error fault => simp [found] at run
  · rintro ⟨a, mid, first, second⟩
    obtain ⟨gives, leaves⟩ := yields_iff.1 first
    rw [Yields, ending_bind, gives, leaves]
    exact second

theorem fails_bind :
    (m >>= k).Fails h fault h' ↔
      m.Fails h fault h' ∨ ∃ a mid, m.Yields h a mid ∧ (k a).Fails mid fault h' := by
  constructor
  · intro run
    rw [Fails, ending_bind] at run
    cases found : m.outcome h with
    | ok a =>
      exact Or.inr ⟨a, m.after h, yields_iff.2 ⟨found, rfl⟩, by rwa [found] at run⟩
    | error other =>
      simp only [found, Prod.mk.injEq, Except.error.injEq] at run
      exact Or.inl (fails_iff.2 ⟨by rw [found, run.1], run.2⟩)
  · rintro (first | ⟨a, mid, first, second⟩)
    · obtain ⟨gives, leaves⟩ := fails_iff.1 first
      rw [Fails, ending_bind, gives, leaves]
    · obtain ⟨gives, leaves⟩ := yields_iff.1 first
      rw [Fails, ending_bind, gives, leaves]
      exact second

theorem yields_pure {c : α} : (pure a : Attempt α).Yields h c h' ↔ a = c ∧ h = h' := by
  show ((Except.ok a, h) : Except Fault α × Host) = (.ok c, h') ↔ _
  simp

theorem yields_lift {m : Step α} :
    (liftM m : Attempt α).Yields h a h' ↔ m.value h = a ∧ m.after h = h' := by
  show ((Except.ok (m.value h), m.after h) : Except Fault α × Host) = (.ok a, h') ↔ _
  simp

theorem yields_get {c : Host} : (get : Attempt Host).Yields h c h' ↔ h = c ∧ h = h' := by
  show ((Except.ok h, h) : Except Fault Host × Host) = (.ok c, h') ↔ _
  simp

theorem ending_tryCatch (m : Attempt α) (handler : Fault → Attempt α) (h : Host) :
    Attempt.ending (tryCatch m handler) h =
      match m.outcome h with
      | .ok a => (.ok a, m.after h)
      | .error fault => (handler fault).ending (m.after h) := by
  cases found : m.ending h with
  | mk result mid =>
    have run : StateT.run m h = (result, mid) := found
    show StateT.run (ExceptT.tryCatch m handler) h = _
    unfold ExceptT.tryCatch ExceptT.mk
    rw [StateT.run_bind, run, outcome, after, found]
    cases result <;> rfl

theorem yields_tryCatch {handler : Fault → Attempt α} :
    Attempt.Yields (tryCatch m handler) h a h' ↔
      m.Yields h a h' ∨ ∃ fault mid, m.Fails h fault mid ∧ (handler fault).Yields mid a h' := by
  constructor
  · intro run
    rw [Yields, ending_tryCatch] at run
    cases found : m.outcome h with
    | ok c =>
      simp only [found, Prod.mk.injEq, Except.ok.injEq] at run
      exact Or.inl (yields_iff.2 ⟨by rw [found, run.1], run.2⟩)
    | error fault =>
      exact Or.inr ⟨fault, m.after h, fails_iff.2 ⟨found, rfl⟩, by rwa [found] at run⟩
  · rintro (first | ⟨fault, mid, first, second⟩)
    · obtain ⟨gives, leaves⟩ := yields_iff.1 first
      rw [Yields, ending_tryCatch, gives, leaves]
    · obtain ⟨gives, leaves⟩ := fails_iff.1 first
      rw [Yields, ending_tryCatch, gives, leaves]
      exact second

def Within (R : Host → Host → Prop) (m : Attempt α) : Prop := ∀ h, R h (m.after h)

theorem Within.leaves {R : Host → Host → Prop} (within : m.Within R) (leaves : m.after h = h') :
    R h h' := leaves ▸ within h

theorem within_lift {R : Host → Host → Prop} {m : Step α} (step : m.Within R) :
    Within R (liftM m) := fun h => by
  have leaves : (liftM m : Attempt α).after h = m.after h := (yields_lift.2 ⟨rfl, rfl⟩).after_eq
  rw [leaves]
  exact step h

end Attempt

/-- A relation between states that holds along any course of them. -/
class Course (R : Host → Host → Prop) : Prop where
  refl : ∀ h, R h h
  trans : ∀ {h mid h'}, R h mid → R mid h' → R h h'

section Course

variable {R : Host → Host → Prop} [Course R]

namespace Step

theorem within_pure (a : α) : Within R (pure a) := fun h => Course.refl h

theorem within_get : Within R get := fun h => Course.refl h

theorem within_bind {m : Step α} {k : α → Step β} (first : Within R m)
    (rest : ∀ a, Within R (k a)) : Within R (m >>= k) :=
  fun h => Course.trans (first h) (rest _ _)

end Step

namespace Attempt

theorem within_pure (a : α) : Within R (pure a) := fun h => Course.refl h

theorem within_get : Within R get := fun h => Course.refl h

theorem within_throw (fault : Fault) : Within R (throw fault : Attempt α) :=
  fun h => Course.refl h

theorem leaves_bind_after {m : Attempt α} {k : α → Attempt β} {h : Host} (first : R h (m.after h))
    (rest : R h (m.after h) → ∀ a, R (m.after h) ((k a).after (m.after h))) :
    R h ((m >>= k).after h) := by
  rw [after_bind]
  cases m.outcome h with
  | ok a => exact Course.trans first (rest first a)
  | error fault => exact first

theorem leaves_bind {m : Attempt α} {k : α → Attempt β} {h : Host} (first : R h (m.after h))
    (rest : ∀ a, (k a).Within R) : R h ((m >>= k).after h) :=
  leaves_bind_after first fun _ a => rest a _

theorem within_bind {m : Attempt α} {k : α → Attempt β} (first : m.Within R)
    (rest : ∀ a, (k a).Within R) : Within R (m >>= k) :=
  fun h => leaves_bind (first h) rest

theorem leaves_tryCatch {m : Attempt α} {handler : Fault → Attempt α} {h : Host}
    (first : R h (m.after h)) (rest : ∀ fault, (handler fault).Within R) :
    R h (Attempt.after (tryCatch m handler) h) := by
  rw [after, ending_tryCatch]
  cases m.outcome h with
  | ok a => exact first
  | error fault => exact Course.trans first (rest fault _)

theorem within_tryCatch {m : Attempt α} {handler : Fault → Attempt α} (first : Within R m)
    (rest : ∀ fault, (handler fault).Within R) : Attempt.Within R (tryCatch m handler) :=
  fun h => leaves_tryCatch (first h) rest

end Attempt

end Course

section Primitives

variable (h : Host) (u : UrlRef) (e : ExporterRef)

@[simp] theorem value_getUrl : (getUrl u).value h = h.urls.get u := rfl

@[simp] theorem after_getUrl : (getUrl u).after h = h := rfl

@[simp] theorem after_modifyUrl (f : Url → Url) :
    (modifyUrl u f).after h = { h with urls := h.urls.modify u f } := rfl

@[simp] theorem value_addExporter (a : Exporter) :
    (addExporter a).value h = h.exporters.fresh := rfl

@[simp] theorem after_addExporter (a : Exporter) :
    (addExporter a).after h = { h with exporters := h.exporters.add a } := rfl

@[simp] theorem after_modifyExporter (f : Exporter → Exporter) :
    (modifyExporter e f).after h = { h with exporters := h.exporters.modify e f } := rfl

@[simp] theorem after_modifyServer (s : ServerRef) (f : Server → Server) :
    (modifyServer s f).after h = { h with servers := h.servers.modify s f } := rfl

@[simp] theorem after_modifyBackend (b : BackendRef) (f : Backend → Backend) :
    (modifyBackend b f).after h = { h with backends := h.backends.modify b f } := rfl

/-- An access is a line in the log, whatever it tells of how long the call took. -/
theorem exists_logAccess (info : String) (answer : Option Response) :
    ∃ pieces, StateT.run (logAccess info answer) h = StateT.run (writeLog .info pieces) h :=
  ⟨_, Step.run_get_bind _ h⟩

end Primitives

end RpcHost
