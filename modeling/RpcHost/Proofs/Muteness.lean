import RpcHost.Proofs.Layers
import RpcHost.Proofs.Runs
/-!
Which answers say nothing. A method is checked against its declared type of result, and a method
that may return anything may also return nothing: then the answer has neither a result nor a
failure. Every other answer has one of them, whatever filters it went through.
-/
namespace RpcHost

open Host

variable {r : Request} {v : Except Fault Response} {methods : Store .methods MethodTable}

def Method.Settles (m : Method) (given : Json) : Prop :=
  ∀ fault, m.run given = .error fault → ∃ failure, fault = .refusal failure

/-- The method may return anything, and returns nothing to the request. -/
structure Method.Mute (m : Method) (r : Request) : Prop where
  fits : m.offendingParam? r.parameters = none
  returns : m.returns = .any
  null : m.run r.parameters = .ok .null

def Request.Unanswered (r : Request) (methods : Store .methods MethodTable)
    (table? : Option MethodsRef) : Prop :=
  ∃ table m, table? = some table ∧ (methods.get table).find? r.method.value = some m ∧ m.Mute r

/-- The call ends in an answer that has neither a result nor a failure. -/
def Hollow (v : Except Fault Response) : Prop :=
  ∃ answer, v = .ok answer ∧ answer.isComplete = false

theorem hollow_ok (answer : Response) : Hollow (.ok answer) ↔ answer.isComplete = false := by
  simp [Hollow]

theorem not_hollow_error (fault : Fault) : ¬Hollow (.error fault) := by
  rintro ⟨_, same, _⟩
  cases same

theorem not_hollow_ofFailure (rid : String) (f : Failure) : ¬Hollow (.ok (.ofFailure rid f)) := by
  rw [hollow_ok, Response.isComplete_ofFailure]
  decide

theorem ValueType.admits_null_iff (t : ValueType) : t.admits .null = true ↔ t = .any := by
  cases t <;> decide

theorem Response.isComplete_ofResult (rid : String) (result : Json) :
    (ofResult rid result).isComplete = !result.isNull := Bool.or_false _

theorem Json.isNull_iff (v : Json) : v.isNull = true ↔ v = .null := by
  cases v <;> simp [isNull]

theorem Method.hollow_reply_iff (m : Method) (name : String) (r : Request) :
    Hollow (m.reply name r) ↔ m.Mute r := by
  unfold reply
  cases fits : m.offendingParam? r.parameters with
  | some field =>
    refine iff_of_false (not_hollow_ofFailure _ _) fun mute => ?_
    rw [mute.fits] at fits
    cases fits
  | none =>
    cases ran : m.run r.parameters with
    | error fault =>
      have loud : ¬m.Mute r := fun mute => by
        rw [mute.null] at ran
        cases ran
      cases fault with
      | refusal failure => exact iff_of_false (not_hollow_ofFailure _ _) loud
      | _ => exact iff_of_false (not_hollow_error _) loud
    | ok result =>
      have mute_iff : m.Mute r ↔ m.returns = .any ∧ result = .null := by
        refine ⟨fun mute => ⟨mute.returns, ?_⟩, fun ⟨returns, null⟩ => ⟨fits, returns, null ▸ ran⟩⟩
        have null := mute.null
        rw [ran] at null
        exact Except.ok.inj null
      rw [mute_iff]
      dsimp only
      split
      · rename_i admitted
        rw [hollow_ok, Response.isComplete_ofResult, Bool.not_eq_false', Json.isNull_iff]
        refine ⟨fun null => ⟨?_, null⟩, And.right⟩
        rw [null] at admitted
        exact (ValueType.admits_null_iff _).1 admitted
      · rename_i refused
        refine iff_of_false (not_hollow_ofFailure _ _) fun ⟨returns, null⟩ => refused ?_
        rw [null]
        exact (ValueType.admits_null_iff _).2 returns

theorem Request.hollow_reply_iff (r : Request) (methods : Store .methods MethodTable)
    (path : String) (table? : Option MethodsRef) :
    Hollow (r.reply methods path table?) ↔ r.Unanswered methods table? := by
  unfold reply Unanswered
  cases table? with
  | none => exact iff_of_false (not_hollow_ofFailure _ _) (by simp)
  | some table =>
    dsimp only
    cases found : (methods.get table).find? r.method.value with
    | none => exact iff_of_false (not_hollow_ofFailure _ _) (by simp [found])
    | some m => simpa [found] using m.hollow_reply_iff r.method.value r

theorem Request.reply_settles {table? : Option MethodsRef} (path : String)
    (settles : ∀ table m, table? = some table →
      (methods.get table).find? r.method.value = some m → m.Settles r.parameters) :
    ∃ answer, r.reply methods path table? = .ok answer := by
  cases table? with
  | none => exact ⟨_, rfl⟩
  | some table =>
    unfold reply
    dsimp only
    cases found : (methods.get table).find? r.method.value with
    | none => exact ⟨_, rfl⟩
    | some m =>
      dsimp only
      unfold Method.reply
      split
      · exact ⟨_, rfl⟩
      · split
        · exact ⟨_, rfl⟩
        · rename_i other ran
          obtain ⟨failure, same⟩ := settles table m rfl found _ ran
          exact absurd same (other failure)
        · split <;> exact ⟨_, rfl⟩

def FilterKind.passes : FilterKind → Bool
  | throwing _ _ => false
  | answering _ _ => false
  | _ => true

def Clear (kinds : List FilterKind) : Prop :=
  ∀ kind ∈ kinds.takeWhile (· ≠ .terminal), kind.passes = true

theorem clear_cons {kind : FilterKind} (differ : kind ≠ .terminal) (rest : List FilterKind) :
    Clear (kind :: rest) ↔ kind.passes = true ∧ Clear rest := by
  unfold Clear
  rw [List.takeWhile_cons, if_pos (decide_eq_true differ), List.forall_mem_cons]

theorem clear_terminal (rest : List FilterKind) : Clear (.terminal :: rest) := by
  intro kind member
  simp at member

theorem FilterKind.hollow_hands_iff {kind : FilterKind} (differ : kind ≠ .terminal) (r : Request)
    (call next : Except Fault Response) :
    Hollow (kind.hands r call next) ↔ kind.passes = true ∧ Hollow next := by
  cases kind with
  | terminal => exact absurd rfl differ
  | throwing name fault => simpa [hands, passes] using not_hollow_error fault
  | answering name failure => simpa [hands, passes] using not_hollow_ofFailure r.rid failure
  | accessLog =>
    cases next with
    | error fault => exact ⟨fun hollow => ⟨rfl, hollow⟩, And.right⟩
    | ok answer =>
      have same : answer.failureSeen.isComplete = answer.isComplete := by
        unfold Response.isComplete
        rw [Response.hasFailure_failureSeen]
        rfl
      show Hollow (.ok answer.failureSeen) ↔ _
      rw [hollow_ok, hollow_ok, same]
      simp [passes]
  | _ => simp [hands, passes]

theorem Request.hollow_through_iff (r : Request) (call : Except Fault Response)
    (kinds : List FilterKind) :
    Hollow (r.through call kinds) ↔ Clear kinds ∧ Hollow call := by
  induction kinds with
  | nil => simp [through, Clear]
  | cons kind rest ih =>
    by_cases last : kind = .terminal
    · subst last
      exact ⟨fun hollow => ⟨clear_terminal rest, hollow⟩, And.right⟩
    · rw [clear_cons last, and_assoc, ← ih]
      exact kind.hollow_hands_iff last r call _

theorem Request.hollow_layered_iff (r : Request) (call : Except Fault Response)
    (chains : List (List FilterKind)) :
    Hollow (r.layered call chains) ↔ (∀ kinds ∈ chains, Clear kinds) ∧ Hollow call := by
  induction chains with
  | nil => simp [layered]
  | cons kinds rest ih =>
    rw [List.forall_mem_cons, and_assoc, ← ih]
    exact r.hollow_through_iff _ kinds

theorem hollow_settled_iff (rid : String) (hint : Int) (v : Except Fault Response) :
    (settled rid hint (v.map some)).isComplete = false ↔ Hollow v := by
  cases v with
  | error fault =>
    refine iff_of_false ?_ (not_hollow_error fault)
    cases fault <;> exact Bool.noConfusion
  | ok answer => exact (hollow_ok answer).symm

theorem handle_incomplete_iff {h : Host} {s : ServerRef} {q : RequestRef}
    (standard : ∀ p, h.reached s (h.requests.get q).service.value = some p →
      (h.backendOf p).Standard) :
    ((handle s (some q)).value h).isComplete = false ↔
      ∃ p, h.reached s (h.requests.get q).service.value = some p ∧
        Hollow (h.replyOf p (h.requests.get q)) := by
  rw [handle_replies standard]
  cases serving : (h.endpoints.get (h.servers.get s).endpoint).servingTable with
  | none =>
    refine iff_of_false Bool.noConfusion ?_
    rintro ⟨p, reached, _⟩
    unfold Host.reached at reached
    rw [serving] at reached
    cases reached
  | some t =>
    dsimp only
    cases reached : h.reached s (h.requests.get q).service.value with
    | none => exact iff_of_false Bool.noConfusion (by simp)
    | some p => simpa [answerOf] using hollow_settled_iff _ (h.hintAt p) (h.replyOf p _)

theorem hollow_replyOf_iff (h : Host) (p : ProviderRef) (r : Request) :
    Hollow (h.replyOf p r) ↔
      (∀ kinds ∈ h.kindsOf p, Clear kinds) ∧
        r.Unanswered h.methods (h.backendOf p).offered := by
  unfold Host.replyOf bareReply
  rw [Request.hollow_layered_iff, Request.hollow_reply_iff]

/-- The call of a provider without filters gives a response when its method settles, and the
response lacks both a result and a failure exactly when the method is mute. So it is with what a
server answers, where no filter ends the call before. -/
theorem incomplete_iff_mute (h : Host) :
    (∀ p q, (h.backendOf p).Standard → (h.providers.get p).layers = [] →
      (∀ table m, (h.backendOf p).offered = some table →
        (h.methods.get table).find? (h.requests.get q).method.value = some m →
        m.Settles (h.requests.get q).parameters) →
      ∃ answer, (callProvider p (some q)).outcome h = .ok (some answer) ∧
        (answer.isComplete = false ↔
          (h.requests.get q).Unanswered h.methods (h.backendOf p).offered)) ∧
    ∀ s q?, (∀ q p, q? = some q → h.reached s (h.requests.get q).service.value = some p →
        (h.backendOf p).Standard) →
      (((handle s q?).value h).isComplete = false ↔
        ∃ q p, q? = some q ∧ h.reached s (h.requests.get q).service.value = some p ∧
          (∀ kinds ∈ h.kindsOf p, Clear kinds) ∧
          (h.requests.get q).Unanswered h.methods (h.backendOf p).offered) := by
  refine ⟨fun p q standard bare settles => ?_, fun s q? standard => ?_⟩
  · have none : h.kindsOf p = [] := by
      unfold kindsOf
      rw [bare]
      rfl
    have hollow_iff := hollow_replyOf_iff h p (h.requests.get q)
    rw [callProvider_replies standard q]
    obtain ⟨answer, replies⟩ := Request.reply_settles (h.pathOf p) settles
    have ends : h.replyOf p (h.requests.get q) = .ok answer := by
      unfold Host.replyOf
      rw [none]
      exact replies
    rw [ends, none, hollow_ok] at hollow_iff
    rw [ends]
    exact ⟨answer, rfl, by simpa using hollow_iff⟩
  · cases q? with
    | none =>
      rw [handle_null]
      exact iff_of_false Bool.noConfusion (by simp)
    | some q =>
      rw [handle_incomplete_iff (standard q · rfl)]
      simp [hollow_replyOf_iff]

def Method.ping : Method := ⟨"Ping", [], .any, false, fun _ => .ok .null⟩

theorem Method.settles_ping (given : Json) : Method.ping.Settles given := by
  intro fault raised
  cases raised

def Host.voiceless : Host :=
  { furnished .builtIn .empty [⟨"mrpc", "127.0.0.1", 1, "p", "", .empty⟩] with
    methods := Store.empty.add (.ofList [("Ping", .ping)])
    backends := Store.empty.add ⟨⟨0⟩, true, .standard (some ⟨0⟩)⟩
    providers := Store.empty.add ⟨⟨0⟩, [], none⟩
    tables := Store.empty.add (.ofList [("p", ⟨0⟩)])
    endpoints := Store.empty.add ⟨⟨0⟩, some ⟨0⟩, false⟩
    servers := Store.empty.add ⟨⟨0⟩, ⟨0⟩, ⟨0⟩, .empty⟩
    requests := Store.empty.add
      { Request.empty with rid := "1", service := .text "p", method := .text "Ping" } }

theorem incomplete_iff_mute_voiceless :
    (∃ answer, (callProvider ⟨0⟩ (some ⟨0⟩)).outcome .voiceless = .ok (some answer) ∧
      answer.isComplete = false) ∧
    ((handle ⟨0⟩ (some ⟨0⟩)).value .voiceless).isComplete = false := by
  have standard : (Host.voiceless.backendOf ⟨0⟩).Standard := ⟨some ⟨0⟩, rfl⟩
  have unanswered : (Host.voiceless.requests.get ⟨0⟩).Unanswered Host.voiceless.methods
      (Host.voiceless.backendOf ⟨0⟩).offered := ⟨⟨0⟩, .ping, rfl, rfl, rfl, rfl, rfl⟩
  obtain ⟨calls, handles⟩ := incomplete_iff_mute .voiceless
  constructor
  · obtain ⟨answer, ends, incomplete⟩ := calls ⟨0⟩ ⟨0⟩ standard rfl fun table m offered found => by
      obtain rfl : ⟨0⟩ = table := Option.some.inj offered
      obtain rfl : Method.ping = m := Option.some.inj found
      exact Method.settles_ping _
    exact ⟨answer, ends, incomplete.2 unanswered⟩
  · have bare : ∀ kinds ∈ Host.voiceless.kindsOf ⟨0⟩, Clear kinds := fun _ member => nomatch member
    refine (handles ⟨0⟩ (some ⟨0⟩) fun q p same reached => ?_).2
      ⟨⟨0⟩, ⟨0⟩, rfl, rfl, bare, unanswered⟩
    obtain rfl : ⟨0⟩ = q := Option.some.inj same
    obtain rfl : ⟨0⟩ = p := Option.some.inj reached
    exact standard

/-- So a call of a method that settles can give a response that is not well formed. -/
theorem settled_call_incomplete :
    ¬∀ (h : Host) (p : ProviderRef) (q : RequestRef), (h.backendOf p).Standard →
      (h.providers.get p).layers = [] →
      (∀ table m, (h.backendOf p).offered = some table →
        (h.methods.get table).find? (h.requests.get q).method.value = some m →
        m.Settles (h.requests.get q).parameters) →
      ∃ answer, (callProvider p (some q)).outcome h = .ok (some answer) ∧
        answer.isComplete = true := by
  intro complete
  obtain ⟨answer, ends, whole⟩ := complete .voiceless ⟨0⟩ ⟨0⟩ ⟨some ⟨0⟩, rfl⟩ rfl
    fun table m offered found => by
      obtain rfl : ⟨0⟩ = table := Option.some.inj offered
      obtain rfl : Method.ping = m := Option.some.inj found
      exact Method.settles_ping _
  have gives : (callProvider ⟨0⟩ (some ⟨0⟩)).outcome .voiceless =
      .ok (some (.ofResult "1" .null)) := rfl
  rw [gives] at ends
  obtain rfl : Response.ofResult "1" .null = answer := by simpa using ends
  cases whole

end RpcHost
