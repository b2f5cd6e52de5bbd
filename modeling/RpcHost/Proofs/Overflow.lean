import RpcHost.Demo
import RpcHost.Proofs.Arithmetic
import RpcHost.Proofs.Continuity
import RpcHost.Proofs.Muteness
/-!
What becomes of a request for the calculator that passed the declared check. The check asks for a
whole number, and the methods for one of 32 bits. Between the two lies a conversion fault that
nobody declared, and what the caller hears of it is that the call panicked.
-/
namespace RpcHost

open Host

variable {h : Host} {s : ServerRef} {p : ProviderRef} {q : RequestRef} {m : Method}

theorem FilterKind.seen_hands {kind : FilterKind} (differ : kind ≠ .terminal)
    (passes : kind.passes = true) (r : Request) (call next : Except Fault Response) :
    (kind.hands r call next).map Response.failureSeen = next.map Response.failureSeen := by
  cases kind with
  | terminal => exact absurd rfl differ
  | throwing => cases passes
  | answering => cases passes
  | accessLog =>
    cases next with
    | error fault => rfl
    | ok answer => exact congrArg Except.ok answer.failureSeen_failureSeen
  | _ => rfl

theorem Request.seen_through {kinds : List FilterKind} (clear : Clear kinds) (r : Request)
    (call : Except Fault Response) :
    (r.through call kinds).map Response.failureSeen = call.map Response.failureSeen := by
  induction kinds with
  | nil => rfl
  | cons kind rest ih =>
    by_cases last : kind = .terminal
    · subst last
      rfl
    · obtain ⟨passes, clear⟩ := (clear_cons last rest).1 clear
      rw [← ih clear]
      exact kind.seen_hands last passes r call _

theorem Request.seen_layered {chains : List (List FilterKind)}
    (clear : ∀ kinds ∈ chains, Clear kinds) (r : Request) (call : Except Fault Response) :
    (r.layered call chains).map Response.failureSeen = call.map Response.failureSeen := by
  induction chains with
  | nil => rfl
  | cons kinds rest ih =>
    obtain ⟨first, others⟩ := List.forall_mem_cons.1 clear
    rw [← ih others]
    exact r.seen_through first _

theorem seen_settled (rid : String) (hint : Int) (v : Except Fault Response) :
    (settled rid hint (v.map some)).failureSeen =
      (settled rid hint ((v.map Response.failureSeen).map some)).failureSeen := by
  cases v with
  | error fault => rfl
  | ok answer =>
    exact congrArg (fun seen : Response => { seen with gzipSize := some (hintOf hint) })
      answer.failureSeen_failureSeen.symm

theorem Host.seen_answerOf (clear : ∀ kinds ∈ h.kindsOf p, Clear kinds) (r : Request) :
    (h.answerOf p r).failureSeen =
      (settled r.rid (h.hintAt p) ((h.bareReply p r).map some)).failureSeen := by
  have seen : (h.replyOf p r).map Response.failureSeen = _ := r.seen_layered clear _
  unfold Host.answerOf
  rw [seen_settled, seen, ← seen_settled]

theorem handle_reached (reaches : h.reached s (h.requests.get q).service.value = some p)
    (standard : (h.backendOf p).Standard) :
    (handle s (some q)).value h = h.answerOf p (h.requests.get q) := by
  rw [handle_replies]
  · cases serving : (h.endpoints.get (h.servers.get s).endpoint).servingTable with
    | none =>
      simp [Host.reached, serving] at reaches
    | some t => simp only [reaches]
  · intro other found
    rw [reaches] at found
    cases found
    exact standard

/-- What a caller learns of how the calculator ended: a whole number, or a refusal. -/
def Response.Counts (answer : Response) : Prop :=
  (answer.hasFailure = false ∧ ∃ n, answer.resultValue = .int n) ∨
    (answer.hasFailure = true ∧ ∃ message, answer.failure.value = ⟨400, message, .business⟩)

theorem Response.counts_seen (answer : Response) : answer.failureSeen.Counts ↔ answer.Counts := by
  simp [Counts, failureSeen, hasFailure, resultValue]

theorem Response.Counts.not_panic {answer : Response} (counts : answer.Counts) :
    answer.failure.value ≠ .panic := by
  rcases counts with ⟨sound, -⟩ | ⟨-, message, refused⟩
  · unfold hasFailure at sound
    cases failure : answer.failure with
    | failure f => simp [failure, FailureMember.isFailure] at sound
    | _ => exact fun same => by cases same
  · rw [refused]
    exact fun same => by cases same

namespace Calculator

variable {a b : Int} {name : String} {given : Json}

theorem run_cases (found : methods.find? name = some m) (gives : given.Gives a b) :
    (Fits a ∧ Fits b ∧ ((∃ n, m.run given = .ok (.int n)) ∨
      ∃ message, m.run given = .error (refuse message))) ∨
    (¬(Fits a ∧ Fits b) ∧ m.run given = .error .conversion) := by
  by_cases fits : Fits a ∧ Fits b
  · refine .inl ⟨fits.1, fits.2, ?_⟩
    rcases find?_methods_cases found with ⟨-, rfl⟩ | ⟨-, rfl⟩
    · exact .inl ⟨_, (addition_of_gives gives).trans (if_pos fits)⟩
    · have divides : (method "Div" division).run given = _ :=
        (division_of_gives gives).trans (if_pos fits)
      rw [divides]
      by_cases zero : b = 0
      · exact .inr ⟨_, if_pos zero⟩
      · rw [if_neg zero]
        by_cases least : a = Json.minInt32 ∧ b = -1
        · exact .inr ⟨_, if_pos least⟩
        · exact .inl ⟨_, if_neg least⟩
  · refine .inr ⟨fits, ?_⟩
    rcases find?_methods_cases found with ⟨-, rfl⟩ | ⟨-, rfl⟩
    · exact (addition_of_gives gives).trans (if_neg fits)
    · exact (division_of_gives gives).trans (if_neg fits)

theorem settles_iff (found : methods.find? name = some m) (gives : given.Gives a b) :
    m.Settles given ↔ Fits a ∧ Fits b := by
  unfold Method.Settles
  rcases run_cases found gives with ⟨left, right, ⟨n, runs⟩ | ⟨message, runs⟩⟩ | ⟨overflows, runs⟩
  · simp [runs, left, right]
  · simp [runs, left, right, refuse]
  · simp [runs, overflows]

theorem reply_counts {q : Request} (found : methods.find? name = some m)
    (admitted : m.offendingParam? q.parameters = none) (gives : q.parameters.Gives a b) :
    (Fits a ∧ Fits b ∧ ∃ answer, m.reply name q = .ok answer ∧ answer.Counts) ∨
      (¬(Fits a ∧ Fits b) ∧ m.reply name q = .error .conversion) := by
  unfold Method.reply
  rw [admitted]
  rcases run_cases found gives with ⟨left, right, ⟨n, runs⟩ | ⟨message, runs⟩⟩ | ⟨overflows, runs⟩
  · rw [runs]
    exact .inl ⟨left, right, _, if_pos (admits_int found n), .inl ⟨rfl, n, rfl⟩⟩
  · rw [runs]
    exact .inl ⟨left, right, _, rfl, .inr ⟨rfl, message, rfl⟩⟩
  · rw [runs]
    exact .inr ⟨overflows, rfl⟩

end Calculator

/-- The request gets as far as the calculator, is for one of its methods and passes the check of
its operands. No filter is in the way. -/
structure Calculator.Asked (h : Host) (s : ServerRef) (p : ProviderRef) (q : RequestRef)
    (m : Method) : Prop where
  reaches : h.reached s (h.requests.get q).service.value = some p
  clear : ∀ kinds ∈ h.kindsOf p, Clear kinds
  calculates : ∃ table, (h.backendOf p).offered = some table ∧
    h.methods.get table = Calculator.methods
  found : Calculator.methods.find? (h.requests.get q).method.value = some m
  admitted : m.offendingParam? (h.requests.get q).parameters = none

theorem Calculator.Asked.gives (asked : Calculator.Asked h s p q m) :
    ∃ a b, (h.requests.get q).parameters.Gives a b := by
  obtain ⟨-, -, -, found, admitted⟩ := asked
  rcases Calculator.find?_methods_cases found with ⟨-, rfl⟩ | ⟨-, rfl⟩
  · exact Calculator.gives_of_admitted admitted
  · exact Calculator.gives_of_admitted admitted

theorem Calculator.Asked.seen_handle (asked : Calculator.Asked h s p q m) :
    ((handle s (some q)).value h).failureSeen =
      (settled (h.requests.get q).rid (h.hintAt p)
        ((m.reply (h.requests.get q).method.value (h.requests.get q)).map some)).failureSeen := by
  obtain ⟨reaches, clear, ⟨table, offered, calculates⟩, found, -⟩ := asked
  rw [handle_reached reaches (Backend.standard_of_offered offered),
    ← Host.bareReply_of_method offered calculates found]
  exact seen_answerOf clear _

/-- The operands of a request that passed the check are whole numbers. Where both have 32 bits, the
method ends in a result or a refusal, and so does the call. Otherwise the method ends in a fault
that is no refusal, and the call is answered by a panic. -/
theorem handle_panics_iff (asked : Calculator.Asked h s p q m) :
    ∃ a b, (h.requests.get q).parameters.Gives a b ∧
      (m.Settles (h.requests.get q).parameters ↔ Calculator.Fits a ∧ Calculator.Fits b) ∧
      (((handle s (some q)).value h).Counts ↔ Calculator.Fits a ∧ Calculator.Fits b) ∧
      (((handle s (some q)).value h).failure.value = .panic ↔
        ¬(Calculator.Fits a ∧ Calculator.Fits b)) := by
  obtain ⟨a, b, gives⟩ := asked.gives
  refine ⟨a, b, gives, Calculator.settles_iff asked.found gives, ?_⟩
  have seen := asked.seen_handle
  rcases Calculator.reply_counts asked.found asked.admitted gives with
    ⟨left, right, answer, replies, counts⟩ | ⟨overflows, faults⟩
  · have counted : ((handle s (some q)).value h).Counts := by
      rw [← Response.counts_seen, seen, replies, Response.counts_seen]
      exact counts
    have fits := And.intro left right
    exact ⟨iff_of_true counted fits, iff_of_false counted.not_panic (not_not_intro fits)⟩
  · have panicked : ((handle s (some q)).value h).failure.value = .panic := by
      rw [← FailureMember.value_seen]
      rw [faults] at seen
      exact congrArg (fun answer => answer.failure.value) seen
    exact ⟨iff_of_false (fun counts => counts.not_panic panicked) overflows,
      iff_of_true panicked overflows⟩

def Request.excessive : Request :=
  { empty with
    rid := "1", service := .text "calculator", method := .text "Add"
    params := some (Demo.operands 2147483648 1) }

def Host.installed : Host :=
  (newServer ⟨0⟩ ⟨0⟩ ⟨1⟩).after
    { sample with
      methods := Store.empty.add Calculator.methods
      requests := Store.empty.add .excessive }

def Host.calculating : Host := (exportService ⟨0⟩ ⟨2⟩ (some (.methods ⟨0⟩))).after installed

theorem Host.steady_calculating : installed.Steady ⟨0⟩ calculating :=
  exportService_steady ⟨2⟩ (some (.methods ⟨0⟩)) (newServer_coherent ⟨0⟩ ⟨0⟩ ⟨1⟩ _)
    ⟨Nat.zero_lt_one, rfl⟩

theorem Host.requests_calculating : calculating.requests.get ⟨0⟩ = .excessive :=
  congrArg (·.get ⟨0⟩) steady_calculating.requests

theorem Host.asked_calculating :
    Calculator.Asked calculating ⟨0⟩ ⟨1⟩ ⟨0⟩ (Calculator.method "Add" Calculator.addition) := by
  have methods : calculating.methods.get ⟨0⟩ = Calculator.methods :=
    congrArg (·.get ⟨0⟩) steady_calculating.methods
  obtain ⟨reaches, offered, kinds⟩ : calculating.reached ⟨0⟩ "calculator" = some ⟨1⟩ ∧
      (calculating.backendOf ⟨1⟩).offered = some ⟨0⟩ ∧
      calculating.kindsOf ⟨1⟩ = [[.terminal]] := by decide +kernel
  refine ⟨?_, ?_, ⟨⟨0⟩, offered, methods⟩, ?_, ?_⟩
  · rw [requests_calculating]
    exact reaches
  · rw [kinds]
    simp [clear_terminal]
  · rw [requests_calculating]
    exact Calculator.find?_methods_add
  · rw [requests_calculating]
    rfl

/-- The first operand is the least that does not fit. -/
theorem handle_panics_iff_excessive :
    ((handle ⟨0⟩ (some ⟨0⟩)).value .calculating).failure.value = .panic := by
  obtain ⟨a, b, gives, -, -, panics⟩ := handle_panics_iff Host.asked_calculating
  refine panics.2 fun fits => ?_
  rw [Host.requests_calculating] at gives
  obtain rfl : 2147483648 = a := Option.some.inj gives.left
  exact absurd fits.1 (by decide)

/-- So a method of the calculator can end in a fault although its operands passed the check. -/
theorem admitted_call_panics :
    ¬∀ h s p q m, Calculator.Asked h s p q m →
      m.Settles (h.requests.get q).parameters ∧
        ((handle s (some q)).value h).failure.value ≠ .panic := by
  intro sound
  obtain ⟨settles, -⟩ := sound _ _ _ _ _ Host.asked_calculating
  rw [Host.requests_calculating] at settles
  obtain ⟨failure, same⟩ := settles .conversion rfl
  cases same

end RpcHost
