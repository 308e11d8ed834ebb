import AirMonitor.Modem.Delivery
import AirMonitor.Proofs.Modem.Exchanges

/-!
Sending to peers. A round is a conversation: for each link its announcement and then the
payload, as far as the first exchange that fails (`sendToAll_spec`). What a send transmits,
returns and counts is read off the replies to it (`send_accounted`).
-/
namespace AirMonitor.Session

/-- What goes out to serve links: to each the size of the payload, with the link where
    several connections may be open, and then the payload as it is. -/
def script (mux : Bool) (payload : Bytes) (links : List UInt8) : List Bytes :=
  links.flatMap fun link =>
    let target := if mux then Numeral.decimal link.toNat ++ "," else ""
    [At.commandLine ("AT+CIPSEND=" ++ target ++ Numeral.decimal payload.length), payload]

theorem script_cons (mux : Bool) (payload : Bytes) (link : UInt8) (links : List UInt8) :
    script mux payload (link :: links) =
      At.commandLine (announcement mux link payload.length) :: payload :: script mux payload links := by
  rw [script, List.flatMap_cons, ← script, announcement]
  cases mux with
  | false =>
    simp only [Bool.false_eq_true, if_false, String.append_empty]
    rfl
  | true =>
    simp only [if_true, ← String.append_assoc]
    rfl

/-- Both exchanges with the link at a place succeeded. -/
def served (replies : List (Except At.CommError At.Response)) (place : Nat) : Bool :=
  At.succeeded replies (2 * place) && At.succeeded replies (2 * place + 1)

/-- How many of `n` links were served. -/
def servedCount (replies : List (Except At.CommError At.Response)) (n : Nat) : Nat :=
  (List.range n).countP (served replies)

theorem served_eq (responses : List At.Response) (failure : List At.CommError) (place : Nat) :
    served (responses.map .ok ++ failure.map .error) place = decide (place < responses.length / 2) := by
  rw [served, At.succeeded_eq, At.succeeded_eq, ← Bool.decide_and, decide_eq_decide]
  omega

theorem servedCount_eq (responses : List At.Response) (failure : List At.CommError) (n : Nat) :
    servedCount (responses.map .ok ++ failure.map .error) n = min n (responses.length / 2) := by
  induction n with
  | zero =>
    rw [Nat.zero_min]
    rfl
  | succ n ih =>
    rw [servedCount, List.range_succ, List.countP_append, ← servedCount, ih, List.countP_singleton, served_eq]
    by_cases more : n < responses.length / 2
    · simp only [more, decide_true, if_true]
      omega
    · simp only [more, decide_false, Bool.false_eq_true, if_false]
      omega

theorem served_iff {replies : List (Except At.CommError At.Response)} {n : Nat} :
    (∀ place < n, served replies place = true) ↔ ∀ place < 2 * n, At.succeeded replies place = true := by
  constructor
  · intro every place before
    have both := every (place / 2) (by omega)
    rw [served, Bool.and_eq_true] at both
    rcases Nat.mod_two_eq_zero_or_one place with even | odd
    · rw [show place = 2 * (place / 2) by omega]
      exact both.1
    · rw [show place = 2 * (place / 2) + 1 by omega]
      exact both.2
  · intro every place before
    rw [served, Bool.and_eq_true]
    exact ⟨every _ (by omega), every _ (by omega)⟩

/-- How a round over `n` links ends, by the replies to it. -/
inductive Accounts (n : Nat) : List (Except At.CommError At.Response) → Except SendFailure Unit → Prop
  | all (responses : List At.Response) (every : responses.length = 2 * n) : Accounts n (responses.map .ok) (.ok ())
  | short (responses : List At.Response) (cause : At.CommError) (few : responses.length < 2 * n) :
    Accounts n (responses.map .ok ++ [.error cause]) (.error ⟨n - responses.length / 2, .comm cause⟩)

section
variable {n : Nat} {replies : List (Except At.CommError At.Response)} {result : Except SendFailure Unit}

theorem Accounts.unannounced (cause : At.CommError) : Accounts (n + 1) [.error cause] (.error ⟨n + 1, .comm cause⟩) :=
  .short [] cause (by simp)

theorem Accounts.unsent (ready : At.Response) (cause : At.CommError) :
    Accounts (n + 1) [.ok ready, .error cause] (.error ⟨n + 1, .comm cause⟩) := by
  have short := Accounts.short (n := n + 1) [ready] cause (by rw [List.length_singleton]; omega)
  rwa [show n + 1 - [ready].length / 2 = n + 1 by simp] at short

theorem Accounts.link {ready accepted : At.Response} (accounts : Accounts n replies result) :
    Accounts (n + 1) (.ok ready :: .ok accepted :: replies) result := by
  cases accounts with
  | all responses every => exact .all (ready :: accepted :: responses) (by simp [every, Nat.mul_succ])
  | short responses cause few =>
    have left : n - responses.length / 2 = n + 1 - (responses.length + 2) / 2 := by omega
    rw [left]
    exact .short (ready :: accepted :: responses) cause (by simp; omega)

theorem Accounts.ok_iff (accounts : Accounts n replies result) :
    result = .ok () ↔ ∀ place < 2 * n, At.succeeded replies place = true := by
  cases accounts with
  | all responses every =>
    have each := At.succeeded_eq responses []
    rw [List.map_nil, List.append_nil] at each
    simp [each, every]
  | short responses cause few =>
    have each := At.succeeded_eq responses [cause]
    simp only [List.map_cons, List.map_nil] at each
    simp only [reduceCtorEq, each, decide_eq_true_eq, false_iff, not_forall, not_lt]
    exact ⟨responses.length, few, Nat.le_refl _⟩

theorem Accounts.unreached {failure : SendFailure} (accounts : Accounts n replies (.error failure)) :
    ∃ cause, replies.getLast? = some (.error cause) ∧ failure = ⟨n - servedCount replies n, .comm cause⟩ := by
  cases accounts with
  | short responses cause few =>
    have count := servedCount_eq responses [cause] n
    rw [Nat.min_eq_right (by omega)] at count
    refine ⟨cause, by simp, ?_⟩
    rw [← List.map_singleton, count]

end

variable {σ : Type} [Board σ] {payload : Bytes}

/-! ### Rounds -/

section
variable (small : payload.length < Nat.pow 10 17)
include small

theorem sendTo_reply (mux : Bool) (link : UInt8) (s : Session σ) :
    let line := At.commandLine (announcement mux link payload.length)
    SameOutcome (s.sendTo mux payload link)
      (match s.reply line with
      | .error cause => (.error (.comm cause), s.moved line)
      | .ok _ =>
        match (s.moved line).reply payload with
        | .error cause => (.error (.comm cause), (s.moved line).moved payload)
        | .ok _ => (.ok (), (s.moved line).moved payload)) := by
  intro line
  have short := length_announcement small mux link
  obtain ⟨t, run, alike⟩ := (exchange_reply (Nat.le_trans short (by decide)) s).shown
  rw [sendTo, if_neg (Nat.not_lt.mpr short), run]
  cases s.reply line with
  | error cause => exact ⟨rfl, alike⟩
  | ok response =>
    obtain ⟨channel, sent, after⟩ := exchangeBytes_reply payload t
    rw [alike.reply] at sent
    simp only [sent]
    cases (s.moved line).reply payload with
    | error cause => exact ⟨rfl, after.trans (alike.moved payload)⟩
    | ok response => exact ⟨rfl, after.trans (alike.moved payload)⟩

theorem sendToAll_spec (mux : Bool) (links : List UInt8) (s : Session σ) :
    ∃ result t, s.sendToAll mux payload links = (result, t) ∧ Alike t (s.conducted (script mux payload links)) ∧
      Accounts links.length (s.replies (script mux payload links)) result := by
  -- A link adds two replies to the account, or ends it with its first or its second.
  induction links generalizing s with
  | nil => exact ⟨_, s, rfl, ⟨rfl, rfl, rfl, rfl⟩, .all [] rfl⟩
  | cons link links ih =>
    obtain ⟨t, run, alike⟩ := (sendTo_reply small mux link s).shown
    rw [script_cons, sendToAll]
    cases announced : s.reply (At.commandLine (announcement mux link payload.length)) with
    | error cause =>
      simp only [announced] at run alike
      obtain ⟨replies, conducted⟩ := replies_failed announced (payload :: script mux payload links)
      rw [run, replies, conducted]
      exact ⟨_, _, rfl, alike.noted _ _, .unannounced cause⟩
    | ok ready =>
      obtain ⟨replies, conducted⟩ := replies_answered announced (payload :: script mux payload links)
      rw [replies, conducted]
      cases sent : (s.moved (At.commandLine (announcement mux link payload.length))).reply payload with
      | error cause =>
        simp only [announced, sent] at run alike
        obtain ⟨replies, conducted⟩ := replies_failed sent (script mux payload links)
        rw [run, replies, conducted]
        exact ⟨_, _, rfl, alike.noted _ _, .unsent ready cause⟩
      | ok accepted =>
        simp only [announced, sent] at run alike
        obtain ⟨replies, conducted⟩ := replies_answered sent (script mux payload links)
        obtain ⟨result, u, rest, after, accounts⟩ := ih t
        rw [run, replies, conducted, ← alike.replies]
        exact ⟨result, u, rest, after.trans (alike.conducted _), accounts.link⟩

theorem send_spec (nonempty : payload ≠ []) (peers : Peers) (s : Session σ) :
    let links := targets peers s.state
    let script := script (s.state.flags.contains .muxOn) payload links
    ∃ result t, s.send payload peers = (result.map fun _ => links.length, t) ∧ Alike t (s.conducted script) ∧
      Accounts links.length (s.replies script) result := by
  obtain ⟨result, t, run, alike, accounts⟩ :=
    sendToAll_spec small (s.state.flags.contains .muxOn) (targets peers s.state) s
  refine ⟨result, t, ?_, alike, accounts⟩
  rw [send, if_neg (by simpa using nonempty)]
  simp only [run]
  cases result <;> rfl

end

end AirMonitor.Session
