import DivoomDev.Library.Bytes

/-! Fetching a calendar over HTTP: one request after the other until one succeeds, fails for
good or the retries are used up. What the requests come to is the input of the loop; delays
between them and the log are left out. -/

namespace DivoomDev.Ics.HttpSource
open DivoomDev.Library.Bytes

/-- What the loop reads of a `cpr::Response`. -/
structure Response where
  statusCode : Int := 0
  text : Text := []
  errorMessage : Text := []
  deriving DecidableEq, Repr

structure HttpOptions where
  retries : Int := 3
  deriving DecidableEq, Repr

def transientPatterns : List String :=
  ["SSL", "ssl", "TLS", "tls", "timeout", "Timeout", "timed out", "connection refused",
    "Connection refused", "connection reset", "Connection reset", "bad record mac",
    "decryption failed", "certificate", "Certificate", "502", "503", "504"]

def isTransientError (msg : Text) : Bool := transientPatterns.any (fun pat => (find (text pat) msg).isSome)

/-- What `fetch` returns, with the number of requests it made. -/
structure Fetched where
  body : Text
  attempts : Nat
  deriving DecidableEq, Repr

/-- The loop from an attempt on, with so many passes left. -/
def fetchFrom (get : Nat → Response) : (left attempt : Nat) → Fetched
  | 0, attempt => ⟨[], attempt⟩
  | left + 1, attempt =>
      let response := get attempt
      if response.statusCode = 200 then ⟨response.text, attempt + 1⟩
      -- a client error other than "too many requests"
      else if 400 ≤ response.statusCode ∧ response.statusCode < 500 ∧ response.statusCode ≠ 429 then
        ⟨[], attempt + 1⟩
      else if !isTransientError response.errorMessage then ⟨[], attempt + 1⟩
      else fetchFrom get left (attempt + 1)

/-- `http_calendar_source::fetch`, where `get` gives the response to each attempt. -/
def fetch (opts : HttpOptions) (get : Nat → Response) : Fetched :=
  fetchFrom get (opts.retries + 1).toNat 0

theorem fetchFrom_attempts (get : Nat → Response) (left attempt : Nat) :
    (fetchFrom get left attempt).attempts ≤ attempt + left := by
  induction left generalizing attempt with
  | zero => exact Nat.le_refl _
  | succ left ih =>
    simp only [fetchFrom]
    split_ifs
    · exact Nat.add_le_add_left (Nat.le_add_left 1 left) attempt
    · exact Nat.add_le_add_left (Nat.le_add_left 1 left) attempt
    · exact Nat.add_le_add_left (Nat.le_add_left 1 left) attempt
    · have later := ih (attempt + 1)
      omega

/-! ## Responses that end the loop -/

/-- The loop does not go on to another attempt. -/
def Response.Final (response : Response) : Prop :=
  response.statusCode = 200 ∨
    (400 ≤ response.statusCode ∧ response.statusCode < 500 ∧ response.statusCode ≠ 429) ∨
    isTransientError response.errorMessage = false

instance : DecidablePred Response.Final := fun _ => inferInstanceAs (Decidable (_ ∨ _))

/-- What the loop returns where a response ends it. -/
def Response.finalText (response : Response) : Text :=
  if response.statusCode = 200 then response.text else []

theorem fetchFrom_final {get : Nat → Response} {attempt : Nat} (final : (get attempt).Final) (left : Nat) :
    (fetchFrom get (left + 1) attempt).body = (get attempt).finalText := by
  simp only [fetchFrom, Response.finalText]
  rcases final with success | client | permanent
  · rw [if_pos success, if_pos success]
  · have failed : (get attempt).statusCode ≠ 200 := by omega
    rw [if_neg failed, if_pos client, if_neg failed]
  · split_ifs
    · rfl
    · rfl
    · rfl
    · simp_all

theorem fetchFrom_goesOn {get : Nat → Response} {attempt : Nat} (goesOn : ¬(get attempt).Final) (left : Nat) :
    fetchFrom get (left + 1) attempt = fetchFrom get left (attempt + 1) := by
  simp only [Response.Final, not_or, Bool.not_eq_false] at goesOn
  simp only [fetchFrom, if_neg goesOn.1, if_neg goesOn.2.1, goesOn.2.2, Bool.not_true, if_false,
    Bool.false_eq_true]

/-- The first response that ends the loop decides what is returned. -/
theorem fetchFrom_body {get : Nat → Response} {k left : Nat} (attempt : Nat)
    (goesOn : ∀ i < k, ¬(get (attempt + i)).Final) (final : (get (attempt + k)).Final) (within : k < left) :
    (fetchFrom get left attempt).body = (get (attempt + k)).finalText := by
  obtain ⟨rest, rfl⟩ := Nat.exists_eq_add_of_lt within
  induction k generalizing attempt with
  | zero => exact fetchFrom_final final _
  | succ k ih =>
    have first : ¬(get attempt).Final := goesOn 0 (Nat.succ_pos k)
    have others : ∀ i < k, ¬(get (attempt + 1 + i)).Final := by
      intro i below
      rw [Nat.add_assoc, Nat.add_comm 1]
      exact goesOn (i + 1) (Nat.succ_lt_succ below)
    have same : attempt + 1 + k = attempt + (k + 1) := by omega
    rw [show k + 1 + rest + 1 = k + rest + 1 + 1 by omega, fetchFrom_goesOn first,
      ih (attempt + 1) others (same ▸ final) (by omega), same]

/-! ## Retryable outcomes -/

/-- What a request comes to: a transport error, possibly behind a status line and a part of the
body, or a completed exchange. -/
inductive Outcome where
  | transportError (status : Int) (received message : Text)
  | exchange (status : Int) (body : Text)
  deriving DecidableEq, Repr

/-- The error message of a completed exchange is empty. -/
def Outcome.response : Outcome → Response
  | transportError status received message => ⟨status, received, message⟩
  | exchange status body => ⟨status, body, []⟩

def Outcome.Retryable : Outcome → Prop
  | transportError _ _ message => isTransientError message = true
  | exchange status _ => status = 429 ∨ status = 502 ∨ status = 503 ∨ status = 504

instance : DecidablePred Outcome.Retryable
  | .transportError _ _ message => inferInstanceAs (Decidable (isTransientError message = true))
  | .exchange _ _ => inferInstanceAs (Decidable (_ ∨ _))

/-- A completed exchange ends the loop, whatever its status. -/
theorem exchange_final (status : Int) (body : Text) : (Outcome.exchange status body).response.Final :=
  .inr (.inr (show isTransientError [] = false by decide +kernel))

/-- Where one of the first attempts ends the loop, what it leaves happens to be the body. -/
def EndsWith (outcome : Nat → Outcome) (k : Nat) (body : Text) : Prop :=
  ∀ i < k, (outcome i).response.Final → (∀ j < i, ¬(outcome j).response.Final) →
    (outcome i).response.finalText = body

/-- Retryable outcomes are overcome exactly where none of them ends the loop, or where the first
one that does leaves the same text. -/
theorem fetch_retries_iff {opts : HttpOptions} (valid : 0 ≤ opts.retries) (outcome : Nat → Outcome) :
    ((fetch opts (fun i => (outcome i).response)).attempts : Int) ≤ opts.retries + 1 ∧
      ∀ (k : Nat) (body : Text), k ≤ opts.retries → (∀ i < k, (outcome i).Retryable) →
        outcome k = .exchange 200 body →
        ((fetch opts (fun i => (outcome i).response)).body = body ↔ EndsWith outcome k body) := by
  apply And.intro
  · have bound := fetchFrom_attempts (fun i => (outcome i).response) (opts.retries + 1).toNat 0
    simp only [fetch]
    omega
  · intro k body within _ success
    -- the first response that ends the loop comes with attempt k at the latest
    have atK : (outcome k).response.Final := success ▸ exchange_final 200 body
    have ends : ∃ i, (outcome i).response.Final := ⟨k, atK⟩
    have first : ∀ j < Nat.find ends, ¬(outcome j).response.Final := fun j below => Nat.find_min ends below
    have notLater : Nat.find ends ≤ k := Nat.find_le atK
    have returned : (fetch opts (fun i => (outcome i).response)).body =
        (outcome (Nat.find ends)).response.finalText := by
      have found : (fetchFrom (fun i => (outcome i).response) (opts.retries + 1).toNat 0).body =
          (outcome (0 + Nat.find ends)).response.finalText :=
        fetchFrom_body 0 (by simpa using first) (by simpa using Nat.find_spec ends) (by omega)
      simpa only [fetch, Nat.zero_add] using found
    rw [returned]
    apply Iff.intro
    · intro same i below final before
      have here : Nat.find ends = i :=
        (Nat.find_eq_iff ends).mpr ⟨final, before⟩
      exact here ▸ same
    · intro endsWith
      rcases Nat.lt_or_eq_of_le notLater with early | late
      · exact endsWith _ early (Nat.find_spec ends) first
      · rw [late, success]
        rfl

def calendarBehind (first : Outcome) (attempt : Nat) : Outcome :=
  if attempt = 0 then first else .exchange 200 (text "BEGIN:VCALENDAR")

theorem fetch_retries_iff_timeout :
    let outcome := calendarBehind (.transportError 0 [] (text "Connection timeout"))
    (fetch {} (fun i => (outcome i).response)).body = text "BEGIN:VCALENDAR" ↔
      EndsWith outcome 1 (text "BEGIN:VCALENDAR") :=
  (fetch_retries_iff (show 0 ≤ ({} : HttpOptions).retries by decide) _).2 1 _ (by decide) (by decide +kernel)
    (by decide)

/-- The retry behind a 503 would have brought the calendar, and is not made. -/
theorem overloaded_not_retried :
    ¬∀ (opts : HttpOptions) (outcome : Nat → Outcome) (k : Nat) (body : Text), 0 ≤ opts.retries →
      k ≤ opts.retries → (∀ i < k, (outcome i).Retryable) → outcome k = .exchange 200 body →
      (fetch opts (fun i => (outcome i).response)).body = body := by
  intro always
  have brought := always {} (calendarBehind (.exchange 503 [])) 1 (text "BEGIN:VCALENDAR") (by decide)
    (by decide) (by intro i below; obtain rfl := Nat.lt_one_iff.mp below; exact .inr (.inr (.inl rfl)))
    (by decide)
  exact absurd brought (by decide +kernel)

end DivoomDev.Ics.HttpSource
