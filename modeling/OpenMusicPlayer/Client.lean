import Mathlib.Data.List.Basic

/-!
# The MusicBrainz client: responses, errors and the retry loop

`get` sends a request once per turn of its loop. Each send consumes the next
outcome of the transport: an error, or a response whose body arrives whole or
breaks off. A 503 sends the loop round again after a backoff sleep, at most
`maxRetries` times; every other outcome ends it. Durations and instants are
counted in nanoseconds, as `Duration` and `Instant` count them.
-/

namespace OpenMusicPlayer

/-! ## Constants -/

def fromSecs (s : Nat) : Nat := s * 1000000000

def rateLimitInterval : Nat := fromSecs 1

def maxRetries : Nat := 3

def initialBackoff : Nat := fromSecs 1

theorem rateLimitInterval_pos : 0 < rateLimitInterval := by decide

/-! ## Responses -/

structure Response (ε : Type) where
  status : UInt16
  body : Except ε (List UInt8)

def isSuccess (s : UInt16) : Bool := 200 ≤ s && s < 300

theorem isSuccess_iff (s : UInt16) : isSuccess s = true ↔ 200 ≤ s.toNat ∧ s.toNat ≤ 299 := by
  simp only [isSuccess, Bool.and_eq_true, decide_eq_true_eq, UInt16.le_def, UInt16.lt_def,
    BitVec.le_def, BitVec.lt_def, UInt16.toNat]
  simp; omega

/-- What the code takes from `serde_json` and `reqwest` when it reads a body:
`serde_json::from_slice::<T>`, its error wrapped as a `reqwest::Error`, and the
charset decoding of `Response::text`. -/
structure Codec (ε T : Type) where
  decode : List UInt8 → Except ε T
  text : List UInt8 → String

variable {ε T : Type}

def Response.json (c : Codec ε T) (r : Response ε) : Except ε T := r.body >>= c.decode

def Response.text (c : Codec ε T) (r : Response ε) : Except ε String := c.text <$> r.body

/-! ## Errors -/

inductive MbError (ε : Type) where
  | request (e : ε)
  | rateLimited
  | notFound (url : String)
  | invalidMbid (s : String)
  | parseError (msg : String)
  | apiError (status : UInt16) (message : String)
  deriving DecidableEq

abbrev MbResult (ε T : Type) := Except (MbError ε) T

/-! ## The loop -/

inductive Next (ε T : Type) where
  | ret (r : MbResult ε T)
  | retry

/-- The loop body after `send().await`, for the outcome `o` of the send. -/
def attempt [ToString ε] (c : Codec ε T) (url : String) (retries : Nat)
    (o : Except ε (Response ε)) : Next ε T :=
  match o with
  | .error e => .ret (.error (.request e))
  | .ok r =>
    if isSuccess r.status then
      .ret ((r.json c).mapError fun e => .parseError ("Failed to parse response: " ++ toString e))
    else if r.status = 404 then .ret (.error (.notFound url))
    else if r.status = 503 then
      if retries ≥ maxRetries then .ret (.error .rateLimited) else .retry
    else
      let message := match r.text c with
        | .ok s => s
        | .error _ => "Unknown error"
      .ret (.error (.apiError r.status message))

def busy : Except ε (Response ε) → Bool
  | .ok r => r.status == 503
  | .error _ => false

theorem attempt_eq_retry [ToString ε] {c : Codec ε T} {url : String} {retries : Nat}
    {o : Except ε (Response ε)} : attempt c url retries o = .retry ↔ busy o ∧ retries < maxRetries := by
  cases o with
  | error e => simp [attempt, busy]
  | ok r =>
    by_cases h503 : r.status = 503
    · simp [attempt, busy, h503, isSuccess, Nat.not_le]
    · simp only [attempt, busy, h503, beq_iff_eq, false_and, iff_false, ↓reduceIte]
      split_ifs <;> simp

inductive Effect where
  | acquire
  | send (url : String)
  | sleep (d : Nat)
  deriving DecidableEq, Repr

structure Run (ε T : Type) where
  trace : List Effect
  result : MbResult ε T

/-- The `loop` of `get`, with `retries` and `backoff` as the code keeps them;
`outs n` is what the transport gives for the `n`-th send from here. -/
def getLoop [ToString ε] (c : Codec ε T) (url : String) (outs : Nat → Except ε (Response ε))
    (retries backoff : Nat) : Run ε T :=
  match h : attempt c url retries (outs 0) with
  | .ret r => ⟨[.acquire, .send url], r⟩
  | .retry =>
    let rest := getLoop c url (fun n => outs (n + 1)) (retries + 1) (backoff * 2)
    ⟨.acquire :: .send url :: .sleep backoff :: rest.trace, rest.result⟩
termination_by maxRetries - retries
decreasing_by have := (attempt_eq_retry.mp h).2; omega

def get [ToString ε] (c : Codec ε T) (url : String) (outs : Nat → Except ε (Response ε)) : Run ε T :=
  getLoop c url outs 0 initialBackoff

end OpenMusicPlayer
