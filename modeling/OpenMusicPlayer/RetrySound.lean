import Mathlib.Data.ENat.Lattice
import Mathlib.Order.CompletePartialOrder
import Mathlib.Data.Nat.Find
import Mathlib.Algebra.BigOperators.Group.List
import OpenMusicPlayer.Client

/-!
# Soundness of the retry loop

Over any stream of transport outcomes, `get` sends once for each leading 503
up to `maxRetries` and once more, waits `initialBackoff * 2 ^ (i - 1)` before
the attempt after attempt `i`, and returns the classification of the first
outcome that is not a 503, or `rateLimited` when the first `maxRetries + 1`
all are (`get_retries`).
-/

namespace OpenMusicPlayer

variable {ε T : Type}

/-! ## Leading 503s and the retry schedule -/

/-- The first `k` outcomes are 503s and, when `k` is finite, outcome `k` is not. -/
def LeadingBusy (outs : Nat → Except ε (Response ε)) (k : ℕ∞) : Prop :=
  ∀ j : Nat, (j : ℕ∞) < k ↔ ∀ i ≤ j, busy (outs i) = true

theorem leadingBusy_cases {outs : Nat → Except ε (Response ε)} {k : ℕ∞} (hk : LeadingBusy outs k) :
    (∃ m : Nat, m ≤ maxRetries ∧ k = m ∧ (∀ i < m, busy (outs i) = true) ∧ busy (outs m) = false) ∨
      ((maxRetries + 1 : ℕ∞) ≤ k ∧ ∀ i ≤ maxRetries, busy (outs i) = true) := by
  have hfirst : (maxRetries : ℕ∞) < k → ∀ i ≤ maxRetries, busy (outs i) = true := (hk _).mp
  induction k using ENat.recTopCoe with
  | top => exact .inr ⟨le_top, hfirst (ENat.coe_lt_top _)⟩
  | coe m =>
    by_cases hm : m ≤ maxRetries
    · refine .inl ⟨m, hm, rfl, fun i hi => (hk i).mp (by exact_mod_cast hi) i le_rfl, ?_⟩
      by_contra hb
      have hall : ∀ i ≤ m, busy (outs i) = true := fun i hi => by
        rcases Nat.lt_or_eq_of_le hi with h | rfl
        · exact (hk i).mp (by exact_mod_cast h) i le_rfl
        · simpa using hb
      exact lt_irrefl (m : ℕ∞) ((hk m).mpr hall)
    · exact .inr ⟨by exact_mod_cast (show maxRetries + 1 ≤ m by omega),
        hfirst (by exact_mod_cast (show maxRetries < m by omega))⟩

section
variable (url : String)

/-- `n` attempts, each one acquire then one send, the attempt after attempt `i`
preceded by one sleep of `b * 2 ^ (i - 1)`. -/
def schedule (b n : Nat) : List Effect :=
  (List.range n).flatMap fun i =>
    (if i = 0 then [] else [.sleep (b * 2 ^ (i - 1))]) ++ [.acquire, .send url]

def Effect.pause : Effect → Nat
  | .sleep d => d
  | _ => 0

def sleptFor (tr : List Effect) : Nat := (tr.map Effect.pause).sum

/-! ## The schedule -/

theorem schedule_one (b : Nat) : schedule url b 1 = [.acquire, .send url] := rfl

theorem schedule_succ_right (b n : Nat) :
    schedule url b (n + 2) = schedule url b (n + 1) ++ [.sleep (b * 2 ^ n), .acquire, .send url] := by
  rw [schedule, List.range_succ, List.flatMap_append]
  simp [schedule]

theorem schedule_succ_succ (b n : Nat) :
    schedule url b (n + 2) = .acquire :: .send url :: .sleep b :: schedule url (b * 2) (n + 1) := by
  induction n with
  | zero => simp [schedule, List.range_succ]
  | succ n ih =>
    rw [schedule_succ_right, ih, schedule_succ_right, pow_succ, Nat.mul_assoc, Nat.mul_comm (2 ^ n)]
    rfl

theorem sleptFor_schedule_add (b n : Nat) : sleptFor (schedule url b (n + 1)) + b = b * 2 ^ n := by
  induction n with
  | zero => simp [sleptFor, schedule_one, Effect.pause]
  | succ n ih =>
    rw [schedule_succ_right, sleptFor, List.map_append, List.sum_append, ← sleptFor, pow_succ]
    simp only [List.map_cons, List.map_nil, Effect.pause, List.sum_cons, List.sum_nil]
    rw [← Nat.mul_assoc]
    omega

theorem sleptFor_schedule (b n : Nat) : sleptFor (schedule url b (n + 1)) = b * (2 ^ n - 1) := by
  have h := sleptFor_schedule_add url b n
  rw [Nat.mul_sub_one]
  omega

end

section
variable [ToString ε] (c : Codec ε T) (url : String)

/-- The result an outcome that is not retried ends the loop with: a transport
error is `request`; a 2xx is the decoding of the body's bytes, or `parseError`
with the error of reading or of decoding them; 404 is `notFound`; any other
status is `apiError` with the body's text, or `Unknown error` when the body
cannot be read. -/
def classify : Except ε (Response ε) → MbResult ε T
  | .error e => .error (.request e)
  | .ok r =>
    if 200 ≤ r.status.toNat ∧ r.status.toNat ≤ 299 then
      match r.body with
      | .ok bytes =>
        match c.decode bytes with
        | .ok v => .ok v
        | .error e => .error (.parseError ("Failed to parse response: " ++ toString e))
      | .error e => .error (.parseError ("Failed to parse response: " ++ toString e))
    else if r.status = 404 then .error (.notFound url)
    else .error (.apiError r.status (match r.body with | .ok bytes => c.text bytes | .error _ => "Unknown error"))

/-! ## One turn of the loop -/

theorem getLoop_ret {outs : Nat → Except ε (Response ε)} {retries backoff : Nat} {r : MbResult ε T}
    (h : attempt c url retries (outs 0) = .ret r) :
    getLoop c url outs retries backoff = ⟨[.acquire, .send url], r⟩ := by
  rw [getLoop]; split <;> simp_all

theorem getLoop_retry {outs : Nat → Except ε (Response ε)} {retries backoff : Nat}
    (h : attempt c url retries (outs 0) = .retry) :
    getLoop c url outs retries backoff =
      let rest := getLoop c url (fun n => outs (n + 1)) (retries + 1) (backoff * 2)
      ⟨.acquire :: .send url :: .sleep backoff :: rest.trace, rest.result⟩ := by
  rw [getLoop]; split <;> simp_all

/-! ## Runs of 503s -/

theorem classify_ne_rateLimited (o : Except ε (Response ε)) : classify c url o ≠ .error .rateLimited := by
  cases o with
  | error e => simp [classify]
  | ok r =>
    simp only [classify]
    split_ifs <;> (repeat' split) <;> simp

theorem attempt_of_idle {o : Except ε (Response ε)} (h : busy o = false) (retries : Nat) :
    attempt c url retries o = .ret (classify c url o) := by
  cases o with
  | error e => rfl
  | ok r =>
    have h503 : r.status ≠ 503 := by simpa [busy] using h
    simp only [attempt, classify, ← isSuccess_iff, h503, ↓reduceIte, Response.json, Response.text, bind,
      Except.bind]
    cases r.body with
    | ok bytes => dsimp only; split_ifs <;> first | rfl | cases c.decode bytes <;> rfl
    | error e => split_ifs <;> rfl

theorem attempt_of_busy_last {o : Except ε (Response ε)} (h : busy o = true) {retries : Nat}
    (hr : maxRetries ≤ retries) : attempt c url retries o = .ret (.error .rateLimited) := by
  cases o with
  | error e => simp [busy] at h
  | ok r =>
    have h503 : r.status = 503 := by simpa [busy] using h
    simp [attempt, h503, isSuccess, hr]

theorem getLoop_busy_prefix {j m : Nat} {outs : Nat → Except ε (Response ε)} {retries b : Nat}
    {r : MbResult ε T} (hj : retries + j ≤ maxRetries) (hbusy : ∀ i < j, busy (outs i) = true)
    (hrest : getLoop c url (fun n => outs (n + j)) (retries + j) (b * 2 ^ j) =
      ⟨schedule url (b * 2 ^ j) (m + 1), r⟩) :
    getLoop c url outs retries b = ⟨schedule url b (j + m + 1), r⟩ := by
  induction j generalizing outs retries b with
  | zero => simpa using hrest
  | succ j ih =>
    have h0 : attempt c url retries (outs 0) = .retry :=
      attempt_eq_retry.mpr ⟨hbusy 0 (by omega), by omega⟩
    have hrest' : getLoop c url (fun n => outs (n + j + 1)) (retries + 1 + j) (b * 2 * 2 ^ j) =
        ⟨schedule url (b * 2 * 2 ^ j) (m + 1), r⟩ := by
      rw [show retries + 1 + j = retries + (j + 1) by omega, Nat.mul_assoc, ← pow_succ']
      exact hrest
    rw [getLoop_retry c url h0, ih (by omega) (fun i hi => hbusy (i + 1) (by omega)) hrest',
      show j + 1 + m + 1 = (j + m) + 2 by omega, schedule_succ_succ]

variable {c url}

theorem get_of_first_idle {outs : Nat → Except ε (Response ε)} {m : Nat} (hm : m ≤ maxRetries)
    (hbusy : ∀ i < m, busy (outs i) = true) (hidle : busy (outs m) = false) :
    get c url outs = ⟨schedule url initialBackoff (m + 1), classify c url (outs m)⟩ := by
  have hlast : getLoop c url (fun n => outs (n + m)) (0 + m) (initialBackoff * 2 ^ m) =
      ⟨schedule url (initialBackoff * 2 ^ m) (0 + 1), classify c url (outs m)⟩ :=
    getLoop_ret c url (by rw [Nat.zero_add]; exact attempt_of_idle c url hidle _)
  simpa using getLoop_busy_prefix c url (by omega) hbusy hlast

theorem get_of_busy {outs : Nat → Except ε (Response ε)}
    (hbusy : ∀ i ≤ maxRetries, busy (outs i) = true) :
    get c url outs = ⟨schedule url initialBackoff (maxRetries + 1), .error .rateLimited⟩ := by
  have hlast : getLoop c url (fun n => outs (n + maxRetries)) (0 + maxRetries)
      (initialBackoff * 2 ^ maxRetries) =
      ⟨schedule url (initialBackoff * 2 ^ maxRetries) (0 + 1), .error .rateLimited⟩ :=
    getLoop_ret c url (by rw [Nat.zero_add]; exact attempt_of_busy_last c url (hbusy _ le_rfl) le_rfl)
  simpa using getLoop_busy_prefix c url (by omega) (fun i hi => hbusy i hi.le) hlast

/-- **The retry loop.** `get` makes `min k maxRetries + 1` attempts, `k` the
number of leading 503s, each after one acquire and all but the first after one
doubling backoff sleep; it reads no outcome past the last attempt, and returns
`rateLimited` exactly when more than `maxRetries` outcomes are 503s, and
otherwise the classification of outcome `k`. -/
theorem get_retries (outs : Nat → Except ε (Response ε)) (k : ℕ∞) (hk : LeadingBusy outs k) :
    ∃ n : Nat, (n : ℕ∞) = min k maxRetries + 1 ∧
      (get c url outs).trace = schedule url initialBackoff n ∧
      sleptFor (get c url outs).trace = initialBackoff * (2 ^ (n - 1) - 1) ∧
      (∀ outs' : Nat → Except ε (Response ε), (∀ i < n, outs' i = outs i) →
        get c url outs' = get c url outs) ∧
      ((get c url outs).result = .error .rateLimited ↔ (maxRetries + 1 : ℕ∞) ≤ k) ∧
      (k < maxRetries + 1 → (get c url outs).result = classify c url (outs k.toNat)) := by
  rcases leadingBusy_cases hk with ⟨m, hm, rfl, hbusy, hidle⟩ | ⟨hk4, hbusy⟩
  · have hget : get c url outs = _ := get_of_first_idle hm hbusy hidle
    refine ⟨m + 1, ?_, by rw [hget], by rw [hget, sleptFor_schedule]; rfl, fun outs' h' => ?_, ?_, ?_⟩
    · rw [min_eq_left (by exact_mod_cast hm)]; push_cast; rfl
    · have hsame : ∀ i ≤ m, outs' i = outs i := fun i hi => h' i (by omega)
      rw [hget, get_of_first_idle hm (fun i hi => hsame i hi.le ▸ hbusy i hi) (hsame m le_rfl ▸ hidle),
        hsame m le_rfl]
    · rw [hget]
      exact iff_of_false (classify_ne_rateLimited c url _) (by exact_mod_cast (show ¬ maxRetries + 1 ≤ m by omega))
    · intro; rw [hget]; rfl
  · have hget : get c url outs = _ := get_of_busy hbusy
    have h3 : (maxRetries : ℕ∞) ≤ k := le_trans (by exact_mod_cast Nat.le_succ _) hk4
    refine ⟨maxRetries + 1, by rw [min_eq_right h3]; push_cast; rfl, by rw [hget],
      by rw [hget, sleptFor_schedule]; rfl, fun outs' h' => ?_, by rw [hget]; simpa using hk4,
      fun h => absurd hk4 (not_le.mpr h)⟩
    rw [hget, get_of_busy fun i hi => h' i (by omega) ▸ hbusy i hi]

end

theorem get_retries_busy_forever :
    LeadingBusy (fun _ => .ok ⟨503, .ok []⟩ : Nat → Except String (Response String)) ⊤ ∧
      (get (⟨fun _ => .ok (), fun _ => ""⟩ : Codec String Unit) "u" fun _ => .ok ⟨503, .ok []⟩).result =
        .error .rateLimited := by
  have hk : LeadingBusy (fun _ => .ok ⟨503, .ok []⟩ : Nat → Except String (Response String)) ⊤ :=
    fun j => iff_of_true (ENat.coe_lt_top j) fun _ _ => rfl
  obtain ⟨_, -, -, -, -, hlim, -⟩ :=
    @get_retries String Unit _ ⟨fun _ => .ok (), fun _ => ""⟩ "u" _ ⊤ hk
  exact ⟨hk, hlim.mpr le_top⟩

/-! ## A body that breaks off -/

section
variable [ToString ε]

theorem get_broken_body {outs : Nat → Except ε (Response ε)} {m : Nat} (hm : m ≤ maxRetries)
    (hbusy : ∀ i < m, busy (outs i) = true) {r : Response ε} {e : ε} (hr : outs m = .ok r)
    (hs : isSuccess r.status = true) (hb : r.body = .error e) (c : Codec ε T) (url : String) :
    (get c url outs).result = .error (.parseError ("Failed to parse response: " ++ toString e)) := by
  have h503 : r.status ≠ 503 := fun h => by simp [h, isSuccess] at hs
  rw [get_of_first_idle hm hbusy (by simp [hr, busy, h503]), hr]
  simp [classify, (isSuccess_iff _).mp hs, hb]

end

theorem get_connection_reset :
    (get (⟨fun _ => .ok (), fun _ => ""⟩ : Codec String Unit) "u"
        fun _ => .ok ⟨200, .error "connection reset"⟩).result =
      .error (.parseError "Failed to parse response: connection reset") :=
  get_broken_body (m := 0) (by decide)
    (fun _ h => absurd h (Nat.not_lt_zero _)) rfl (by decide) rfl _ _

/-! ## Where an error comes from -/

theorem first_idle_or_busy (outs : Nat → Except ε (Response ε)) :
    (∃ m ≤ maxRetries, (∀ i < m, busy (outs i) = true) ∧ busy (outs m) = false) ∨
      ∀ i ≤ maxRetries, busy (outs i) = true := by
  by_cases h : ∃ m, m ≤ maxRetries ∧ busy (outs m) = false
  · refine .inl ⟨Nat.find h, (Nat.find_spec h).1, fun i hi => ?_, (Nat.find_spec h).2⟩
    by_contra hb
    exact Nat.find_min h hi ⟨by have := (Nat.find_spec h).1; omega, by simpa using hb⟩
  · exact .inr fun i hi => by by_contra hb; exact h ⟨i, hi, by simpa using hb⟩

section
variable [ToString ε] {c : Codec ε T} {url : String}

/-- `parseError` comes only from a 2xx response, after only 503s, whose body
could not be read or whose bytes could not be decoded. -/
theorem get_parseError_source (outs : Nat → Except ε (Response ε)) {msg : String}
    (h : (get c url outs).result = .error (.parseError msg)) :
    ∃ m ≤ maxRetries, (∀ i < m, busy (outs i) = true) ∧ ∃ r e, outs m = .ok r ∧ isSuccess r.status = true ∧
      (r.body = .error e ∨ ∃ bytes, r.body = .ok bytes ∧ c.decode bytes = .error e) ∧
      msg = "Failed to parse response: " ++ toString e := by
  rcases first_idle_or_busy outs with ⟨m, hm, hbusy, hidle⟩ | hbusy
  · rw [get_of_first_idle hm hbusy hidle] at h
    refine ⟨m, hm, hbusy, ?_⟩
    cases ho : outs m with
    | error e => simp [ho, classify] at h
    | ok r =>
      simp only [ho, classify] at h
      split_ifs at h with hs
      · have hs := (isSuccess_iff _).mpr hs
        cases hb : r.body with
        | error e =>
          simp only [hb, Except.error.injEq, MbError.parseError.injEq] at h
          exact ⟨r, e, rfl, hs, .inl hb, h.symm⟩
        | ok bytes =>
          simp only [hb] at h
          cases hd : c.decode bytes with
          | ok v => simp [hd] at h
          | error e =>
            simp only [hd, Except.error.injEq, MbError.parseError.injEq] at h
            exact ⟨r, e, rfl, hs, .inr ⟨bytes, hb, hd⟩, h.symm⟩
      all_goals simp at h
  · rw [get_of_busy hbusy] at h
    cases h

end

theorem get_parseError_source_eof :
    ∃ m ≤ maxRetries, (∀ i < m, busy ((fun _ => .ok ⟨200, .ok []⟩ : Nat → Except String (Response String)) i) = true) ∧
      ∃ r e, (fun _ => .ok ⟨200, .ok []⟩ : Nat → Except String (Response String)) m = .ok r ∧
        isSuccess r.status = true ∧
        (r.body = .error e ∨ ∃ bytes, r.body = .ok bytes ∧
          (⟨fun _ => .error "EOF", fun _ => ""⟩ : Codec String Unit).decode bytes = .error e) ∧
        "Failed to parse response: EOF" = "Failed to parse response: " ++ toString e := by
  have h : (get (⟨fun _ => .error "EOF", fun _ => ""⟩ : Codec String Unit) "u"
      fun _ => .ok ⟨200, .ok []⟩).result = .error (.parseError "Failed to parse response: EOF") := by
    rw [@get_of_first_idle String Unit _ _ _ (fun _ => .ok ⟨200, .ok []⟩) 0 (by decide)
      (fun _ h => absurd h (Nat.not_lt_zero _)) rfl]
    rfl
  exact get_parseError_source _ h

end OpenMusicPlayer
