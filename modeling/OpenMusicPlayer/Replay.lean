import Mathlib.Tactic.Ring
import OpenMusicPlayer.RetrySound
import OpenMusicPlayer.Gate

/-!
# A lone call replays the sequential loop

The concurrent world and the sequential `get` are two models of one loop. With
no other call in its way, a call scheduled to go on as soon as each await
lets it (`replay`) does in the world what `get` does: it passes the gate at
once on every attempt, since its backoff never falls below the rate-limit
interval, sends at the instants `get`'s trace reaches its sends, and finishes
after as much time as the trace sleeps (`lone_call_replays_get`).
-/

namespace OpenMusicPlayer

variable {ε T : Type}

/-- The instants at which the requests of a trace leave, when it starts at `t`
and only its sleeps take time. -/
def sendTimes (t : Int) : List Effect → List Int
  | [] => []
  | .acquire :: tr => sendTimes t tr
  | .send _ :: tr => t :: sendTimes t tr
  | .sleep d :: tr => sendTimes (t + d) tr

section
variable [ToString ε] (c : Codec ε T) (url : String) (i : Nat)

/-- Call `i` alone, each await returning as soon as it may: per attempt one
`lock`, one `send` and the transport's answer, and between two attempts the
clock moving on by the backoff. -/
def replay (outs : Nat → Except ε (Response ε)) (retries backoff : Nat) : List Act :=
  match h : attempt c url retries (outs 0) with
  | .ret _ => [.lock i, .send i, .respond i (busy (outs 0))]
  | .retry =>
    [.lock i, .send i, .respond i (busy (outs 0)), .tick backoff, .resume i] ++
      replay (fun n => outs (n + 1)) (retries + 1) (backoff * 2)
termination_by maxRetries - retries
decreasing_by have := (attempt_eq_retry.mp h).2; omega

theorem replay_ret {outs : Nat → Except ε (Response ε)} {retries backoff : Nat} {r : MbResult ε T}
    (h : attempt c url retries (outs 0) = .ret r) :
    replay c url i outs retries backoff = [.lock i, .send i, .respond i (busy (outs 0))] := by
  rw [replay]; split <;> simp_all

theorem replay_retry {outs : Nat → Except ε (Response ε)} {retries backoff : Nat}
    (h : attempt c url retries (outs 0) = .retry) :
    replay c url i outs retries backoff =
      [.lock i, .send i, .respond i true, .tick backoff, .resume i] ++
        replay c url i (fun n => outs (n + 1)) (retries + 1) (backoff * 2) := by
  rw [replay]; split
  · simp_all
  · rw [(attempt_eq_retry.mp h).1]

end

/-! ## One attempt -/

/-- Call `i` at the top of the loop with the lock free, the gate open and a
backoff no shorter than the interval. -/
structure AtTop (w : World) (i : Nat) (t : Task) : Prop where
  get : w.tasks[i]? = some t
  locking : t.pc = .locking
  free : w.holder = none
  idle : w.lastRequest + rateLimitInterval ≤ w.now
  slow : rateLimitInterval ≤ t.backoff

variable {w : World} {i : Nat} {t : Task}

theorem AtTop.lt (h : AtTop w i t) : i < w.tasks.length :=
  (List.getElem?_eq_some_iff.mp h.get).1

theorem AtTop.lock (h : AtTop w i t) : w.step (.lock i) = some (w.record i t) := by
  have hel : rateLimitInterval ≤ (w.now - w.lastRequest).toNat := by have := h.idle; omega
  simp [World.step, h.get, h.locking, h.free, Nat.not_lt.mpr hel]

theorem AtTop.run_retry (h : AtTop w i t) (hr : t.retries < maxRetries) :
    w.run [.lock i, .send i, .respond i true, .tick t.backoff, .resume i] = some
      { w with now := w.now + t.backoff, lastRequest := w.now, written := w.now :: w.written,
               sends := (w.now, w.now) :: w.sends,
               tasks := w.tasks.set i { t with retries := t.retries + 1, backoff := t.backoff * 2,
                                               passes := t.passes + 1 } } := by
  have hlen := h.lt
  simp only [World.run, h.lock, Option.some_bind]
  simp [World.step, World.record, hlen, hr, h.free, h.locking]

theorem AtTop.run_last (h : AtTop w i t) {b : Bool} (hb : ¬(b = true ∧ t.retries < maxRetries)) :
    w.run [.lock i, .send i, .respond i b] = some
      { w with lastRequest := w.now, written := w.now :: w.written, sends := (w.now, w.now) :: w.sends,
               tasks := w.tasks.set i { t with pc := .finished, passes := t.passes + 1 } } := by
  have hlen := h.lt
  simp only [World.run, h.lock, Option.some_bind]
  simp [World.step, World.record, hlen, hb, h.free]

theorem AtTop.next (h : AtTop w i t) :
    AtTop { w with now := w.now + t.backoff, lastRequest := w.now, written := w.now :: w.written,
                   sends := (w.now, w.now) :: w.sends,
                   tasks := w.tasks.set i { t with retries := t.retries + 1, backoff := t.backoff * 2,
                                                   passes := t.passes + 1 } } i
      { t with retries := t.retries + 1, backoff := t.backoff * 2, passes := t.passes + 1 } where
  get := by simp [h.lt]
  locking := h.locking
  free := h.free
  idle := by have := h.slow; simp only; omega
  slow := by have := h.slow; simp only; omega

/-! ## The whole loop -/

section
variable [ToString ε] (c : Codec ε T) (url : String)

theorem replay_run (outs : Nat → Except ε (Response ε)) {w : World} {i : Nat} {t : Task}
    (h : AtTop w i t) :
    ∃ w', w.run (replay c url i outs t.retries t.backoff) = some w' ∧
      w'.now = w.now + sleptFor (getLoop c url outs t.retries t.backoff).trace ∧
      w'.sends = (sendTimes w.now (getLoop c url outs t.retries t.backoff).trace).reverse.map
        (fun g => (g, g)) ++ w.sends ∧
      w'.holder = none ∧ pcAt w'.tasks i = some .finished ∧ ∀ j ≠ i, w'.tasks[j]? = w.tasks[j]? := by
  cases ha : attempt c url t.retries (outs 0) with
  | ret r =>
    have hb : ¬(busy (outs 0) = true ∧ t.retries < maxRetries) := fun hb =>
      Next.noConfusion ((attempt_eq_retry.mpr hb).symm.trans ha)
    rw [replay_ret c url i ha, getLoop_ret c url ha, h.run_last hb]
    exact ⟨_, rfl, by simp [sleptFor, Effect.pause], by simp [sendTimes], h.free, pcAt_set_self h.get,
      fun j hj => List.getElem?_set_ne (Ne.symm hj)⟩
  | retry =>
    have hr := (attempt_eq_retry.mp ha).2
    obtain ⟨w', hrun, hnow, hsends, hfree, hfin, hframe⟩ := replay_run (fun n => outs (n + 1)) h.next
    rw [replay_retry c url i ha, World.run_append, h.run_retry hr, Option.some_bind]
    rw [getLoop_retry c url ha]
    refine ⟨w', hrun, ?_, ?_, hfree, hfin, fun j hj => ?_⟩
    · simp only [hnow, sleptFor, List.map_cons, Effect.pause, List.sum_cons]
      push_cast; ring
    · simp [hsends, sendTimes]
    · rw [hframe j hj]; exact List.getElem?_set_ne (Ne.symm hj)
termination_by maxRetries - t.retries
decreasing_by omega

/-- **A lone call replays get.** In a client made at `t0`, a single call
scheduled by `replay` sends exactly when `get`'s trace does, each request at
the instant it passes the gate, and finishes after the trace's sleeps with
the lock free, in a world the client can reach. -/
theorem lone_call_replays_get (outs : Nat → Except ε (Response ε)) (t0 : Int) :
    ∃ w, (World.init t0).run (.spawn :: replay c url 0 outs 0 initialBackoff) = some w ∧
      Reachable t0 w ∧ w.now = t0 + sleptFor (get c url outs).trace ∧
      w.sends = (sendTimes t0 (get c url outs).trace).reverse.map (fun g => (g, g)) ∧
      w.holder = none ∧ pcAt w.tasks 0 = some .finished := by
  have h : AtTop { World.init t0 with tasks := [⟨0, initialBackoff, .locking, 0⟩] } 0
      ⟨0, initialBackoff, .locking, 0⟩ := ⟨rfl, rfl, rfl, by simp [World.init], le_rfl⟩
  obtain ⟨w, hrun, hnow, hsends, hfree, hfin, -⟩ := replay_run c url outs h
  have hrun' : (World.init t0).run (.spawn :: replay c url 0 outs 0 initialBackoff) = some w := hrun
  exact ⟨w, hrun', Reachable.init.run hrun', hnow, by rw [hsends, World.init, List.append_nil]; rfl,
    hfree, hfin⟩

end

end OpenMusicPlayer
