import Mathlib.Tactic.Ring
import OpenMusicPlayer.Gate

/-!
# Each call's loop under concurrency

Every call in a world runs `get`'s loop and keeps the loop's state as the
sequential `get` does. A call has retried at most `maxRetries`
times, has passed the gate at most `maxRetries + 1` times, and its backoff is
`initialBackoff * 2 ^ retries` whenever its request is in flight
(`calls_bounded`).
-/

namespace OpenMusicPlayer

/-- The loop state a call keeps at each await point. -/
def Task.Sound (t : Task) : Prop :=
  t.retries ≤ maxRetries ∧ t.passes ≤ t.retries + 1 ∧
    match t.pc with
    | .locking | .pausing .. => t.passes ≤ t.retries ∧ t.backoff = initialBackoff * 2 ^ t.retries
    | .backingOff _ => t.passes ≤ t.retries ∧ t.backoff * 2 = initialBackoff * 2 ^ t.retries
    | .passed _ | .sending => t.backoff = initialBackoff * 2 ^ t.retries
    | .finished => True

def CallsSound (tasks : List Task) : Prop := ∀ (j : Nat) (u : Task), tasks[j]? = some u → u.Sound

variable {w w' : World} {i : Nat}

theorem callsSound_set (hs : CallsSound w.tasks) {t t' : Task} (ht : w.tasks[i]? = some t)
    (h : t.Sound → t'.Sound) : CallsSound (w.tasks.set i t') := fun j u hj => by
  rw [List.getElem?_set] at hj
  split_ifs at hj
  · exact Option.some.inj hj ▸ h (hs i t ht)
  · exact hs j u hj

theorem callsSound_step (hs : CallsSound w.tasks) {a : Act} (h : w.step a = some w') :
    CallsSound w'.tasks := by
  cases a with
  | tick d => obtain rfl := Option.some.inj h; exact hs
  | spawn =>
    obtain rfl := Option.some.inj h
    intro j u hj
    rw [List.getElem?_append] at hj
    split_ifs at hj with hlt
    · exact hs j u hj
    · obtain rfl := List.mem_singleton.mp (List.getElem?_mem hj)
      simp [Task.Sound]
  | lock i =>
    obtain ⟨t, ht, hpc, -, ⟨-, rfl⟩ | ⟨-, rfl⟩⟩ := step_lock h
    · exact callsSound_set hs ht fun hu => by simpa [Task.Sound, hpc] using hu
    · exact callsSound_set hs ht fun hu => by simp [Task.Sound, hpc] at hu ⊢; omega
  | wake i =>
    obtain ⟨t, tl, d, ht, hpc, -, rfl⟩ := step_wake h
    exact callsSound_set hs ht fun hu => by simp [Task.Sound, hpc] at hu ⊢; omega
  | send i =>
    obtain ⟨t, g, ht, hpc, rfl⟩ := step_send h
    exact callsSound_set hs ht fun hu => by simpa [Task.Sound, hpc] using hu
  | respond i b =>
    obtain ⟨t, ht, hpc, rfl⟩ := step_respond h
    refine callsSound_set hs ht fun ⟨h1, h2, h3⟩ => ?_
    simp only [hpc] at h3
    split_ifs with hb
    · simp only [Task.Sound]
      exact ⟨by omega, by omega, by omega, by rw [h3, pow_succ]; ring⟩
    · exact ⟨h1, h2, trivial⟩
  | resume i =>
    obtain ⟨t, wk, ht, hpc, -, rfl⟩ := step_resume h
    exact callsSound_set hs ht fun hu => by simp [Task.Sound, hpc] at hu ⊢; omega
  | cancel i =>
    obtain ⟨t, ht, rfl⟩ := step_cancel h
    exact callsSound_set hs ht fun ⟨h1, h2, _⟩ => ⟨h1, h2, trivial⟩

theorem Reachable.callsSound {t0 : Int} (h : Reachable t0 w) : CallsSound w.tasks := by
  induction h with
  | init => intro j u hj; simp [World.init] at hj
  | step _ _ hs ih => exact callsSound_step ih hs

/-- **Each call's loop.** In every reachable world each call has retried at
most `maxRetries` times and passed the gate at most `maxRetries + 1` times,
and a call whose request is in flight backs off for
`initialBackoff * 2 ^ retries` if it is answered with a 503. -/
theorem calls_bounded (t0 : Int) (w : World) (hw : Reachable t0 w) (i : Nat) (t : Task)
    (ht : w.tasks[i]? = some t) :
    t.retries ≤ maxRetries ∧ t.passes ≤ maxRetries + 1 ∧
      (t.pc = .sending → t.backoff = initialBackoff * 2 ^ t.retries) := by
  obtain ⟨h1, h2, h3⟩ := hw.callsSound i t ht
  exact ⟨h1, by omega, fun hs => by simpa [hs] using h3⟩

theorem calls_bounded_first_send : ∃ w, Reachable 0 w ∧ w.tasks[0]? = some ⟨0, initialBackoff, .sending, 1⟩ ∧
    0 ≤ maxRetries ∧ 1 ≤ maxRetries + 1 ∧ (Pc.sending = .sending → initialBackoff = initialBackoff * 2 ^ 0) := by
  have hrun : (World.init 0).run [.spawn, .lock 0, .send 0] = some _ := rfl
  have hw := Reachable.init.run hrun
  exact ⟨_, hw, rfl, calls_bounded 0 _ hw 0 _ rfl⟩

end OpenMusicPlayer
