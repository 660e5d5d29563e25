import OpenMusicPlayer.Client

/-!
# The shared rate limiter under concurrent calls

Every `get` on one client goes through the client's `RateLimiter`, behind a
mutex. A world holds the clock, `last_request`, the mutex holder and each call
at one of its await points; a step is one call running from one await point to
the next, or the clock moving on. A call may be cancelled at any await point,
and may wait any time between any two of its steps. Two ghost logs record every
value of `last_request` and the gate time and start time of every request sent.
-/

namespace OpenMusicPlayer

/-- Where one `get` call stands: at `self.rate_limiter.lock().await`; holding
the lock since `t`, at `sleep(wait_time).await` inside `acquire`; through the
gate at `gate` with the guard dropped and the request not yet sent; at
`send().await`; at `sleep(backoff).await` after a 503; or done. -/
inductive Pc where
  | locking
  | pausing (t deadline : Int)
  | passed (gate : Int)
  | sending
  | backingOff (wake : Int)
  | finished
  deriving DecidableEq, Repr

structure Task where
  retries : Nat
  backoff : Nat
  pc : Pc
  passes : Nat
  deriving DecidableEq, Repr

structure World where
  now : Int
  lastRequest : Int
  holder : Option Nat
  tasks : List Task
  written : List Int
  sends : List (Int × Int)
  deriving DecidableEq, Repr

/-- The client made at instant `t0`: `RateLimiter::new` sets `last_request` one
interval back. -/
def World.init (t0 : Int) : World :=
  ⟨t0, t0 - rateLimitInterval, none, [], [t0 - rateLimitInterval], []⟩

inductive Act where
  | tick (d : Nat)
  | spawn
  | lock (i : Nat)
  | wake (i : Nat)
  | send (i : Nat)
  | respond (i : Nat) (busy : Bool)
  | resume (i : Nat)
  | cancel (i : Nat)
  deriving DecidableEq, Repr

/-- `acquire` sets `last_request = Instant::now()` and returns, and the guard
is dropped at the end of the block. -/
def World.record (w : World) (i : Nat) (t : Task) : World :=
  { w with lastRequest := w.now, holder := none, written := w.now :: w.written,
           tasks := w.tasks.set i { t with pc := .passed w.now, passes := t.passes + 1 } }

def World.step (w : World) : Act → Option World
  | .tick d => some { w with now := w.now + d }
  | .spawn => some { w with tasks := w.tasks ++ [⟨0, initialBackoff, .locking, 0⟩] }
  | .lock i =>
    match w.tasks[i]? with
    | some t =>
      if t.pc = .locking ∧ w.holder = none then
        let elapsed := (w.now - w.lastRequest).toNat
        if elapsed < rateLimitInterval then
          some { w with holder := some i,
                        tasks := w.tasks.set i { t with
                          pc := .pausing w.now (w.now + (rateLimitInterval - elapsed : Nat)) } }
        else some (w.record i t)
      else none
    | none => none
  | .wake i =>
    match w.tasks[i]? with
    | some t =>
      match t.pc with
      | .pausing _ deadline => if deadline ≤ w.now then some (w.record i t) else none
      | _ => none
    | none => none
  | .send i =>
    match w.tasks[i]? with
    | some t =>
      match t.pc with
      | .passed g => some { w with tasks := w.tasks.set i { t with pc := .sending },
                                   sends := (g, w.now) :: w.sends }
      | _ => none
    | none => none
  | .respond i busy =>
    match w.tasks[i]? with
    | some t =>
      if t.pc = .sending then
        if busy ∧ t.retries < maxRetries then
          some { w with tasks := w.tasks.set i { t with
            retries := t.retries + 1, pc := .backingOff (w.now + t.backoff) } }
        else some { w with tasks := w.tasks.set i { t with pc := .finished } }
      else none
    | none => none
  | .resume i =>
    match w.tasks[i]? with
    | some t =>
      match t.pc with
      | .backingOff wake =>
        if wake ≤ w.now then
          some { w with tasks := w.tasks.set i { t with backoff := t.backoff * 2, pc := .locking } }
        else none
      | _ => none
    | none => none
  | .cancel i =>
    match w.tasks[i]? with
    | some t =>
      if t.pc = .finished then none
      else some { w with holder := (if w.holder = some i then none else w.holder),
                         tasks := w.tasks.set i { t with pc := .finished } }
    | none => none

def World.run (w : World) : List Act → Option World
  | [] => some w
  | a :: as => (w.step a).bind fun w' => w'.run as

theorem World.run_append (w : World) (as bs : List Act) :
    w.run (as ++ bs) = (w.run as).bind fun w' => w'.run bs := by
  induction as generalizing w with
  | nil => rfl
  | cons a as ih => cases h : w.step a <;> simp [World.run, h, ih]

inductive Reachable (t0 : Int) : World → Prop
  | init : Reachable t0 (World.init t0)
  | step {w w' : World} (a : Act) : Reachable t0 w → w.step a = some w' → Reachable t0 w'

theorem Reachable.run {t0 : Int} {w w' : World} (hw : Reachable t0 w) :
    ∀ {as : List Act}, w.run as = some w' → Reachable t0 w'
  | [], h => by cases h; exact hw
  | a :: as, h => by
    simp only [World.run] at h
    cases hs : w.step a with
    | none => simp [hs] at h
    | some w1 => rw [hs, Option.some_bind] at h; exact (hw.step a hs).run h

/-! ## What one step does -/

def pcAt (tasks : List Task) (i : Nat) : Option Pc := tasks[i]?.map Task.pc

def Pc.atGate : Pc → Bool
  | .pausing .. | .passed _ => true
  | _ => false

theorem pcAt_set {tasks : List Task} {i : Nat} {t : Task} (h : tasks[i]? = some t) (t' : Task)
    (j : Nat) : pcAt (tasks.set i t') j = if j = i then some t'.pc else pcAt tasks j := by
  have hi : i < tasks.length := by
    by_contra hn; simp [List.getElem?_eq_none (Nat.le_of_not_lt hn)] at h
  simp only [pcAt, List.getElem?_set]
  by_cases hj : j = i
  · subst hj; simp [hi]
  · simp [hj, Ne.symm hj]

theorem pcAt_of_get {tasks : List Task} {i : Nat} {t : Task} (h : tasks[i]? = some t) :
    pcAt tasks i = some t.pc := by
  simp [pcAt, h]

theorem pcAt_set_ne {tasks : List Task} {i j : Nat} {t t' : Task} (h : tasks[i]? = some t)
    (hj : j ≠ i) : pcAt (tasks.set i t') j = pcAt tasks j := by
  rw [pcAt_set h, if_neg hj]

theorem pcAt_set_self {tasks : List Task} {i : Nat} {t t' : Task} (h : tasks[i]? = some t) :
    pcAt (tasks.set i t') i = some t'.pc := by
  rw [pcAt_set h, if_pos rfl]

theorem pcAt_set_cases {tasks : List Task} {i j : Nat} {t t' : Task} {p : Pc} (h : tasks[i]? = some t)
    (hj : pcAt (tasks.set i t') j = some p) : j = i ∧ p = t'.pc ∨ j ≠ i ∧ pcAt tasks j = some p := by
  rw [pcAt_set h] at hj
  split_ifs at hj with hji
  · exact .inl ⟨hji, (Option.some.inj hj).symm⟩
  · exact .inr ⟨hji, hj⟩

theorem pcAt_set_off_gate {tasks : List Task} {i j : Nat} {t t' : Task} {p : Pc}
    (h : tasks[i]? = some t) (hj : pcAt (tasks.set i t') j = some p) (ht' : t'.pc.atGate = false)
    (hp : p.atGate = true) : j ≠ i ∧ pcAt tasks j = some p := by
  rcases pcAt_set_cases h hj with ⟨-, rfl⟩ | h
  · simp [ht'] at hp
  · exact h

theorem gate_set_quiet {tasks : List Task} {i : Nat} {t t' : Task} (h : tasks[i]? = some t)
    (ht : t.pc.atGate = false) (ht' : t'.pc.atGate = false) (j : Nat) {p : Pc} (hp : p.atGate = true) :
    pcAt (tasks.set i t') j = some p ↔ pcAt tasks j = some p := by
  rw [pcAt_set h]
  split_ifs with hj
  · subst hj
    rw [pcAt_of_get h]
    constructor <;> rintro ⟨⟩ <;> simp_all
  · rfl

theorem gate_spawn (tasks : List Task) (t : Task) (ht : t.pc.atGate = false) (j : Nat) {p : Pc}
    (hp : p.atGate = true) : pcAt (tasks ++ [t]) j = some p ↔ pcAt tasks j = some p := by
  rcases lt_trichotomy j tasks.length with hj | rfl | hj
  · simp [pcAt, List.getElem?_append_left hj]
  · simp only [pcAt, List.getElem?_concat_length, List.getElem?_eq_none le_rfl]
    simp only [Option.map_some', Option.map_none', Option.some.injEq, reduceCtorEq, iff_false]
    rintro rfl; simp_all
  · simp [pcAt, List.getElem?_eq_none hj.le, List.getElem?_eq_none (show (tasks ++ [t]).length ≤ j by simpa)]

@[simp] theorem record_lastRequest (w : World) (i : Nat) (t : Task) : (w.record i t).lastRequest = w.now := rfl
@[simp] theorem record_now (w : World) (i : Nat) (t : Task) : (w.record i t).now = w.now := rfl
@[simp] theorem record_holder (w : World) (i : Nat) (t : Task) : (w.record i t).holder = none := rfl
@[simp] theorem record_written (w : World) (i : Nat) (t : Task) :
    (w.record i t).written = w.now :: w.written := rfl
@[simp] theorem record_sends (w : World) (i : Nat) (t : Task) : (w.record i t).sends = w.sends := rfl

variable {w w' : World} {i : Nat}

theorem step_lock (h : w.step (.lock i) = some w') :
    ∃ t, w.tasks[i]? = some t ∧ t.pc = .locking ∧ w.holder = none ∧
      ((w.now - w.lastRequest).toNat < rateLimitInterval ∧
        w' = { w with holder := some i, tasks := w.tasks.set i { t with
          pc := .pausing w.now (w.now + (rateLimitInterval - (w.now - w.lastRequest).toNat : Nat)) } } ∨
       rateLimitInterval ≤ (w.now - w.lastRequest).toNat ∧ w' = w.record i t) := by
  simp only [World.step] at h
  split at h
  · next t ht =>
    split_ifs at h with hg hw
    · exact ⟨t, ht, hg.1, hg.2, .inl ⟨hw, (Option.some.inj h).symm⟩⟩
    · exact ⟨t, ht, hg.1, hg.2, .inr ⟨Nat.le_of_not_lt hw, (Option.some.inj h).symm⟩⟩
  · cases h

theorem step_wake (h : w.step (.wake i) = some w') :
    ∃ t tl d, w.tasks[i]? = some t ∧ t.pc = .pausing tl d ∧ d ≤ w.now ∧ w' = w.record i t := by
  simp only [World.step] at h
  split at h
  · next t ht =>
    split at h
    · next tl d hp =>
      split_ifs at h with hd
      exact ⟨t, tl, d, ht, hp, hd, (Option.some.inj h).symm⟩
    · cases h
  · cases h

theorem step_send (h : w.step (.send i) = some w') :
    ∃ t g, w.tasks[i]? = some t ∧ t.pc = .passed g ∧
      w' = { w with tasks := w.tasks.set i { t with pc := .sending }, sends := (g, w.now) :: w.sends } := by
  simp only [World.step] at h
  split at h
  · next t ht =>
    split at h
    · next g hp => exact ⟨t, g, ht, hp, (Option.some.inj h).symm⟩
    · cases h
  · cases h

theorem step_respond {b : Bool} (h : w.step (.respond i b) = some w') :
    ∃ t, w.tasks[i]? = some t ∧ t.pc = .sending ∧
      w' = { w with tasks := w.tasks.set i (if b ∧ t.retries < maxRetries then
        { t with retries := t.retries + 1, pc := .backingOff (w.now + t.backoff) }
        else { t with pc := .finished }) } := by
  simp only [World.step] at h
  split at h
  · next t ht =>
    by_cases hs : t.pc = .sending
    · rw [if_pos hs] at h
      refine ⟨t, ht, hs, ?_⟩
      split_ifs at h ⊢ <;> exact (Option.some.inj h).symm
    · rw [if_neg hs] at h; cases h
  · cases h

theorem step_resume (h : w.step (.resume i) = some w') :
    ∃ t wake, w.tasks[i]? = some t ∧ t.pc = .backingOff wake ∧ wake ≤ w.now ∧
      w' = { w with tasks := w.tasks.set i { t with backoff := t.backoff * 2, pc := .locking } } := by
  simp only [World.step] at h
  split at h
  · next t ht =>
    split at h
    · next wk hp =>
      split_ifs at h with hw
      exact ⟨t, wk, ht, hp, hw, (Option.some.inj h).symm⟩
    · cases h
  · cases h

theorem step_quiet {b : Bool} (h : w.step (.respond i b) = some w' ∨ w.step (.resume i) = some w') :
    ∃ t t', w.tasks[i]? = some t ∧ t.pc.atGate = false ∧ t'.pc.atGate = false ∧
      w' = { w with tasks := w.tasks.set i t' } := by
  rcases h with h | h
  · obtain ⟨t, ht, hs, rfl⟩ := step_respond h
    refine ⟨t, _, ht, by simp [hs, Pc.atGate], ?_, rfl⟩
    split_ifs <;> rfl
  · obtain ⟨t, wk, ht, hp, -, rfl⟩ := step_resume h
    exact ⟨t, { t with backoff := t.backoff * 2, pc := .locking }, ht, by simp [hp, Pc.atGate], rfl, rfl⟩

theorem step_cancel (h : w.step (.cancel i) = some w') :
    ∃ t, w.tasks[i]? = some t ∧
      w' = { w with holder := (if w.holder = some i then none else w.holder),
                    tasks := w.tasks.set i { t with pc := .finished } } := by
  simp only [World.step] at h
  split at h
  · next t ht =>
    by_cases hf : t.pc = .finished
    · simp [hf] at h
    · rw [if_neg hf] at h
      exact ⟨t, ht, (Option.some.inj h).symm⟩
  · cases h

end OpenMusicPlayer
