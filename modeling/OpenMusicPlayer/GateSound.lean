import Mathlib.Data.List.Pairwise
import Mathlib.Data.List.Chain
import Mathlib.Tactic.Linarith
import OpenMusicPlayer.Gate

/-!
# Soundness of the gate

From any client's creation, every reachable world keeps `Inv`: the values
`last_request` has held are each an interval past the one before, only the
call asleep inside `acquire` holds the lock, and every request sent, or
through the gate and not yet sent, carries a gate time of its own. So every
write moves `last_request` on by an interval at least, cancellation writes
nothing (`gate_spacing`), and the gate times of any two requests are an
interval apart (`sends_gate_spaced`); their start times need not be
(`sends_start_not_spaced`). The holder of the lock can always go on once the
interval is over, and no cancelled call keeps it (`lock_never_stuck`).
-/

namespace OpenMusicPlayer

/-- `a` lies at least one interval after `b`. -/
def Gap (a b : Int) : Prop := b + rateLimitInterval ≤ a

instance : IsTrans Int Gap :=
  ⟨fun a b c hab hbc => by unfold Gap at *; have := rateLimitInterval_pos; omega⟩

theorem chain_gap_le_head : ∀ {l : List Int} {x y : Int}, l.Chain' Gap → l.head? = some x →
    y ∈ l → y ≤ x
  | x :: l, _, y, hc, rfl, hy => by
    rcases List.mem_cons.mp hy with rfl | hy
    · exact le_rfl
    · have := List.rel_of_pairwise_cons (List.chain'_iff_pairwise.mp hc) hy
      unfold Gap at this; omega

theorem chain_gap_getElem : ∀ (n i : Nat) {l : List Int} {a b : Int}, l.Chain' Gap →
    l[i]? = some a → l[i + n]? = some b → b + n * rateLimitInterval ≤ a
  | 0, i, l, a, b, _, ha, hb => by simp_all
  | n + 1, 0, x :: y :: rest, a, b, hc, ha, hb => by
    obtain ⟨hxy, hc'⟩ := List.chain'_cons.mp hc
    have := chain_gap_getElem n 0 (a := y) hc' (by simp) (by simpa using hb)
    simp only [List.getElem?_cons_zero, Option.some.injEq] at ha
    unfold Gap at hxy; push_cast; subst ha; linarith
  | n + 1, 0, [x], a, b, _, _, hb => by simp at hb
  | n + 1, i + 1, x :: l, a, b, hc, ha, hb =>
    chain_gap_getElem (n + 1) i hc.tail (by simpa using ha) (by simpa [Nat.add_right_comm i 1] using hb)
  | _ + 1, _, [], _, _, _, ha, _ => by simp at ha

/-! ## The invariant -/

structure Inv (w : World) : Prop where
  last_le_now : w.lastRequest ≤ w.now
  written_head : w.written.head? = some w.lastRequest
  written_gap : w.written.Chain' Gap
  pausing_holds : ∀ i t d, pcAt w.tasks i = some (.pausing t d) →
    w.holder = some i ∧ t < w.lastRequest + rateLimitInterval ∧ d = w.lastRequest + rateLimitInterval
  holder_pausing : ∀ i, w.holder = some i → ∃ t d, pcAt w.tasks i = some (.pausing t d)
  passed_written : ∀ i g, pcAt w.tasks i = some (.passed g) → g ∈ w.written ∧ g ≤ w.now
  passed_unique : ∀ i j g, pcAt w.tasks i = some (.passed g) → pcAt w.tasks j = some (.passed g) → i = j
  passed_unsent : ∀ i g, pcAt w.tasks i = some (.passed g) → g ∉ w.sends.map Prod.fst
  sends_written : ∀ e ∈ w.sends, e.1 ∈ w.written ∧ e.1 ≤ e.2
  sends_nodup : (w.sends.map Prod.fst).Nodup

variable {w : World}

theorem Inv.written_le (hi : Inv w) {g : Int} (hg : g ∈ w.written) : g ≤ w.lastRequest :=
  chain_gap_le_head hi.written_gap hi.written_head hg

theorem inv_init (t0 : Int) : Inv (World.init t0) where
  last_le_now := by simp [World.init]
  written_head := rfl
  written_gap := List.chain'_singleton _
  pausing_holds := by simp [World.init, pcAt]
  holder_pausing := by simp [World.init]
  passed_written := by simp [World.init, pcAt]
  passed_unique := by simp [World.init, pcAt]
  passed_unsent := by simp [World.init, pcAt]
  sends_written := by simp [World.init]
  sends_nodup := List.nodup_nil

theorem inv_tick (hi : Inv w) (d : Nat) : Inv { w with now := w.now + d } where
  last_le_now := by have := hi.last_le_now; dsimp only; omega
  written_head := hi.written_head
  written_gap := hi.written_gap
  pausing_holds := hi.pausing_holds
  holder_pausing := hi.holder_pausing
  passed_written i g h := by have := hi.passed_written i g h; exact ⟨this.1, by dsimp only; omega⟩
  passed_unique := hi.passed_unique
  passed_unsent := hi.passed_unsent
  sends_written := hi.sends_written
  sends_nodup := hi.sends_nodup

theorem inv_of_gate_eq (hi : Inv w) {tasks : List Task}
    (hg : ∀ j p, p.atGate = true → (pcAt tasks j = some p ↔ pcAt w.tasks j = some p)) :
    Inv { w with tasks := tasks } where
  last_le_now := hi.last_le_now
  written_head := hi.written_head
  written_gap := hi.written_gap
  pausing_holds j t d h := hi.pausing_holds j t d ((hg j (.pausing t d) rfl).mp h)
  holder_pausing j h :=
    let ⟨t, d, hp⟩ := hi.holder_pausing j h
    ⟨t, d, (hg j (.pausing t d) rfl).mpr hp⟩
  passed_written j g h := hi.passed_written j g ((hg j (.passed g) rfl).mp h)
  passed_unique j k g hj hk :=
    hi.passed_unique j k g ((hg j (.passed g) rfl).mp hj) ((hg k (.passed g) rfl).mp hk)
  passed_unsent j g h := hi.passed_unsent j g ((hg j (.passed g) rfl).mp h)
  sends_written := hi.sends_written
  sends_nodup := hi.sends_nodup

theorem Inv.not_pausing_of_holder (hi : Inv w) {j k : Nat} (hh : w.holder = none ∨ w.holder = some k)
    (hj : j ≠ k) {t d : Int} : pcAt w.tasks j ≠ some (.pausing t d) := fun h => by
  have := (hi.pausing_holds j t d h).1
  rcases hh with hh | hh <;> rw [hh] at this <;> simp_all

theorem inv_cancel (hi : Inv w) {i : Nat} {t : Task} (ht : w.tasks[i]? = some t) :
    Inv { w with holder := (if w.holder = some i then none else w.holder),
                 tasks := w.tasks.set i { t with pc := .finished } } where
  last_le_now := hi.last_le_now
  written_head := hi.written_head
  written_gap := hi.written_gap
  pausing_holds j t' d h := by
    obtain ⟨hj, h⟩ := pcAt_set_off_gate ht h rfl rfl
    exact ⟨by simp [(hi.pausing_holds j t' d h).1, hj], (hi.pausing_holds j t' d h).2⟩
  holder_pausing j h := by
    by_cases hhi : w.holder = some i
    · simp [hhi] at h
    · rw [if_neg hhi] at h
      obtain ⟨t', d, hp⟩ := hi.holder_pausing j h
      exact ⟨t', d, by rwa [pcAt_set_ne ht (by rintro rfl; exact hhi h)]⟩
  passed_written j g h := hi.passed_written j g (pcAt_set_off_gate ht h rfl rfl).2
  passed_unique j k g hj hk :=
    hi.passed_unique j k g (pcAt_set_off_gate ht hj rfl rfl).2 (pcAt_set_off_gate ht hk rfl rfl).2
  passed_unsent j g h := hi.passed_unsent j g (pcAt_set_off_gate ht h rfl rfl).2
  sends_written := hi.sends_written
  sends_nodup := hi.sends_nodup

theorem inv_pause (hi : Inv w) {i : Nat} {t : Task} (ht : w.tasks[i]? = some t) (hh : w.holder = none)
    (hel : (w.now - w.lastRequest).toNat < rateLimitInterval) :
    Inv { w with holder := some i, tasks := w.tasks.set i { t with
      pc := .pausing w.now (w.now + (rateLimitInterval - (w.now - w.lastRequest).toNat : Nat)) } } := by
  have hle := hi.last_le_now
  have old : ∀ j p, pcAt (w.tasks.set i { t with
      pc := .pausing w.now (w.now + (rateLimitInterval - (w.now - w.lastRequest).toNat : Nat)) }) j = some p →
      (∀ t d, p ≠ .pausing t d) → j ≠ i ∧ pcAt w.tasks j = some p := fun j p h hp => by
    rcases pcAt_set_cases ht h with ⟨rfl, rfl⟩ | h
    · exact absurd rfl (hp _ _)
    · exact h
  exact {
    last_le_now := hle
    written_head := hi.written_head
    written_gap := hi.written_gap
    pausing_holds := fun j t' d h => by
      rcases pcAt_set_cases ht h with ⟨rfl, hp⟩ | ⟨-, h⟩
      · cases hp; dsimp only; exact ⟨rfl, by omega, by omega⟩
      · exact absurd (hi.pausing_holds j t' d h).1 (by simp [hh])
    holder_pausing := fun j h => by
      cases h; exact ⟨_, _, pcAt_set_self ht⟩
    passed_written := fun j g h => hi.passed_written j g (old j _ h (by simp)).2
    passed_unique := fun j k g hj hk => hi.passed_unique j k g (old j _ hj (by simp)).2 (old k _ hk (by simp)).2
    passed_unsent := fun j g h => hi.passed_unsent j g (old j _ h (by simp)).2
    sends_written := hi.sends_written
    sends_nodup := hi.sends_nodup }

theorem inv_record (hi : Inv w) {i : Nat} {t : Task} (ht : w.tasks[i]? = some t)
    (hh : w.holder = none ∨ w.holder = some i) (hgap : w.lastRequest + rateLimitInterval ≤ w.now) :
    Inv (w.record i t) := by
  have hI := rateLimitInterval_pos
  have fresh : ∀ g ∈ w.written, g < w.now := fun g hg => by have := hi.written_le hg; omega
  have old : ∀ j g, pcAt (w.record i t).tasks j = some (.passed g) → j = i ∧ g = w.now ∨
      j ≠ i ∧ pcAt w.tasks j = some (.passed g) := fun j g h => by
    rcases pcAt_set_cases ht h with ⟨rfl, hp⟩ | h
    · cases hp; exact .inl ⟨rfl, rfl⟩
    · exact .inr h
  exact {
    last_le_now := le_rfl
    written_head := rfl
    written_gap := hi.written_gap.cons' fun y hy => by
      rw [hi.written_head, Option.mem_some_iff] at hy; subst hy; exact hgap
    pausing_holds := fun j t' d h => by
      rcases pcAt_set_cases ht h with ⟨rfl, hp⟩ | ⟨hj, h⟩
      · cases hp
      · exact absurd h (hi.not_pausing_of_holder hh hj)
    holder_pausing := fun j h => by cases h
    passed_written := fun j g h => by
      rcases old j g h with ⟨-, rfl⟩ | ⟨-, h⟩
      · exact ⟨List.mem_cons_self _ _, le_rfl⟩
      · have := hi.passed_written j g h; exact ⟨List.mem_cons_of_mem _ this.1, this.2⟩
    passed_unique := fun j k g hj hk => by
      rcases old j g hj with ⟨rfl, rfl⟩ | ⟨-, h1⟩ <;> rcases old k _ hk with ⟨rfl, h2⟩ | ⟨-, h2⟩
      · rfl
      · exact absurd (fresh _ (hi.passed_written k _ h2).1) (lt_irrefl _)
      · exact absurd h2 (fresh _ (hi.passed_written j _ h1).1).ne
      · exact hi.passed_unique j k g h1 h2
    passed_unsent := fun j g h => by
      rcases old j g h with ⟨-, rfl⟩ | ⟨-, h⟩
      · intro hs
        obtain ⟨e, he, he1⟩ := List.mem_map.mp hs
        exact absurd he1 (fresh _ (hi.sends_written e he).1).ne
      · exact hi.passed_unsent j g h
    sends_written := fun e he =>
      ⟨List.mem_cons_of_mem _ (hi.sends_written e he).1, (hi.sends_written e he).2⟩
    sends_nodup := hi.sends_nodup }

theorem inv_send (hi : Inv w) {i : Nat} {t : Task} {g : Int} (ht : w.tasks[i]? = some t)
    (hp : t.pc = .passed g) :
    Inv { w with tasks := w.tasks.set i { t with pc := .sending }, sends := (g, w.now) :: w.sends } := by
  have hgi : pcAt w.tasks i = some (.passed g) := by rw [pcAt_of_get ht, hp]
  exact {
    last_le_now := hi.last_le_now
    written_head := hi.written_head
    written_gap := hi.written_gap
    pausing_holds := fun j t' d h => hi.pausing_holds j t' d (pcAt_set_off_gate ht h rfl rfl).2
    holder_pausing := fun j h => by
      obtain ⟨t', d, hj⟩ := hi.holder_pausing j h
      have hji : j ≠ i := by rintro rfl; rw [hgi] at hj; cases hj
      exact ⟨t', d, by rwa [pcAt_set_ne ht hji]⟩
    passed_written := fun j g' h => hi.passed_written j g' (pcAt_set_off_gate ht h rfl rfl).2
    passed_unique := fun j k g' hj hk =>
      hi.passed_unique j k g' (pcAt_set_off_gate ht hj rfl rfl).2 (pcAt_set_off_gate ht hk rfl rfl).2
    passed_unsent := fun j g' h => by
      obtain ⟨hji, hj⟩ := pcAt_set_off_gate ht h rfl rfl
      have hne : g' ≠ g := by rintro rfl; exact hji (hi.passed_unique j i g' hj hgi)
      simpa [hne] using hi.passed_unsent j g' hj
    sends_written := by
      simp only [List.mem_cons, forall_eq_or_imp]
      exact ⟨hi.passed_written i g hgi, hi.sends_written⟩
    sends_nodup := List.nodup_cons.mpr ⟨hi.passed_unsent i g hgi, hi.sends_nodup⟩ }

theorem inv_step (hi : Inv w) {a : Act} {w' : World} (h : w.step a = some w') : Inv w' := by
  cases a with
  | tick d => obtain rfl := Option.some.inj h; exact inv_tick hi d
  | spawn => obtain rfl := Option.some.inj h; exact inv_of_gate_eq hi fun j p hp => gate_spawn _ ⟨0, initialBackoff, .locking, 0⟩ rfl j hp
  | lock i =>
    obtain ⟨t, ht, -, hh, ⟨hel, rfl⟩ | ⟨hel, rfl⟩⟩ := step_lock h
    · exact inv_pause hi ht hh hel
    · exact inv_record hi ht (.inl hh) (by have := hi.last_le_now; omega)
  | wake i =>
    obtain ⟨t, tl, d, ht, hp, hd, rfl⟩ := step_wake h
    have := hi.pausing_holds i tl d (by rw [pcAt_of_get ht, hp])
    exact inv_record hi ht (.inr this.1) (by omega)
  | send i =>
    obtain ⟨t, g, ht, hp, rfl⟩ := step_send h
    exact inv_send hi ht hp
  | respond i b =>
    obtain ⟨t, t', ht, hq, hq', rfl⟩ := step_quiet (.inl h)
    exact inv_of_gate_eq hi fun j p hp => gate_set_quiet ht hq hq' j hp
  | resume i =>
    obtain ⟨t, t', ht, hq, hq', rfl⟩ := step_quiet (b := false) (.inr h)
    exact inv_of_gate_eq hi fun j p hp => gate_set_quiet ht hq hq' j hp
  | cancel i =>
    obtain ⟨t, ht, rfl⟩ := step_cancel h
    exact inv_cancel hi ht

theorem Reachable.inv {t0 : Int} (h : Reachable t0 w) : Inv w := by
  induction h with
  | init => exact inv_init t0
  | step _ _ hs ih => exact inv_step ih hs

/-- Call 0 passes the idle gate; call 1 takes the lock, waits out the
interval, passes and sends; only then does call 0 send. -/
def race : List Act :=
  [.spawn, .spawn, .lock 0, .lock 1, .tick rateLimitInterval, .wake 1, .send 1, .send 0]

theorem race_run : ∃ w, (World.init 0).run race = some w ∧
    w.written = [(rateLimitInterval : Int), 0, -(rateLimitInterval : Int)] ∧
    w.sends = [((0 : Int), (rateLimitInterval : Int)), ((rateLimitInterval : Int), (rateLimitInterval : Int))] :=
  ⟨_, rfl, by decide, by decide⟩

/-! ## Writes to `last_request` -/

theorem step_written (hi : Inv w) {a : Act} {w' : World} (h : w.step a = some w') :
    (w'.written = w.written ∧ w'.lastRequest = w.lastRequest) ∨
      (w'.written = w'.lastRequest :: w.written ∧
        w.lastRequest + rateLimitInterval ≤ w'.lastRequest) := by
  cases a with
  | tick d | spawn => obtain rfl := Option.some.inj h; exact .inl ⟨rfl, rfl⟩
  | lock i =>
    obtain ⟨t, ht, -, hh, ⟨hel, rfl⟩ | ⟨hel, rfl⟩⟩ := step_lock h
    · exact .inl ⟨rfl, rfl⟩
    · exact .inr ⟨rfl, by have := hi.last_le_now; simp only [record_lastRequest]; omega⟩
  | wake i =>
    obtain ⟨t, tl, d, ht, hp, hd, rfl⟩ := step_wake h
    have := hi.pausing_holds i tl d (by rw [pcAt_of_get ht, hp])
    exact .inr ⟨rfl, by simp only [record_lastRequest]; omega⟩
  | send i => obtain ⟨t, g, ht, hp, rfl⟩ := step_send h; exact .inl ⟨rfl, rfl⟩
  | respond i b => obtain ⟨t, t', -, -, -, rfl⟩ := step_quiet (.inl h); exact .inl ⟨rfl, rfl⟩
  | resume i => obtain ⟨t, t', -, -, -, rfl⟩ := step_quiet (b := false) (.inr h); exact .inl ⟨rfl, rfl⟩
  | cancel i => obtain ⟨t, ht, rfl⟩ := step_cancel h; exact .inl ⟨rfl, rfl⟩

/-- **The gate.** In every world reachable from a client's creation, on any
number of concurrent, cancellable calls: each value written to `last_request`
is at least an interval past the one before, so values `n` writes apart are
`n` intervals apart; a cancelled call writes nothing and gives up the lock;
and with exact sleeps each acquire records the later of the time it got the
lock and the end of the interval after the previous record. -/
theorem gate_spacing (t0 : Int) (w : World) (hw : Reachable t0 w) :
    (∀ a w', w.step a = some w' →
      (w'.written = w.written ∧ w'.lastRequest = w.lastRequest) ∨
        (w'.written = w'.lastRequest :: w.written ∧
          w.lastRequest + rateLimitInterval ≤ w'.lastRequest)) ∧
    (∀ i j a b, i ≤ j → w.written[i]? = some a → w.written[j]? = some b →
      b + ((j - i : Nat) : Int) * rateLimitInterval ≤ a) ∧
    (∀ i w', w.step (.cancel i) = some w' →
      w'.lastRequest = w.lastRequest ∧ w'.written = w.written ∧ w'.holder ≠ some i) ∧
    (∀ i w', w.step (.lock i) = some w' → w'.written ≠ w.written →
      w'.lastRequest = max w.now (w.lastRequest + rateLimitInterval)) ∧
    (∀ i t w', pcAt w.tasks i = some (.pausing t w.now) → w.step (.wake i) = some w' →
      w'.lastRequest = max t (w.lastRequest + rateLimitInterval)) := by
  have hi := hw.inv
  refine ⟨fun a w' h => step_written hi h, fun i j a b hij ha hb => ?_, fun i w' h => ?_,
    fun i w' h hne => ?_, fun i t w' hp h => ?_⟩
  · exact chain_gap_getElem (j - i) i hi.written_gap ha (by rwa [Nat.add_sub_cancel' hij])
  · obtain ⟨t, -, rfl⟩ := step_cancel h
    exact ⟨rfl, rfl, by dsimp only; split_ifs with hh <;> simp [hh]⟩
  · obtain ⟨t, -, -, -, ⟨-, rfl⟩ | ⟨hel, rfl⟩⟩ := step_lock h
    · exact absurd rfl hne
    · have := hi.last_le_now
      rw [record_lastRequest, max_eq_left (by omega)]
  · obtain ⟨t', tl, d, -, -, -, rfl⟩ := step_wake h
    obtain ⟨-, ht, hd⟩ := hi.pausing_holds i t w.now hp
    rw [record_lastRequest, max_eq_right ht.le, hd]

theorem gate_spacing_race : ∃ w, Reachable 0 w ∧ w.written = [(rateLimitInterval : Int), 0, -(rateLimitInterval : Int)] ∧
    ∀ i j a b, i ≤ j → w.written[i]? = some a → w.written[j]? = some b →
      b + ((j - i : Nat) : Int) * rateLimitInterval ≤ a := by
  obtain ⟨w, hrun, hwr, -⟩ := race_run
  have hw := Reachable.init.run hrun
  exact ⟨w, hw, hwr, (gate_spacing 0 w hw).2.1⟩

/-! ## Requests leaving -/

/-- The start times of two requests can coincide: a call that passed the gate
may be held back until a later call has passed it too. -/
theorem sends_start_not_spaced : ¬ ∀ t0 w, Reachable t0 w →
    w.sends.Pairwise fun e f : Int × Int => f.2 + rateLimitInterval ≤ e.2 ∨ e.2 + rateLimitInterval ≤ f.2 := by
  intro h
  obtain ⟨w, hrun, -, hs⟩ := race_run
  have := h 0 w (Reachable.init.run hrun)
  rw [hs] at this
  revert this; decide

theorem sends_nodup_pairwise (hi : Inv w) :
    w.sends.Pairwise fun e f : Int × Int => f.1 + rateLimitInterval ≤ e.1 ∨ e.1 + rateLimitInterval ≤ f.1 := by
  have hgap : w.written.Pairwise fun x y => Gap x y ∨ Gap y x :=
    (List.chain'_iff_pairwise.mp hi.written_gap).imp .inl
  have hne : w.sends.Pairwise fun e f => e.1 ≠ f.1 := List.pairwise_map.mp hi.sends_nodup
  refine hne.imp_of_mem fun {e f} he hf hef => ?_
  have := hgap.forall (fun x y h => h.symm) (hi.sends_written e he).1 (hi.sends_written f hf).1 hef
  unfold Gap at this
  omega

/-- **Requests leave one interval apart at the gate.** Every request starts no
earlier than the gate time that let it through, and the gate times of any two
requests are an interval apart. -/
theorem sends_gate_spaced (t0 : Int) (w : World) (hw : Reachable t0 w) :
    (∀ e ∈ w.sends, e.1 ≤ e.2) ∧
      w.sends.Pairwise fun e f : Int × Int => f.1 + rateLimitInterval ≤ e.1 ∨ e.1 + rateLimitInterval ≤ f.1 :=
  ⟨fun e he => (hw.inv.sends_written e he).2, sends_nodup_pairwise hw.inv⟩

theorem sends_gate_spaced_race : ∃ w, Reachable 0 w ∧
    w.sends = [((0 : Int), (rateLimitInterval : Int)), ((rateLimitInterval : Int), (rateLimitInterval : Int))] ∧
    (∀ e ∈ w.sends, e.1 ≤ e.2) ∧
      w.sends.Pairwise fun e f : Int × Int => f.1 + rateLimitInterval ≤ e.1 ∨ e.1 + rateLimitInterval ≤ f.1 := by
  obtain ⟨w, hrun, -, hs⟩ := race_run
  have hw := Reachable.init.run hrun
  exact ⟨w, hw, hs, sends_gate_spaced 0 w hw⟩


/-! ## The lock -/

/-- **The lock is never stuck.** In every reachable world the mutex is held
exactly by a call asleep inside `acquire`, at most one call is, and the holder
can always finish `acquire` and drop the guard once the clock has reached one
interval past the last request; a cancelled call never holds it. -/
theorem lock_never_stuck (t0 : Int) (w : World) (hw : Reachable t0 w) :
    (∀ i, w.holder = some i ↔ ∃ t d, pcAt w.tasks i = some (.pausing t d)) ∧
    (∀ i j t d t' d', pcAt w.tasks i = some (.pausing t d) → pcAt w.tasks j = some (.pausing t' d') →
      i = j) ∧
    ∀ i (d : Nat), w.holder = some i → w.lastRequest + rateLimitInterval ≤ w.now + d →
      ∃ w', w.run [.tick d, .wake i] = some w' := by
  have hi := hw.inv
  refine ⟨fun i => ⟨hi.holder_pausing i, fun ⟨t, d, hp⟩ => (hi.pausing_holds i t d hp).1⟩,
    fun i j t d t' d' hp hq => Option.some.inj ((hi.pausing_holds i t d hp).1.symm.trans
      (hi.pausing_holds j t' d' hq).1), fun i d hh hd => ?_⟩
  obtain ⟨tl, dl, hp⟩ := hi.holder_pausing i hh
  have hdl := (hi.pausing_holds i tl dl hp).2.2
  obtain ⟨t, ht, htp⟩ := Option.map_eq_some'.mp hp
  simp [World.run, World.step, ht, htp, show dl ≤ w.now + d by omega]

theorem lock_never_stuck_second_call : ∃ w, Reachable 0 w ∧ w.holder = some 1 ∧
    ((∀ i, w.holder = some i ↔ ∃ t d, pcAt w.tasks i = some (.pausing t d)) ∧
    (∀ i j t d t' d', pcAt w.tasks i = some (.pausing t d) → pcAt w.tasks j = some (.pausing t' d') →
      i = j) ∧
    ∀ i (d : Nat), w.holder = some i → w.lastRequest + rateLimitInterval ≤ w.now + d →
      ∃ w', w.run [.tick d, .wake i] = some w') := by
  have hrun : (World.init 0).run [.spawn, .spawn, .lock 0, .lock 1] = some _ := rfl
  have hw := Reachable.init.run hrun
  exact ⟨_, hw, rfl, lock_never_stuck 0 _ hw⟩

end OpenMusicPlayer
