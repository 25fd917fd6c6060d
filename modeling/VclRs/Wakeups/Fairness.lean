import VclRs.Interaction.Turns
import VclRs.Wakeups.Delivery

namespace VclRs

open Interaction

def Queued (R : Runtime) (s : Handle) (w : ℕ) : ℕ := (R.notifies s.toNat).ahead w

def Roused (R : Runtime) (s : Handle) (w : ℕ) : Prop :=
  ∃ x N, (R.notifies s.toNat).poll w = (some x,N)

inductive Ticked (R : Runtime) : Runtime → Prop
  | every {i : ℕ} {e : Errand} {p : Code} {v : Handle} {k : Unit → Code}
      (hf : R.futures[i]? = some ⟨e,.running p⟩) (hp : p.Head (.notifyEvery v) k) :
      Ticked R ((R.perform (.notifyEvery v)).resume i ⟨e,.running (k ())⟩)

inductive Pulses (r : VclReactor) : Runtime → List Runtime → ℕ → Prop
  | start (R : Runtime) : Pulses r R [] 0
  | step {R R' : Runtime} {run : List Runtime} {n : ℕ} (hs : Step r R R')
      (h : Pulses r R' run n) : Pulses r R (R' :: run) n
  | tick {R R' : Runtime} {run : List Runtime} {n : ℕ} (ht : Ticked R R')
      (h : Pulses r R' run n) : Pulses r R (R' :: run) (n + 1)

section Turns

variable {r : VclReactor} {R R' : Runtime} {s : Handle} {n : NotifyId} {i w : ℕ}

theorem post_moves (hw : w ∈ (R.notifies n).queue) (targets : NotifyId → Bool) :
    Notify.Moves (R.notifies n) ((R.post targets).notifies n) w := by
  by_cases hn : (R.entries n && targets n) = true
  · have hnotify : (R.post targets).notifies n = (R.notifies n).notifyOne {(n,R.posts)} := if_pos hn
    rw [hnotify]
    exact Notify.notifyOne_moves hw _
  · have hnotify : (R.post targets).notifies n = R.notifies n := if_neg hn
    rw [hnotify]
    exact .kept hw (le_refl _)

theorem perform_moves (hw : w ∈ (R.notifies n).queue) (o : Call) :
    Notify.Moves (R.notifies n) ((R.perform o).notifies n) w := by
  cases o with
  | notifyOne v sh => exact post_moves hw _
  | notifyEvery v => exact post_moves hw _
  | _ => exact .kept hw (le_refl _)

theorem settle_moves {m : NotifyId} {N : Notify ℕ (Multiset Token)}
    (hw : w ∈ (R.notifies n).queue)
    (h : w ∈ (R.notifies m).queue → Notify.Moves (R.notifies m) N w) :
    Notify.Moves (R.notifies n) ((R.settle m N).notifies n) w := by
  by_cases hn : n = m
  · subst hn
    rw [settle_self]
    exact h hw
  · rw [settle_other hn]
    exact .kept hw (le_refl _)

theorem resumed_differs {e : Errand} {o : Call} {k : Reply o → Code} {p : Code}
    (hf : R.futures[i]? = some ⟨e,.awaiting o k⟩) :
    (R.futures.set i ⟨e,.running p⟩)[i]? ≠ R.futures[i]? := by
  rw [set_self hf,hf]
  simp

theorem step_moves (h : Step r R R') (hw : w ∈ (R.notifies n).queue) :
    Notify.Moves (R.notifies n) (R'.notifies n) w ∨ R'.futures[w]? ≠ R.futures[w]? := by
  cases h with
  | spawn e => exact .inl (.kept hw (le_refl _))
  | call hf hp ho a ha => exact .inl (perform_moves hw _)
  | arrive hf hp ho => exact .inl (.kept hw (le_refl _))
  | pending hf ho hN =>
    exact .inl (settle_moves hw (fun hm => Notify.poll_pending_moves hm hN))
  | @notified i e o k m N x hf ho hN a ha =>
    by_cases hi : i = w
    · subst hi
      exact .inr (resumed_differs hf)
    · exact .inl (settle_moves hw (fun hm => Notify.poll_ready_moves hi hm hN))
  | @lost i e o k m hf ho a ha hpolled =>
    by_cases hi : i = w
    · subst hi
      exact .inr (resumed_differs hf)
    · exact .inl (settle_moves hw (fun hm => Notify.abandon_moves hi hm))

theorem ticked_step (h : Ticked R R') : Step r R R' := by
  cases h with
  | every hf hp => exact .call hf hp rfl () trivial

theorem ticked_turn (h : Ticked R R') (he : R.entries n = true) (hw : w ∈ (R.notifies n).queue) :
    (∃ x, (w,x) ∈ (R'.notifies n).woken) ∨
      w ∈ (R'.notifies n).queue ∧ (R'.notifies n).ahead w + 1 = (R.notifies n).ahead w := by
  cases h with
  | @every i e p v k hf hp =>
    have hnotify : ((R.perform (.notifyEvery v)).resume i ⟨e,.running (k ())⟩).notifies n =
        (R.notifies n).notifyOne {(n,R.posts)} := by
      change (if _ then _ else _) = _
      rw [he]
      simp
    rw [hnotify]
    rcases Notify.notifyOne_turn hw {(n,R.posts)} with hx | hq
    · exact .inl ⟨_,hx⟩
    · exact .inr hq

theorem woken_roused {x : Multiset Token} (h : (w,x) ∈ (R.notifies s.toNat).woken) : Roused R s w :=
  Notify.poll_woken h

end Turns

section Fairness

variable {r : VclReactor} {R : Runtime} {s : Handle} {run : List Runtime} {n w : ℕ}

theorem pulses_rouse (hs : Seated r R) (h : Pulses r R run n) (hp : Parked R s w)
    (hn : Queued R s w < n) : ∃ R₁ R₂, [R₁,R₂] <:+: R :: run ∧ Parked R₁ s w ∧
      (Roused R₂ s w ∨ R₂.futures[w]? ≠ R₁.futures[w]?) := by
  induction h with
  | start R => exact absurd hn (Nat.not_lt_zero _)
  | @step R R' run n hstep h ih =>
    have hhere : [R,R'] <:+: R :: R' :: run := (List.prefix_append [R,R'] run).isInfix
    have hs' := step_seated hstep hs
    rcases step_moves hstep hp.1 with hmove | hgone
    · cases hmove with
      | woken x hx => exact ⟨R,R',hhere,hp,.inl (woken_roused hx)⟩
      | kept hq ha =>
        obtain ⟨R₁,R₂,hnext,hrest⟩ := ih hs' ((parked_iff hs').mpr hq) (lt_of_le_of_lt ha hn)
        exact ⟨R₁,R₂,hnext.trans (List.suffix_cons R _).isInfix,hrest⟩
    · exact ⟨R,R',hhere,hp,.inr hgone⟩
  | @tick R R' run n ht h ih =>
    have hhere : [R,R'] <:+: R :: R' :: run := (List.prefix_append [R,R'] run).isInfix
    have hs' := step_seated (ticked_step ht) hs
    have he := (seat_wait hs (Notify.mem_members.mpr (.inl hp.1))).1
    rcases ticked_turn ht he hp.1 with ⟨x,hx⟩ | ⟨hq,ha⟩
    · exact ⟨R,R',hhere,hp,.inl (woken_roused hx)⟩
    · have hless : Queued R' s w < n := by
        change (R.notifies s.toNat).ahead w < n + 1 at hn
        change (R'.notifies s.toNat).ahead w < n
        omega
      obtain ⟨R₁,R₂,hnext,hrest⟩ := ih hs' ((parked_iff hs').mpr hq) hless
      exact ⟨R₁,R₂,hnext.trans (List.suffix_cons R _).isInfix,hrest⟩

end Fairness

def beatOf : Call → ℕ
  | .notifyEvery _ => 1
  | _ => 0

def Runtime.beat (R : Runtime) : Move → ℕ
  | .call i _ =>
    match R.futures[i]? with
    | some ⟨_,.running p⟩ => (p.expose 4).elim 0 (fun x => beatOf x.1)
    | _ => 0
  | _ => 0

def Runtime.beats (r : VclReactor) : Runtime → List Move → ℕ
  | _, [] => 0
  | R, m :: ms => ((R.play r m).map (fun R' => R'.beats r ms)).getD 0 + R.beat m

section Play

variable {r : VclReactor} {R R' : Runtime}

theorem beat_ticked {m : Move} (h : R.play r m = some R') :
    R.beat m = 0 ∨ R.beat m = 1 ∧ Ticked R R' := by
  cases m with
  | call i answer =>
    simp only [Runtime.play] at h
    split at h
    · next e p hf =>
      split at h
      · next o k hp =>
        split_ifs at h
        cases h
        simp only [Runtime.beat,hf,hp,Option.elim]
        cases o with
        | notifyEvery v => exact .inr ⟨rfl,.every hf (Prog.expose_head hp)⟩
        | _ => exact .inl rfl
      · cases h
    · cases h
  | _ => exact .inl rfl

theorem tour_pulses {ms : List Move} {run : List Runtime} (h : R.tour r ms = some run) :
    Pulses r R run (R.beats r ms) := by
  induction ms generalizing R run with
  | nil =>
    cases h
    exact .start R
  | cons m ms ih =>
    obtain ⟨R₁,hm,hms⟩ := Option.bind_eq_some_iff.mp h
    obtain ⟨rest,hrest,rfl⟩ := Option.map_eq_some_iff.mp hms
    simp only [Runtime.beats,hm,Option.map_some,Option.getD_some]
    rcases beat_ticked hm with hzero | ⟨hone,htick⟩
    · rw [hzero]
      exact .step (play_step hm) (ih hrest)
    · rw [hone]
      exact .tick htick (ih hrest)

end Play

def ticks (i : ℕ) : List Move :=
  [.spawn .tick,.call i obliging,.call i obliging]

end VclRs
