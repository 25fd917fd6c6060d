import VclRs.Interaction.Notify

namespace Interaction

namespace Notify

variable {W τ : Type} [DecidableEq W]

def ahead (N : Notify W τ) (w : W) : ℕ := N.queue.idxOf w

inductive Moves (N N' : Notify W τ) (w : W) : Prop
  | kept (hq : w ∈ N'.queue) (ha : N'.ahead w ≤ N.ahead w)
  | woken (x : τ) (hx : (w,x) ∈ N'.woken)

variable {N N' : Notify W τ} {v w : W} {x : τ}

theorem idxOf_erase_le {l : List W} (hne : v ≠ w) : (l.erase v).idxOf w ≤ l.idxOf w := by
  induction l with
  | nil => simp
  | cons y l ih =>
    by_cases hy : y = v
    · subst hy
      rw [List.erase_cons_head,List.idxOf_cons_ne l hne]
      omega
    · rw [List.erase_cons_tail (by simpa using hy)]
      by_cases hw : y = w
      · subst hw
        simp
      · rw [List.idxOf_cons_ne _ hw,List.idxOf_cons_ne _ hw]
        omega

theorem forget_kept (hne : v ≠ w) (hw : w ∈ N.queue) :
    w ∈ (N.forget v).queue ∧ (N.forget v).ahead w ≤ N.ahead w :=
  ⟨(List.mem_erase_of_ne hne.symm).mpr hw,idxOf_erase_le hne⟩

theorem enrol_moves {hv : v ∉ N.members} (hw : w ∈ N.queue) : Moves N (N.enrol v hv) w := by
  refine .kept (List.mem_append_left _ hw) ?_
  simp only [ahead,enrol]
  rw [List.idxOf_append_of_mem hw]

theorem poll_pending_moves (hw : w ∈ N.queue) (h : N.poll v = (none,N')) : Moves N N' w := by
  unfold poll at h
  split at h
  · simp at h
  · split_ifs at h with hv
    · cases h
      exact .kept hw (le_refl _)
    · split at h
      · simp at h
      · cases h
        exact enrol_moves hw

theorem poll_ready_moves (hne : v ≠ w) (hw : w ∈ N.queue) (h : N.poll v = (some x,N')) :
    Moves N N' w := by
  unfold poll at h
  split at h
  · cases h
    obtain ⟨hq,ha⟩ := forget_kept hne hw
    exact .kept hq ha
  · split_ifs at h with hv
    · simp at h
    · split at h
      · cases h
        exact .kept hw (le_refl _)
      · simp at h

theorem poll_woken (hx : (w,x) ∈ N.woken) : ∃ y N', N.poll w = (some y,N') := by
  cases h : N.assigned w with
  | none =>
    have hne := List.lookup_eq_none_iff.mp h (w,x) hx
    simp at hne
  | some y =>
    refine ⟨y,N.forget w,?_⟩
    unfold poll
    rw [h]

section Posting

variable [Add τ]

theorem notifyOne_turn (hw : w ∈ N.queue) (x : τ) : (w,x) ∈ (N.notifyOne x).woken ∨
    w ∈ (N.notifyOne x).queue ∧ (N.notifyOne x).ahead w + 1 = N.ahead w := by
  cases hq : N.queue with
  | nil =>
    rw [hq] at hw
    cases hw
  | cons y ys =>
    obtain ⟨hqueue,hwoken,-⟩ := notifyOne_cons (x := x) hq
    by_cases hy : y = w
    · subst hy
      rw [hwoken]
      exact .inl List.mem_cons_self
    · rw [hq] at hw
      refine .inr ⟨?_,?_⟩
      · rw [hqueue]
        exact (List.mem_cons.mp hw).resolve_left (Ne.symm hy)
      · rw [ahead,ahead,hqueue,hq,List.idxOf_cons_ne _ hy]

theorem notifyOne_moves (hw : w ∈ N.queue) (x : τ) : Moves N (N.notifyOne x) w := by
  rcases notifyOne_turn hw x with hx | ⟨hq,ha⟩
  · exact .woken x hx
  · exact .kept hq (by omega)

theorem abandon_moves (hne : v ≠ w) (hw : w ∈ N.queue) : Moves N (N.abandon v) w := by
  obtain ⟨hq,ha⟩ := forget_kept hne hw
  unfold abandon
  split
  · next y hy =>
    rcases notifyOne_turn hq y with hx | ⟨hq',ha'⟩
    · exact .woken y hx
    · exact .kept hq' (by omega)
  · exact .kept hq ha

end Posting

end Notify

end Interaction
